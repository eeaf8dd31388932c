import Kestrel.Endpoint.Conservation

/-! # The user's writes

The user's stream puts commands into a bounded channel, from which the loop takes them in order.
A write counts as accepted once its command is in the channel. The bytes accepted are those
packetized, waiting and queued exactly as long as every command fits into the send buffer.
-/

namespace Kestrel

/-- What a poll of the stream returns. -/
inductive Poll where
  | ready (n : ℕ)
  | pending
  | brokenPipe
  deriving DecidableEq, Repr

inductive TrySend where
  | ok
  | full
  | closed
  deriving DecidableEq, Repr

/-- The data of a command. -/
def StreamCommand.data : StreamCommand → Bytes
  | .sendData data => data
  | .close | .migrate .. => []

/-- A machine with the channel from the user's stream, the bytes whose write was accepted, after
those the connection was opened with, and whether all data handled so far fit. -/
structure Writer (C : Type) where
  machine : Machine C
  commands : List StreamCommand
  accepted : Bytes
  fitted : Bool

inductive WriterLabel where
  | pollWrite (buf : Bytes)
  | pollShutdown
  | migrate (newAddr : SocketAddr) (notifier : Notifier)
  | machine (l : Label)
  deriving DecidableEq, Repr

namespace Writer

variable {C : Type} (w : Writer C)

def channelCapacity : ℕ := 128

/-- The loop has ended and dropped its end of the channel. -/
def isClosed : Bool :=
  match w.machine.phase with
  | .finished | .failed _ => true
  | _ => false

def trySend (c : StreamCommand) : TrySend × Writer C :=
  if w.isClosed then (.closed, w)
  else if w.commands.length < channelCapacity then (.ok, { w with commands := w.commands ++ [c] })
  else (.full, w)

/-- A write reports its whole length once the command is in the channel. -/
def pollWrite (buf : Bytes) : Poll × Writer C :=
  match w.trySend (.sendData buf) with
  | (.ok, w) => (.ready buf.length, w)
  | (.full, w) => (.pending, w)
  | (.closed, w) => (.brokenPipe, w)

/-- Whether the close command got into the channel does not matter to the caller. -/
def pollShutdown : Writer C := (w.trySend .close).2

def queued : Bytes := w.commands.flatMap (·.data)

/-- The data fits into the free space of the send buffer. -/
def fits (m : Machine C) (c : StreamCommand) : Bool :=
  c.data.length ≤ m.endpoint.reliability.sendBuffer.spaceAvailable

variable [CongestionControl C]

def next : WriterLabel → Option (Writer C)
  | .pollWrite buf =>
    match w.pollWrite buf with
    | (.ready n, w) => some { w with accepted := w.accepted ++ buf.take n }
    | (_, w) => some w
  | .pollShutdown => some w.pollShutdown
  | .migrate newAddr notifier =>
    match w.trySend (.migrate newAddr notifier) with
    | (.full, _) => none
    | (_, w) => some w
  | .machine (.command t c) =>
    if w.commands.head? = some c then
      (w.machine.next (.command t c)).map fun m =>
        { w with machine := m, commands := w.commands.tail, fitted := w.fitted && fits w.machine c }
    else none
  | .machine l => (w.machine.next l).map fun m => { w with machine := m }

/-- All runs of an endpoint together with the stream that writes to it. -/
def system (C : Type) [CongestionControl C] : TransitionSystem (Writer C) WriterLabel :=
  .ofNext (fun w => w.machine.phase = .created ∧ w.machine.endpoint.Created ∧ w.commands = [] ∧
    w.accepted = w.machine.endpoint.history.written ∧ w.fitted = true) fun w l => w.next l

end Writer

namespace Machine

open Endpoint

variable {C : Type} [CongestionControl C] {m m' : Machine C} {l : Label} {t : Tick}

/-- The bytes that a step writes into the send buffer. -/
def taken (m : Machine C) : Label → Bytes
  | .command _ c => c.data.take m.endpoint.reliability.sendBuffer.spaceAvailable
  | _ => []

theorem written_of_act {e e' : Endpoint C} (h : Act t l e e')
    (hl : ∀ data, l ≠ .command t (.sendData data)) : e'.history.written = e.history.written := by
  cases h with
  | write data hw => exact absurd hw (hl data)
  | packetize chunks b lead bs hs hp hlead hb =>
    change ((e.cut t chunks b).createFin t).2.history.written = _
    unfold createFin
    split <;> rfl
  | sendEof hs =>
    unfold sendEof
    split <;> rfl
  | _ => rfl

omit [CongestionControl C] in
theorem written_writeToStream (e : Endpoint C) (data : Bytes) :
    (e.writeToStream data).history.written =
      e.history.written ++ data.take e.reliability.sendBuffer.spaceAvailable := by
  dsimp only [writeToStream, ReliabilityLayer.writeToStream]
  rw [SendBuffer.writeToStream_fst]
  exact congrArg (e.history.written ++ ·) (List.take_eq_take_iff.mpr (by omega))

theorem written_sendZeroRttPackets (e : Endpoint C) :
    (Outcome.last (e.sendZeroRttPackets t)).history.written = e.history.written := by
  unfold sendZeroRttPackets
  split
  · rw [sendPackets_eq, last_sending]
    rfl
  · rfl

theorem written_sendData (e : Endpoint C) (data : Bytes) :
    (Outcome.last (e.sendData t data)).history.written =
      e.history.written ++ data.take e.reliability.sendBuffer.spaceAvailable := by
  unfold sendData
  split
  · rename_i hs
    rw [transitionTo_eq, if_pos (by rw [hs]; rfl)]
    exact (written_sendZeroRttPackets _).trans (written_writeToStream _ data)
  · exact written_writeToStream e data

theorem written_of_next (h : m.next l = some m') :
    m'.endpoint.history.written = m.endpoint.history.written ++ m.taken l := by
  have hother (hl : ∀ t data, l ≠ .command t (.sendData data)) (ht : m.taken l = []) :
      m'.endpoint.history.written = m.endpoint.history.written ++ m.taken l := by
    rw [ht, List.append_nil]
    rcases acts_of_next h with ⟨t, -, ha⟩ | ⟨id, now, -, rfl⟩ | ⟨id, -, rfl⟩
    · have hopen : (m.opening l).history.written = m.endpoint.history.written := by
        cases l with
        | followUp t =>
          obtain ⟨_, _, hd⟩ := deliver_eq (t := t) (e := m.endpoint)
          rw [opening, hd]
        | _ => rfl
      exact ha.preserves (P := fun e => e.history.written = m.endpoint.history.written)
        (fun e₁ e₂ he ha => (written_of_act ha (hl t)).trans he) hopen
    · rfl
    · rfl
  cases l with
  | command t c =>
    cases c with
    | sendData data =>
      simp only [next, Option.ite_none_right_eq_some, Option.some.injEq] at h
      rw [← h.2, settle_endpoint]
      exact written_sendData m.endpoint data
    | close | migrate => exact hother (by simp) (List.take_nil ..)
  | _ => exact hother (by simp) rfl

end Machine

namespace Writer

variable {C : Type} [CongestionControl C] {w w' : Writer C} {l : WriterLabel}

/-- What was accepted is what the loop has handled and what is queued; what it handled has been
written as far as it fit. -/
def Accounted (w : Writer C) : Prop :=
  ∃ handled, w.accepted = handled ++ w.queued ∧
    (w.fitted = true → handled = w.machine.endpoint.history.written) ∧
      (w.fitted = false → w.machine.endpoint.history.written.length < handled.length)

omit [CongestionControl C] in
theorem trySend_cases (c : StreamCommand) :
    w.trySend c = (.closed, w) ∨ w.trySend c = (.full, w) ∨
      w.trySend c = (.ok, { w with commands := w.commands ++ [c] }) := by
  unfold trySend
  split
  · exact Or.inl rfl
  · split
    · exact Or.inr (Or.inr rfl)
    · exact Or.inr (Or.inl rfl)

omit [CongestionControl C] in
theorem queued_append (w : Writer C) (c : StreamCommand) :
    queued { w with commands := w.commands ++ [c] } = w.queued ++ c.data := by
  rw [queued, List.flatMap_append, List.flatMap_singleton, queued]

omit [CongestionControl C] in
theorem Accounted.trySend (h : w.Accounted) {c : StreamCommand} (hc : c.data = []) :
    (w.trySend c).2.Accounted := by
  rcases trySend_cases (w := w) c with ht | ht | ht <;> rw [ht]
  · exact h
  · exact h
  · obtain ⟨handled, ha, hfit, hlost⟩ := h
    refine ⟨handled, ?_, hfit, hlost⟩
    rw [queued_append, hc, List.append_nil]
    exact ha

theorem Accounted.pollWrite (h : w.Accounted) {buf : Bytes}
    (hn : w.next (.pollWrite buf) = some w') : w'.Accounted := by
  simp only [next, Writer.pollWrite] at hn
  rcases trySend_cases (w := w) (.sendData buf) with ht | ht | ht <;> rw [ht] at hn <;> cases hn
  · exact h
  · exact h
  · obtain ⟨handled, ha, hfit, hlost⟩ := h
    refine ⟨handled, ?_, hfit, hlost⟩
    dsimp only
    rw [List.take_length, ha, List.append_assoc]
    exact congrArg (handled ++ ·) (queued_append w (.sendData buf)).symm

theorem Accounted.command (h : w.Accounted) {t : Tick} {c : StreamCommand}
    {rest : List StreamCommand} {m : Machine C} (hc : w.commands = c :: rest)
    (hn : w.machine.next (.command t c) = some m) :
    Accounted { w with machine := m, commands := rest, fitted := w.fitted && fits w.machine c } := by
  obtain ⟨handled, ha, hfit, hlost⟩ := h
  have hw := Machine.written_of_next hn
  refine ⟨handled ++ c.data, ?_, ?_, ?_⟩
  · dsimp only
    rw [ha, queued, hc, List.flatMap_cons, List.append_assoc]
    rfl
  · intro hf
    rw [Bool.and_eq_true, fits, decide_eq_true_eq] at hf
    dsimp only
    rw [hw, Machine.taken, List.take_of_length_le hf.2, hfit hf.1]
  · intro hf
    dsimp only
    rw [hw, Machine.taken, List.length_append, List.length_append, List.length_take]
    rw [Bool.and_eq_false_iff] at hf
    cases hwf : w.fitted with
    | false =>
      have hlt := hlost hwf
      omega
    | true =>
      have heq := congrArg List.length (hfit hwf)
      have hover : ¬ c.data.length ≤ w.machine.endpoint.reliability.sendBuffer.spaceAvailable := by
        intro hle
        rw [hwf, fits, decide_eq_true hle] at hf
        simp at hf
      omega

theorem next_machine {l : Label} (hn : w.next (.machine l) = some w') :
    ∃ m, w.machine.next l = some m ∧
      ((∃ t c rest, l = .command t c ∧ w.commands = c :: rest ∧
          w' = { w with machine := m, commands := rest, fitted := w.fitted && fits w.machine c }) ∨
        (w.machine.taken l = [] ∧ w' = { w with machine := m })) := by
  cases l with
  | command t c =>
    simp only [next, Option.ite_none_right_eq_some] at hn
    obtain ⟨hc, hn⟩ := hn
    obtain ⟨m, hm, rfl⟩ := Option.map_eq_some_iff.mp hn
    obtain ⟨rest, hr⟩ := List.head?_eq_some_iff.mp hc
    exact ⟨m, hm, Or.inl ⟨t, c, rest, rfl, hr, by rw [hr]; rfl⟩⟩
  | _ =>
    rw [next] at hn
    · obtain ⟨m, hm, rfl⟩ := Option.map_eq_some_iff.mp hn
      exact ⟨m, hm, Or.inr ⟨rfl, rfl⟩⟩
    · intro t c h
      cases h

theorem Accounted.step (h : w.Accounted) (hn : w.next l = some w') : w'.Accounted := by
  cases l with
  | pollWrite buf => exact h.pollWrite hn
  | pollShutdown =>
    cases hn
    exact h.trySend rfl
  | migrate a n =>
    have ht := h.trySend (c := .migrate a n) rfl
    simp only [next] at hn
    rcases trySend_cases (w := w) (.migrate a n) with he | he | he <;> rw [he] at hn ht <;>
      cases hn <;> exact ht
  | machine l =>
    obtain ⟨m, hm, ⟨t, c, rest, rfl, hc, rfl⟩ | ⟨ht, rfl⟩⟩ := next_machine hn
    · exact h.command hc hm
    · have hw := Machine.written_of_next hm
      rw [ht, List.append_nil] at hw
      obtain ⟨handled, ha, hfit, hlost⟩ := h
      refine ⟨handled, ha, ?_, ?_⟩
      · dsimp only
        rw [hw]
        exact hfit
      · dsimp only
        rw [hw]
        exact hlost

theorem reachable_machine (h : (system C).Reachable w) :
    (Machine.system C).Reachable w.machine := by
  induction h with
  | init h => exact .init ⟨h.1, h.2.1⟩
  | @step w w' l hr hn ih =>
    have hn : w.next l = some w' := hn
    cases l with
    | pollWrite buf =>
      simp only [next, pollWrite] at hn
      rcases trySend_cases (w := w) (.sendData buf) with ht | ht | ht <;> rw [ht] at hn <;>
        cases hn <;> exact ih
    | pollShutdown =>
      simp only [next, pollShutdown] at hn
      rcases trySend_cases (w := w) .close with ht | ht | ht <;> rw [ht] at hn <;>
        cases hn <;> exact ih
    | migrate a n =>
      simp only [next] at hn
      rcases trySend_cases (w := w) (.migrate a n) with ht | ht | ht <;> rw [ht] at hn <;>
        cases hn <;> exact ih
    | machine l =>
      obtain ⟨m, hm, ⟨t, c, rest, rfl, -, rfl⟩ | ⟨-, rfl⟩⟩ := next_machine hn
      · exact ih.step hm
      · exact ih.step hm

theorem accounted (h : (system C).Reachable w) : w.Accounted := by
  have hinv : (system C).Invariant Accounted :=
    { init := fun w hw => ⟨w.accepted, by rw [queued, hw.2.2.1]; exact (List.append_nil _).symm,
        fun _ => hw.2.2.2.1, fun hf => by rw [hw.2.2.2.2] at hf; cases hf⟩
      step := fun w l w' _ hw hn => hw.step hn }
  exact hinv.holds h

/-- The accepted bytes are the payloads packetized so far in the order of their numbers, the bytes
in the send buffer and the bytes of the commands in the channel. -/
def NothingLost (w : Writer C) : Prop :=
  w.accepted =
    (w.machine.endpoint.history.numbered.filterMap Numbered.payload?).flatten ++
      w.machine.endpoint.reliability.sendBuffer.bytes ++ w.queued

/-- In every run no accepted byte is lost exactly when all data handled so far fit. -/
theorem nothingLost_iff (h : (system C).Reachable w)
    (hm : 1 ≤ w.machine.endpoint.reliability.config.connection.maxPayloadSize) :
    w.NothingLost ↔ w.fitted = true := by
  have hcons := Machine.conserved (reachable_machine h)
  obtain ⟨handled, ha, hfit, hlost⟩ := accounted h
  rw [NothingLost, ← hcons.packetized_eq, ← hcons.written_eq hm, ha, List.append_left_inj]
  constructor
  · intro he
    rw [← Bool.not_eq_false]
    intro hf
    have hlt := hlost hf
    rw [he] at hlt
    exact absurd hlt (lt_irrefl _)
  · exact hfit

section Sample

open Machine

/-- A client opens a connection and writes two bytes. -/
def writeRun : List WriterLabel :=
  [.machine (.begin (tick 0)), .machine (.frame (tick 1) (.newSynAck 1 2 1) 80),
    .machine (.followUp (tick 1)), .pollWrite [7, 8],
    .machine (.command (tick 2) (.sendData [7, 8]))]

/-- A client with the given room in its send buffer. -/
def clientWith (capacity : ℕ) : Writer Vegas :=
  let config : Config :=
    { tinyConfig with connection := { maxPayloadSize := 1, sendBufferCapacityBytes := capacity } }
  ⟨⟨Endpoint.newClient config 80 1 (Vegas.new config) none (tick 0), .created⟩, [], [], true⟩

theorem clientWith_created (capacity : ℕ) : (system Vegas).init (clientWith capacity) :=
  ⟨rfl, .client _ 80 1 _ none (tick 0), rfl, rfl, rfl⟩

instance (w : Writer C) : Decidable w.NothingLost :=
  inferInstanceAs (Decidable (_ = _))

/-- With room for two bytes, a write of two bytes is kept. -/
theorem nothingLost_iff_sample : ∃ w : Writer Vegas,
    w.accepted = [7, 8] ∧ (w.NothingLost ↔ w.fitted = true) := by
  obtain ⟨w, hr, ha, hm⟩ : ∃ w, (system Vegas).Run writeRun w ∧
      w.accepted = [7, 8] ∧
        1 ≤ w.machine.endpoint.reliability.config.connection.maxPayloadSize :=
    TransitionSystem.exists_run_of_foldlM (s := clientWith 2) _ (clientWith_created 2) (by decide)
  exact ⟨w, ha, nothingLost_iff hr.reachable hm⟩

/-- With room for one, the second byte is lost although the write reported both. -/
theorem write_loses_byte : ∃ w : Writer Vegas, (system Vegas).Reachable w ∧
    w.machine.phase = .commands ∧ w.accepted = [7, 8] ∧ ¬ w.NothingLost := by
  obtain ⟨w, hr, hp⟩ : ∃ w, (system Vegas).Run writeRun w ∧
      w.machine.phase = .commands ∧ w.accepted = [7, 8] ∧ ¬ w.NothingLost :=
    TransitionSystem.exists_run_of_foldlM (s := clientWith 1) _ (clientWith_created 1) (by decide)
  exact ⟨w, hr.reachable, hp⟩

end Sample

end Writer

end Kestrel
