import Kestrel.Endpoint.Reader
import Kestrel.Endpoint.Writer
import Kestrel.Socket.Udp
import Kestrel.Stream.Delivery

/-! # Sessions

Two hosts with everything between their users: the user writes into a channel from which the event
loop takes commands, the datagrams of the loop go through a transport as bytes, the network brings
them to the other transport, their frames wait for the event loop there, and what is reassembled
waits for the user's reads. Whatever a session does, a link can do.
-/

namespace Kestrel

open UdpTransport

def UdpTransportCommand.batch? : UdpTransportCommand → Option FrameBatch
  | .send batch => some batch
  | .getLocalAddr | .rebind _ => none

/-- An endpoint with the writing and the reading half of its user's stream and its transport, the
datagrams it has put on the network, and the frames that were dispatched to it, each with the
address it came from. -/
structure Host (C : Type) where
  writer : Writer C
  reading : ReadRun
  transport : UdpTransport
  flying : List UdpDatagram
  inbox : List (Frame × SocketAddr)

/-- What can happen at a host: the user writes, shuts down, migrates or reads; the transport is given
a command, acts, receives one of the datagrams on their way, perhaps with translated addresses, fails
to, or stops; the frames of a datagram are dispatched, or one of them is not; and the event loop goes
on. -/
inductive HostEvent where
  | user (l : WriterLabel)
  | pollRead (remaining : ℕ)
  | submit (command : UdpTransportCommand)
  | act (result : Except Error SocketAddr)
  | deliver (i : ℕ) (source destination : SocketAddr)
  | receiveError
  | shutdown
  | recvFrames
  | drop
  | step (l : Label)

/-- The random number of a step has its width. -/
def HostEvent.Typed : HostEvent → Prop
  | .step l => ∀ t, l.tick? = some t → t.challenge < 256 ^ 8
  | _ => True

/-- The step that the event loop takes. -/
def HostEvent.label? : HostEvent → Option Label
  | .step l => some l
  | _ => none

namespace Host

variable {C : Type} [CongestionControl C] (h : Host C)

def endpoint : Endpoint C := h.writer.machine.endpoint

/-- What the loop has handed over goes into the channel to the user. -/
def feed (batches : List (List Bytes)) (ended : Bool) (r : ReadRun) : ReadRun :=
  { r with
    reader := { r.reader with
      rxFromEndpoint := r.reader.rxFromEndpoint ++ batches
      closed := r.reader.closed || ended }
    delivered := r.delivered ++ batches.flatten.flatten }

/-- A step of the event loop. -/
def run (l : Label) : Option (Host C) :=
  (h.writer.next (.machine l)).map fun w =>
    { h with
      writer := w
      reading := feed (w.machine.endpoint.toStream.drop h.endpoint.toStream.length)
        (!w.machine.endpoint.txToStream || w.isClosed) h.reading }

/-- The frames that the event loop takes are those that wait, in their order. -/
def step : Label → Option (Host C)
  | .frame t f a =>
    match h.inbox with
    | [] => none
    | i :: rest => if i = (f, a) then run { h with inbox := rest } (.frame t f a) else none
  | l => h.run l

def next (arriving : List UdpDatagram) : HostEvent → Option (Host C)
  | .user (.machine _) => none
  | .user l => (h.writer.next l).map fun w => { h with writer := w }
  | .pollRead remaining => (h.reading.next (.pollRead remaining)).map fun r => { h with reading := r }
  | .submit command =>
    if ∀ b ∈ command.batch?, b ∈ h.endpoint.sent then
      (h.transport.submit command).map fun t => { h with transport := t }
    else none
  | .act result =>
    (h.transport.act result).map fun r =>
      { h with transport := r.1, flying := h.flying ++ r.2.toList }
  | .deliver i source destination =>
    arriving[i]?.bind fun d =>
      (h.transport.receive ⟨source, destination, d.payload⟩).map fun t => { h with transport := t }
  | .receiveError => h.transport.receiveError.map fun t => { h with transport := t }
  | .shutdown => some { h with transport := h.transport.shutdown }
  | .recvFrames =>
    h.transport.datagrams.head?.bind fun d => h.transport.recvFrames.map fun t =>
      { h with transport := t, inbox := h.inbox ++ d.frames.map fun f => (f, d.remoteAddr) }
  | .drop => if h.inbox = [] then none else some { h with inbox := h.inbox.tail }
  | .step l => h.step l

/-- A new endpoint with a new stream and a new transport. -/
structure Created (h : Host C) : Prop where
  writer : (Writer.system C).init h.writer
  identified : h.endpoint.Identified
  reading : h.reading = ⟨⟨[], [], false⟩, [], []⟩
  transport : ∃ addr, h.transport = .fromSocket addr
  flying : h.flying = []
  inbox : h.inbox = []

end Host

namespace UdpTransport

variable {t t' : UdpTransport}

/-- What the actor does to a transport, whatever it is given to send. -/
theorem act_facts {result : Except Error SocketAddr} {d : Option UdpDatagram}
    (h : t.act result = some (t', d)) : t'.datagrams = t.datagrams ∧ t'.commands ⊆ t.commands ∧
      ∀ x ∈ d, ∃ b, .send b ∈ t.commands ∧ serializeFrames b.frames = some x.payload := by
  unfold act at h
  split at h
  · cases h
  · rename_i batch rest hc
    have hrest : rest ⊆ t.commands := by
      rw [hc]
      exact List.subset_cons_self _ _
    rw [Option.some.injEq, handleSend] at h
    split at h
    · cases h
      exact ⟨rfl, hrest, by simp⟩
    · split at h
      · cases h
        exact ⟨rfl, List.nil_subset _, by simp⟩
      · rename_i buffer hb
        split at h
        · cases h
          exact ⟨rfl, hrest, by simp⟩
        · cases h
          refine ⟨rfl, hrest, ?_⟩
          rintro x ⟨⟩
          exact ⟨batch, by rw [hc]; exact List.mem_cons_self, hb⟩
  · rename_i rest hc
    cases h
    refine ⟨rfl, ?_, by simp⟩
    rw [hc]
    exact List.subset_cons_self _ _
  · rename_i newAddr rest hc
    have hrest : rest ⊆ t.commands := by
      rw [hc]
      exact List.subset_cons_self _ _
    cases result <;> cases h <;> exact ⟨rfl, hrest, by simp⟩

end UdpTransport

namespace Writer

variable {C : Type} [CongestionControl C] {w w' : Writer C} {l : WriterLabel}

theorem machine_of_next (hl : ∀ k, l ≠ .machine k) (hn : w.next l = some w') :
    w'.machine = w.machine := by
  have hsame (c : StreamCommand) : (w.trySend c).2.machine = w.machine := by
    rcases trySend_cases (w := w) c with h | h | h <;> rw [h]
  cases l with
  | machine k => exact absurd rfl (hl k)
  | pollShutdown =>
    cases hn
    exact hsame .close
  | pollWrite buf =>
    have hs := hsame (.sendData buf)
    simp only [next, pollWrite] at hn
    rcases trySend_cases (w := w) (.sendData buf) with h | h | h <;> rw [h] at hn hs <;> cases hn <;>
      exact hs
  | migrate a n =>
    have hs := hsame (.migrate a n)
    simp only [next] at hn
    rcases trySend_cases (w := w) (.migrate a n) with h | h | h <;> rw [h] at hn hs <;> cases hn <;>
      exact hs

/-- What was written is what was accepted and is no longer queued, but for what did not fit. -/
def Thinned (w : Writer C) : Prop :=
  ∃ handled, w.accepted = handled ++ w.queued ∧ w.machine.endpoint.history.written.Sublist handled

omit [CongestionControl C] in
theorem Thinned.trySend (h : w.Thinned) {c : StreamCommand} (hc : c.data = []) :
    (w.trySend c).2.Thinned := by
  rcases trySend_cases (w := w) c with ht | ht | ht <;> rw [ht]
  · exact h
  · exact h
  · obtain ⟨handled, ha, hsub⟩ := h
    refine ⟨handled, ?_, hsub⟩
    rw [queued_append, hc, List.append_nil]
    exact ha

theorem Thinned.step (h : w.Thinned) (hn : w.next l = some w') : w'.Thinned := by
  cases l with
  | pollWrite buf =>
    simp only [next, Writer.pollWrite] at hn
    rcases trySend_cases (w := w) (.sendData buf) with ht | ht | ht <;> rw [ht] at hn <;> cases hn
    · exact h
    · exact h
    · obtain ⟨handled, ha, hsub⟩ := h
      refine ⟨handled, ?_, hsub⟩
      dsimp only
      rw [List.take_length, ha, List.append_assoc]
      exact congrArg (handled ++ ·) (queued_append w (.sendData buf)).symm
  | pollShutdown =>
    cases hn
    exact h.trySend rfl
  | migrate a n =>
    have ht := h.trySend (c := .migrate a n) rfl
    simp only [next] at hn
    rcases trySend_cases (w := w) (.migrate a n) with he | he | he <;> rw [he] at hn ht <;>
      cases hn <;> exact ht
  | machine l =>
    obtain ⟨handled, ha, hsub⟩ := h
    obtain ⟨m, hm, ⟨t, c, rest, rfl, hc, rfl⟩ | ⟨ht, rfl⟩⟩ := next_machine hn
    · refine ⟨handled ++ c.data, ?_, ?_⟩
      · dsimp only
        rw [ha, queued, hc, List.flatMap_cons, List.append_assoc]
        rfl
      · dsimp only
        rw [Machine.written_of_next hm]
        exact hsub.append (List.take_sublist _ _)
    · refine ⟨handled, ha, ?_⟩
      dsimp only
      rwa [Machine.written_of_next hm, ht, List.append_nil]

theorem thinned (h : (system C).Reachable w) : w.Thinned := by
  have hinv : (system C).Invariant Thinned :=
    { init := fun w hw => ⟨w.accepted, by rw [queued, hw.2.2.1]; exact (List.append_nil _).symm,
        by rw [hw.2.2.2.1]⟩
      step := fun w l w' _ hw hn => hw.step hn }
  exact hinv.holds h

end Writer

namespace Reader

variable {remaining : ℕ} {readBuffer : List Bytes} {rx : List (List Bytes)} {c : Bytes}

theorem mem_takeFront (h : c ∈ (takeFront remaining readBuffer).2) : c ∈ readBuffer ∨ c ≠ [] := by
  cases readBuffer with
  | nil => cases h
  | cons chunk rest =>
    rw [takeFront] at h
    dsimp only at h
    split at h
    · exact Or.inl (List.mem_cons_of_mem _ h)
    · rename_i hne
      rcases List.mem_cons.mp h with rfl | h
      · exact Or.inr fun hnil => hne (List.isEmpty_iff.mpr hnil)
      · exact Or.inl (List.mem_cons_of_mem _ h)

theorem mem_pollLoop {closed : Bool}
    (h : c ∈ (pollLoop remaining closed readBuffer rx).2.1 ++
      (pollLoop remaining closed readBuffer rx).2.2.flatten) :
    c ∈ readBuffer ++ rx.flatten ∨ c ≠ [] := by
  induction rx generalizing readBuffer with
  | nil =>
    by_cases hf : (takeFront remaining readBuffer).1 = []
    · rw [pollLoop_nil_of_nil hf] at h
      exact (mem_takeFront (by simpa using h)).imp_left (by simp)
    · rw [pollLoop_of_ne_nil hf] at h
      exact (mem_takeFront (by simpa using h)).imp_left (by simp)
  | cons batch rx ih =>
    by_cases hf : (takeFront remaining readBuffer).1 = []
    · rw [pollLoop_cons_of_nil hf] at h
      rcases ih h with h | h
      · rw [List.append_assoc, List.mem_append] at h
        rcases h with h | h
        · exact (mem_takeFront h).imp_left (List.mem_append_left _)
        · exact Or.inl (List.mem_append_right _ (by simpa using h))
      · exact Or.inr h
    · rw [pollLoop_of_ne_nil hf] at h
      rcases List.mem_append.mp h with h | h
      · exact (mem_takeFront h).imp_left (List.mem_append_left _)
      · exact Or.inl (List.mem_append_right _ h)

theorem mem_chunks_pollRead {r : Reader} (h : c ∈ (r.pollRead remaining).2.chunks) :
    c ∈ r.chunks ∨ c ≠ [] :=
  mem_pollLoop h

end Reader

namespace Machine

open Endpoint

variable {C : Type} [CongestionControl C] {m m' : Machine C} {l : Label}

theorem held_of_next (h : m.next l = some m') (he : m'.endpoint.txToStream = true) :
    m.endpoint.txToStream = true := by
  rcases acts_of_next h with ⟨t, -, ha⟩ | ⟨id, now, -, rfl⟩ | ⟨id, -, rfl⟩
  · have hopen : (m.opening l).txToStream = true → m.endpoint.txToStream = true := by
      cases l with
      | followUp t => exact fun hx => (deliver_stream hx).1
      | _ => exact id
    have hback := ha.preserves
      (P := fun e => e.txToStream = true → (m.opening l).txToStream = true)
      (fun e e' he ha hx => he (ha.held hx)) id
    exact hopen (hback he)
  · exact he
  · exact he

theorem phase_of_next (h : m.next l = some m')
    (hp : m.phase = .finished ∨ ∃ err, m.phase = .failed err) : m'.phase = m.phase := by
  have hstuck (p : Phase) (hw : m.phase = p) (hne : p ≠ .finished ∧ ∀ err, p ≠ .failed err) :
      m'.phase = m.phase := by
    rcases hp with hp | ⟨err, hp⟩
    · exact absurd (hw.symm.trans hp) hne.1
    · exact absurd (hw.symm.trans hp) (hne.2 err)
  cases l with
  | begin t | poll t =>
    simp only [next, Option.ite_none_right_eq_some] at h
    exact hstuck _ h.1 ⟨by simp, by simp⟩
  | frame t f a | command t c =>
    simp only [next, Option.ite_none_right_eq_some] at h
    rcases h.1 with hw | hw
    · exact hstuck _ hw ⟨by simp, by simp⟩
    · exact hstuck _ hw ⟨by simp, by simp⟩
  | followUp t =>
    simp only [next, Option.ite_none_right_eq_some] at h
    rcases h.1 with hw | hw | hw
    · exact hstuck _ hw ⟨by simp, by simp⟩
    · exact hstuck _ hw ⟨by simp, by simp⟩
    · exact hstuck _ hw ⟨by simp, by simp⟩
  | fire id now | dropReplaced id =>
    simp only [next, Option.some.injEq] at h
    rw [← h]
    rfl

theorem toStream_mono (h : m.next l = some m') : m.endpoint.toStream <+: m'.endpoint.toStream := by
  rcases acts_of_next h with ⟨t, -, ha⟩ | ⟨id, now, -, rfl⟩ | ⟨id, -, rfl⟩
  · have hopen : m.endpoint.toStream <+: (m.opening l).toStream := by
      cases l with
      | followUp t =>
        change _ <+: (m.endpoint.deliver t).2.toStream
        unfold Endpoint.deliver
        dsimp only
        split
        · exact List.prefix_rfl
        · split
          · exact List.prefix_append _ _
          · exact List.prefix_rfl
      | _ => exact List.prefix_rfl
    exact ha.preserves (P := fun e => m.endpoint.toStream <+: e.toStream)
      (fun e e' he ha => by rwa [ha.toStream_eq]) hopen
  · exact List.prefix_rfl
  · exact List.prefix_rfl

end Machine

theorem Writer.isClosed_of_next {C : Type} [CongestionControl C] {w w' : Writer C} {l : Label}
    (hm : w.machine.next l = some w'.machine) (h : w.isClosed = true) : w'.isClosed = true := by
  have hp : w.machine.phase = .finished ∨ ∃ err, w.machine.phase = .failed err := by
    unfold isClosed at h
    split at h
    · exact Or.inl ‹_›
    · exact Or.inr ⟨_, ‹_›⟩
    · cases h
  rw [isClosed, Machine.phase_of_next hm hp]
  exact h

namespace Endpoint

variable {C : Type} {e : Endpoint C} {own : Identity}

theorem Created.toStream (h : e.Created) : e.toStream = [] := by
  cases h with
  | client config remoteAddr localCid cc initialData t => cases initialData <;> rfl
  | server config remoteAddr localCid peerCid cc t => rfl

/-- The bytes are those of a datagram that the endpoint has sent. -/
def Wrote (e : Endpoint C) (payload : Bytes) : Prop :=
  ∃ b ∈ e.sent, serializeFrames b.frames = some payload

theorem Plain.read (h : e.Plain own) {payload : Bytes} (hw : e.Wrote payload) (n : ℕ) :
    ∀ f ∈ deserializeFrames (payload.take n), f ∈ e.framesSent ∧ f.Fits := by
  obtain ⟨b, hb, hs⟩ := hw
  have hmem : ∀ f ∈ b.frames, f ∈ e.framesSent := fun f hf => List.mem_flatMap.mpr ⟨b, hb, hf⟩
  have hwf : ∀ f ∈ b.frames, f.WellFormed := fun f hf =>
    (h.sent f (hmem f hf)).wellFormed (exists_serializeFrames_iff.mp ⟨payload, hs⟩ f hf)
  rw [serializeFrames_of_wellFormed hwf] at hs
  cases hs
  rw [deserializeFrames_take hwf]
  intro f hf
  have hf := List.mem_of_mem_take hf
  exact ⟨hmem f hf, (hwf f hf).fits⟩

end Endpoint

namespace Host

variable {C : Type} [CongestionControl C] {h h' : Host C} {peer more : List Frame}

/-- What holds of a host between two steps, if the other one has sent the given frames. -/
structure Sound (peer : List Frame) (h : Host C) : Prop where
  writer : (Writer.system C).Reachable h.writer
  plain : h.endpoint.Plain h.endpoint.identity
  reading : h.reading.returned ++ h.reading.reader.undelivered =
    h.endpoint.toStream.flatten.flatten
  chunks : ∀ c ∈ h.reading.reader.chunks, c ∈ h.endpoint.toStream.flatten ∨ c ≠ []
  closed : h.reading.reader.closed = true →
    h.endpoint.txToStream = false ∨ h.writer.isClosed = true
  commands : ∀ b, .send b ∈ h.transport.commands → b ∈ h.endpoint.sent
  flying : ∀ d ∈ h.flying, h.endpoint.Wrote d.payload
  datagrams : ∀ d ∈ h.transport.datagrams, ∀ f ∈ d.frames, f ∈ peer ∧ f.Fits
  inbox : ∀ i ∈ h.inbox, i.1 ∈ peer ∧ i.1.Fits

theorem sound_created (hc : h.Created) (peer : List Frame) : h.Sound peer := by
  obtain ⟨hw, hi, hr, ⟨addr, ht⟩, hf, hin⟩ := hc
  refine ⟨.init hw, Endpoint.plain_created hw.2.1 hi (fun _ hc => hc) hi.peerCid, ?_, ?_, ?_, ?_,
    ?_, ?_, ?_⟩
  · rw [hr, endpoint, hw.2.1.toStream]
    rfl
  · simp [hr, Reader.chunks]
  · simp [hr]
  · simp [ht, fromSocket]
  · simp [hf]
  · simp [ht, fromSocket]
  · simp [hin]

theorem Sound.mono (hs : h.Sound peer) (hp : peer ⊆ more) : h.Sound more :=
  { hs with
    datagrams := fun d hd f hf => ⟨hp (hs.datagrams d hd f hf).1, (hs.datagrams d hd f hf).2⟩
    inbox := fun i hi => ⟨hp (hs.inbox i hi).1, (hs.inbox i hi).2⟩ }

/-- A step of the event loop that has its widths and takes frames of the other host only. -/
theorem Sound.run {l : Label} (hs : h.Sound peer) (hl : l.Typed) (hn : h.run l = some h') :
    h'.Sound peer ∧ h.writer.machine.next l = some h'.writer.machine := by
  obtain ⟨w, hw, rfl⟩ := Option.map_eq_some_iff.mp hn
  obtain ⟨m, hm, hcases⟩ := Writer.next_machine hw
  have hmachine : w.machine = m := by
    rcases hcases with ⟨t, c, rest, -, -, rfl⟩ | ⟨-, rfl⟩
    · rfl
    · rfl
  have hsent : h.endpoint.sent <+: w.machine.endpoint.sent := by
    rw [hmachine]
    exact Machine.sent_mono hm
  refine ⟨⟨hs.writer.step hw, ?_, ?_, ?_, ?_, ?_, ?_, hs.datagrams, hs.inbox⟩,
    by rw [hm, ← hmachine]⟩
  · have hp := Machine.plain_of_next hs.plain hl hm
    change w.machine.endpoint.Plain w.machine.endpoint.identity
    rwa [hmachine]
  · obtain ⟨new, hnew⟩ := Machine.toStream_mono hm
    have hread := hs.reading
    have hlast : w.machine.endpoint.toStream = h.endpoint.toStream ++ new := by
      rw [hmachine]
      exact hnew.symm
    change h.reading.returned ++ (h.reading.reader.readBuffer ++
      (h.reading.reader.rxFromEndpoint ++
        w.machine.endpoint.toStream.drop h.endpoint.toStream.length).flatten).flatten =
      w.machine.endpoint.toStream.flatten.flatten
    rw [Reader.undelivered, Reader.chunks] at hread
    rw [hlast, List.drop_left]
    simp only [List.flatten_append, ← List.append_assoc] at hread ⊢
    rw [hread]
  · obtain ⟨new, hnew⟩ := Machine.toStream_mono hm
    have hlast : w.machine.endpoint.toStream = h.endpoint.toStream ++ new := by
      rw [hmachine]
      exact hnew.symm
    intro c hc
    change c ∈ h.reading.reader.readBuffer ++ (h.reading.reader.rxFromEndpoint ++
      w.machine.endpoint.toStream.drop h.endpoint.toStream.length).flatten at hc
    change c ∈ w.machine.endpoint.toStream.flatten ∨ c ≠ []
    rw [hlast, List.drop_left, List.flatten_append, ← List.append_assoc, List.mem_append] at hc
    rw [hlast, List.flatten_append, List.mem_append]
    rcases hc with hc | hc
    · exact (hs.chunks c hc).imp_left Or.inl
    · exact Or.inl (Or.inr hc)
  · intro hc
    change (h.reading.reader.closed ||
      (!w.machine.endpoint.txToStream || w.isClosed)) = true at hc
    change w.machine.endpoint.txToStream = false ∨ w.isClosed = true
    rw [Bool.or_eq_true, Bool.or_eq_true, Bool.not_eq_true'] at hc
    rcases hc with hc | hc
    · have hnext : h.writer.machine.next l = some w.machine := by rw [hm, hmachine]
      rcases hs.closed hc with he | he
      · rw [← Bool.not_eq_true] at he ⊢
        exact Or.inl fun hx => he (Machine.held_of_next hnext hx)
      · exact Or.inr (Writer.isClosed_of_next hnext he)
    · exact hc
  · exact fun b hb => hsent.subset (hs.commands b hb)
  · intro d hd
    obtain ⟨b, hb, hd⟩ := hs.flying d hd
    exact ⟨b, hsent.subset hb, hd⟩

/-- What an event at a host does to its endpoint: nothing, or a step that takes at most a frame of
the other host. -/
structure Moves (peer : List Frame) (e : HostEvent) (h h' : Host C) : Prop where
  stay : e.label? = none → h'.writer.machine = h.writer.machine
  step : ∀ l ∈ e.label?, l.Typed ∧ (∀ f ∈ l.frame?, f ∈ peer) ∧
    h.writer.machine.next l = some h'.writer.machine

theorem Moves.of_eq {e : HostEvent} (he : e.label? = none)
    (hm : h'.writer.machine = h.writer.machine) : h.Moves peer e h' :=
  ⟨fun _ => hm, fun l hl => by rw [he] at hl; cases hl⟩

theorem Moves.of_next {l : Label} (hl : l.Typed) (hf : ∀ f ∈ l.frame?, f ∈ peer)
    (hm : h.writer.machine.next l = some h'.writer.machine) : h.Moves peer (.step l) h' where
  stay he := by cases he
  step := by
    rintro l ⟨⟩
    exact ⟨hl, hf, hm⟩

theorem Sound.step {l : Label} (hs : h.Sound peer) (ht : (HostEvent.step l).Typed)
    (hn : h.step l = some h') : h'.Sound peer ∧ h.Moves peer (.step l) h' := by
  have hother (hf : l.frame? = none) (hfits : l.FrameFits) (hn : h.run l = some h') :
      h'.Sound peer ∧ h.Moves peer (.step l) h' := by
    obtain ⟨hs', hm⟩ := hs.run ⟨hfits, ht⟩ hn
    exact ⟨hs', .of_next ⟨hfits, ht⟩ (by simp [hf]) hm⟩
  cases l with
  | frame t f a =>
    rw [Host.step] at hn
    split at hn
    · cases hn
    · rename_i i rest hi
      simp only [Option.ite_none_right_eq_some] at hn
      obtain ⟨rfl, hn⟩ := hn
      obtain ⟨hmem, hfits⟩ := hs.inbox (f, a) (by rw [hi]; exact List.mem_cons_self)
      have hrest : Sound peer { h with inbox := rest } :=
        { hs with inbox := fun i hm => hs.inbox i (by rw [hi]; exact List.mem_cons_of_mem _ hm) }
      have hl : (Label.frame t f a).Typed := ⟨hfits, ht⟩
      obtain ⟨hs', hm⟩ := hrest.run hl hn
      exact ⟨hs', .of_next hl (by simpa [Label.frame?] using hmem) hm⟩
  | _ => exact hother rfl trivial hn

theorem Sound.next {arriving : List UdpDatagram} {e : HostEvent} (hs : h.Sound peer)
    (harr : ∀ d ∈ arriving, ∀ n, ∀ f ∈ deserializeFrames (d.payload.take n), f ∈ peer ∧ f.Fits)
    (ht : e.Typed) (hn : h.next arriving e = some h') : h'.Sound peer ∧ h.Moves peer e h' := by
  cases e with
  | user l =>
    have huser (hl : ∀ k, l ≠ .machine k)
        (hn : (h.writer.next l).map (fun w => { h with writer := w }) = some h') :
        h'.Sound peer ∧ h.Moves peer (.user l) h' := by
      obtain ⟨w, hw, rfl⟩ := Option.map_eq_some_iff.mp hn
      have hm := Writer.machine_of_next hl hw
      have he : w.machine.endpoint = h.endpoint := congrArg Machine.endpoint hm
      refine ⟨⟨hs.writer.step hw, ?_, ?_, ?_, ?_, ?_, ?_, hs.datagrams, hs.inbox⟩,
        .of_eq rfl hm⟩
      · change w.machine.endpoint.Plain w.machine.endpoint.identity
        rw [he]
        exact hs.plain
      · exact hs.reading.trans (congrArg (·.toStream.flatten.flatten) he.symm)
      · exact fun c hc => congrArg Endpoint.toStream he ▸ hs.chunks c hc
      · intro hc
        change w.machine.endpoint.txToStream = false ∨ w.isClosed = true
        rw [he, Writer.isClosed, hm]
        exact hs.closed hc
      · exact fun b hb => congrArg Endpoint.sent he ▸ hs.commands b hb
      · exact fun d hd => by
          change w.machine.endpoint.Wrote d.payload
          rw [he]
          exact hs.flying d hd
    cases l with
    | machine k => cases hn
    | _ => exact huser (by simp) hn
  | pollRead remaining =>
    obtain ⟨r, hr, rfl⟩ := Option.map_eq_some_iff.mp hn
    simp only [ReadRun.next, Option.ite_none_right_eq_some, Option.some.injEq] at hr
    obtain ⟨-, rfl⟩ := hr
    refine ⟨{ hs with reading := ?_, chunks := fun c hc => ?_ }, .of_eq rfl rfl⟩
    · dsimp only
      rw [List.append_assoc, Reader.pollRead_fifo]
      exact hs.reading
    · rcases Reader.mem_chunks_pollRead hc with hc | hc
      · exact hs.chunks c hc
      · exact Or.inr hc
  | submit command =>
    simp only [Host.next, Option.ite_none_right_eq_some] at hn
    obtain ⟨hb, hn⟩ := hn
    obtain ⟨t, hsub, rfl⟩ := Option.map_eq_some_iff.mp hn
    simp only [UdpTransport.submit, Option.ite_none_right_eq_some, Option.some.injEq] at hsub
    obtain ⟨-, rfl⟩ := hsub
    refine ⟨{ hs with commands := fun b hm => ?_ }, .of_eq rfl rfl⟩
    rcases List.mem_append.mp hm with hm | hm
    · exact hs.commands b hm
    · rw [← List.mem_singleton.mp hm] at hb
      exact hb b rfl
  | act result =>
    obtain ⟨⟨t, d⟩, hact, rfl⟩ := Option.map_eq_some_iff.mp hn
    obtain ⟨hdata, hcom, hemit⟩ := act_facts hact
    refine ⟨{ hs with
      commands := fun b hb => hs.commands b (hcom hb)
      flying := fun x hx => ?_
      datagrams := by rw [hdata]; exact hs.datagrams }, .of_eq rfl rfl⟩
    rcases List.mem_append.mp hx with hx | hx
    · exact hs.flying x hx
    · obtain ⟨b, hb, hw⟩ := hemit x (by simpa using hx)
      exact ⟨b, hs.commands b hb, hw⟩
  | deliver i source destination =>
    obtain ⟨d, hd, hn⟩ := Option.bind_eq_some_iff.mp hn
    obtain ⟨t, hrec, rfl⟩ := Option.map_eq_some_iff.mp hn
    simp only [UdpTransport.receive, Option.ite_none_right_eq_some, Option.some.injEq] at hrec
    obtain ⟨-, rfl⟩ := hrec
    refine ⟨{ hs with datagrams := fun x hx => ?_ }, .of_eq rfl rfl⟩
    dsimp only at hx
    split at hx
    · rcases List.mem_append.mp hx with hx | hx
      · exact hs.datagrams x hx
      · rw [List.mem_singleton.mp hx]
        exact harr d (List.mem_of_getElem? hd) recvBufferSize
    · exact hs.datagrams x hx
  | receiveError =>
    obtain ⟨t, hrec, rfl⟩ := Option.map_eq_some_iff.mp hn
    simp only [UdpTransport.receiveError, Option.ite_none_right_eq_some, Option.some.injEq] at hrec
    obtain ⟨-, rfl⟩ := hrec
    exact ⟨{ hs with }, .of_eq rfl rfl⟩
  | shutdown =>
    cases hn
    exact ⟨{ hs with }, .of_eq rfl rfl⟩
  | recvFrames =>
    obtain ⟨d, hd, hn⟩ := Option.bind_eq_some_iff.mp hn
    obtain ⟨t, hrec, rfl⟩ := Option.map_eq_some_iff.mp hn
    obtain ⟨rest, hcons⟩ := List.head?_eq_some_iff.mp hd
    have hmem := hs.datagrams
    simp only [UdpTransport.recvFrames, hcons, Option.some.injEq] at hrec
    subst hrec
    rw [hcons, List.forall_mem_cons] at hmem
    refine ⟨{ hs with datagrams := hmem.2, inbox := fun i hi => ?_ }, .of_eq rfl rfl⟩
    rcases List.mem_append.mp hi with hi | hi
    · exact hs.inbox i hi
    · obtain ⟨f, hf, rfl⟩ := List.mem_map.mp hi
      exact hmem.1 f hf
  | drop =>
    simp only [Host.next, Option.ite_none_left_eq_some, Option.some.injEq] at hn
    obtain ⟨-, rfl⟩ := hn
    exact ⟨{ hs with inbox := fun i hi => hs.inbox i (List.mem_of_mem_tail hi) }, .of_eq rfl rfl⟩
  | step l => exact hs.step ht hn

theorem Moves.framesSent {e : HostEvent} (hm : h.Moves peer e h') :
    h.endpoint.framesSent ⊆ h'.endpoint.framesSent := by
  cases hl : e.label? with
  | none =>
    rw [endpoint, endpoint, hm.stay hl]
    exact List.Subset.refl _
  | some l => exact Endpoint.framesSent_subset (Machine.sent_mono (hm.step l hl).2.2)

end Host

structure Session (S R : Type) where
  sender : Host S
  receiver : Host R

/-- The frame that arrives and the random number of a step have their widths. -/
def Link.Event.Typed : Link.Event → Prop
  | .sender l | .receiver l => l.Typed

namespace Session

/-- A step of either host. -/
inductive Event where
  | sender (e : HostEvent)
  | receiver (e : HostEvent)

def Event.Typed : Event → Prop
  | .sender e | .receiver e => e.Typed

/-- The step that an event loop takes. -/
def Event.link? : Event → Option Link.Event
  | .sender e => e.label?.map .sender
  | .receiver e => e.label?.map .receiver

/-- The user of one host was given, and will be given, what the user of the other one wrote: a first
part of the bytes that the loop has taken. As long as all of them fit into the send buffer, that is a
first part of the bytes whose write was accepted, and otherwise some of these are missing. -/
structure Transfers {S R : Type} (h : Host S) (h' : Host R) : Prop where
  written : h'.reading.returned ++ h'.reading.reader.undelivered <+: h.endpoint.history.written
  fitted : h.writer.fitted = true →
    h'.reading.returned ++ h'.reading.reader.undelivered <+: h.writer.accepted
  accepted : (h'.reading.returned ++ h'.reading.reader.undelivered).Sublist h.writer.accepted

variable {S R : Type} [CongestionControl S] [CongestionControl R] {x x' : Session S R}
  {y : Link S R}

/-- What either host has put on the network may come to the other one. -/
def next (x : Session S R) : Event → Option (Session S R)
  | .sender e => (x.sender.next x.receiver.flying e).map fun h => { x with sender := h }
  | .receiver e => (x.receiver.next x.sender.flying e).map fun h => { x with receiver := h }

structure Created (x : Session S R) : Prop where
  sender : x.sender.Created
  receiver : x.receiver.Created

def system (S R : Type) [CongestionControl S] [CongestionControl R] :
    TransitionSystem (Session S R) Event :=
  (TransitionSystem.ofNext Created fun x e => x.next e).restrict fun _ e _ => e.Typed

/-- The endpoints of a session are those of the link, and what is on its way between them was sent
by one of them. -/
structure Abstracts (x : Session S R) (y : Link S R) : Prop where
  sender : y.sender = x.sender.writer.machine
  receiver : y.receiver = x.receiver.writer.machine
  soundSender : x.sender.Sound x.receiver.endpoint.framesSent
  soundReceiver : x.receiver.Sound x.sender.endpoint.framesSent

/-- A host takes from the network only frames that the other one has sent. -/
theorem arriving {h : Host S} {peer : List Frame} (hs : h.Sound peer) :
    ∀ d ∈ h.flying, ∀ n, ∀ f ∈ deserializeFrames (d.payload.take n),
      f ∈ h.endpoint.framesSent ∧ f.Fits :=
  fun d hd => hs.plain.read (hs.flying d hd)

theorem Abstracts.sender_next {e : HostEvent} {h : Host S} (hxy : Abstracts x y) (ht : e.Typed)
    (hn : x.sender.next x.receiver.flying e = some h) :
    h.Sound x.receiver.endpoint.framesSent ∧ x.receiver.Sound h.endpoint.framesSent ∧
      x.sender.Moves x.receiver.endpoint.framesSent e h := by
  obtain ⟨hsound, hm⟩ := hxy.soundSender.next (arriving hxy.soundReceiver) ht hn
  exact ⟨hsound, hxy.soundReceiver.mono hm.framesSent, hm⟩

theorem Abstracts.receiver_next {e : HostEvent} {h : Host R} (hxy : Abstracts x y) (ht : e.Typed)
    (hn : x.receiver.next x.sender.flying e = some h) :
    h.Sound x.sender.endpoint.framesSent ∧ x.sender.Sound h.endpoint.framesSent ∧
      x.receiver.Moves x.sender.endpoint.framesSent e h := by
  obtain ⟨hsound, hm⟩ := hxy.soundReceiver.next (arriving hxy.soundSender) ht hn
  exact ⟨hsound, hxy.soundSender.mono hm.framesSent, hm⟩

/-- Each event of a session is a step of the link, or leaves the endpoints as they are. -/
theorem follows :
    (system S R).Follows (Link.systemWith fun _ i => i.Typed) Event.link? Abstracts where
  init x hx := by
    have hs := hx.sender.writer
    have hr := hx.receiver.writer
    exact ⟨⟨x.sender.writer.machine, x.receiver.writer.machine, [], []⟩,
      ⟨⟨hs.1, hs.2.1⟩, ⟨hr.1, hr.2.1⟩, rfl, rfl⟩, rfl, rfl, Host.sound_created hx.sender _,
      Host.sound_created hx.receiver _⟩
  stay x e x' y hxy hstep hl := by
    obtain ⟨hn, ht⟩ := hstep
    cases e with
    | sender e =>
      obtain ⟨h, hh, rfl⟩ := Option.map_eq_some_iff.mp hn
      obtain ⟨hs, hr, hm⟩ := hxy.sender_next ht hh
      exact ⟨hxy.sender.trans (hm.stay (Option.map_eq_none_iff.mp hl)).symm, hxy.receiver, hs, hr⟩
    | receiver e =>
      obtain ⟨h, hh, rfl⟩ := Option.map_eq_some_iff.mp hn
      obtain ⟨hr, hs, hm⟩ := hxy.receiver_next ht hh
      exact ⟨hxy.sender, hxy.receiver.trans (hm.stay (Option.map_eq_none_iff.mp hl)).symm, hs, hr⟩
  step x e x' y i hxy hstep hl := by
    obtain ⟨hn, ht⟩ := hstep
    cases e with
    | sender e =>
      obtain ⟨h, hh, rfl⟩ := Option.map_eq_some_iff.mp hn
      obtain ⟨l, hlabel, rfl⟩ := Option.map_eq_some_iff.mp hl
      obtain ⟨hs, hr, hm⟩ := hxy.sender_next ht hh
      obtain ⟨htyped, hframe, hm⟩ := hm.step l hlabel
      refine ⟨{ y with sender := h.writer.machine, toSender := y.toSender ++ l.frame?.toList },
        ⟨Link.next_sender.mpr ⟨?_, _, ?_, rfl⟩, htyped⟩, rfl, hxy.receiver, hs, hr⟩
      · rw [hxy.receiver]
        exact hframe
      · rw [hxy.sender, hm]
    | receiver e =>
      obtain ⟨h, hh, rfl⟩ := Option.map_eq_some_iff.mp hn
      obtain ⟨l, hlabel, rfl⟩ := Option.map_eq_some_iff.mp hl
      obtain ⟨hr, hs, hm⟩ := hxy.receiver_next ht hh
      obtain ⟨htyped, hframe, hm⟩ := hm.step l hlabel
      refine ⟨{ y with receiver := h.writer.machine, toReceiver := y.toReceiver ++ l.frame?.toList },
        ⟨Link.next_receiver.mpr ⟨?_, _, ?_, rfl⟩, htyped⟩, hxy.sender, rfl, hs, hr⟩
      · rw [hxy.sender]
        exact hframe
      · rw [hxy.receiver, hm]

/-- Whatever a session does, with bytes for frames and two transports between the endpoints, a link
does with the same steps of the event loops. -/
theorem refines_link {es : List Event} (h : (system S R).Run es x) :
    ∃ y, (Link.systemWith fun _ i => i.Typed).Run (es.filterMap Event.link?) y ∧
      y.sender = x.sender.writer.machine ∧ y.receiver = x.receiver.writer.machine := by
  obtain ⟨y, hy, hxy⟩ := follows.run h
  exact ⟨y, hy, hxy.sender, hxy.receiver⟩

theorem exists_abstracts (h : (system S R).Reachable x) :
    ∃ y, (Link.system S R).Reachable y ∧ Abstracts x y := by
  obtain ⟨es, hr⟩ := h.exists_run
  obtain ⟨y, hy, hxy⟩ := follows.run hr
  exact ⟨y, hy.reachable.of_restrict, hxy⟩

theorem transfers {h : Host S} {h' : Host R} {peer peer' : List Frame} (hs : h.Sound peer)
    (hs' : h'.Sound peer') (hin : Link.InSequence h.endpoint h'.endpoint)
    (hpos : 1 ≤ h.endpoint.reliability.config.connection.maxPayloadSize) : Transfers h h' := by
  have hwritten := hin.bytes hpos
  rw [← hs'.reading] at hwritten
  refine ⟨hwritten, fun hfit => ?_, ?_⟩
  · obtain ⟨handled, ha, hall, -⟩ := Writer.accounted hs.writer
    rw [ha, hall hfit]
    exact hwritten.trans (List.prefix_append _ _)
  · obtain ⟨handled, ha, hsub⟩ := Writer.thinned hs.writer
    rw [ha]
    exact (hwritten.sublist.trans hsub).trans (List.sublist_append_left _ _)

/-- In every run of a session each user reads what the other one wrote. -/
theorem read_was_written (h : (system S R).Reachable x) :
    (x.sender.endpoint.history.numbered.length < u32Size →
        1 ≤ x.sender.endpoint.reliability.config.connection.maxPayloadSize →
          Transfers x.sender x.receiver) ∧
      (x.receiver.endpoint.history.numbered.length < u32Size →
        1 ≤ x.receiver.endpoint.reliability.config.connection.maxPayloadSize →
          Transfers x.receiver x.sender) := by
  obtain ⟨⟨s, r, toReceiver, toSender⟩, hlink, rfl, rfl, hs, hr⟩ := exists_abstracts h
  exact ⟨fun hlen => transfers hs hr (Link.inSequence hlink hlen),
    fun hlen => transfers hr hs (Link.inSequence (Link.reachable_swap hlink) hlen)⟩

section Sample

open Machine Link

instance : DecidablePred HostEvent.Typed
  | .step l => inferInstanceAs (Decidable (∀ t ∈ l.tick?, t.challenge < 256 ^ 8))
  | .user _ | .pollRead _ | .submit _ | .act _ | .deliver .. | .receiveError | .shutdown
  | .recvFrames | .drop => isTrue trivial

instance : DecidablePred Event.Typed
  | .sender e | .receiver e => inferInstanceAs (Decidable e.Typed)

def hostOf (m : Machine Vegas) (addr : SocketAddr) : Host Vegas :=
  ⟨⟨m, [], m.endpoint.history.written, true⟩, ⟨⟨[], [], false⟩, [], []⟩, .fromSocket addr, [], []⟩

def tinySession : Session Vegas Vegas := ⟨hostOf tinyClient 81, hostOf (tinyServer 8) 80⟩

theorem tinySession_created : tinySession.Created where
  sender :=
    ⟨⟨rfl, tinyClient_created.2, rfl, rfl, rfl⟩, ⟨by decide, by decide, by decide⟩, rfl, ⟨81, rfl⟩,
      rfl, rfl⟩
  receiver :=
    ⟨⟨rfl, .server _ _ _ _ _ _, rfl, rfl, rfl⟩, ⟨by decide, by decide, by decide⟩, rfl, ⟨80, rfl⟩,
      rfl, rfl⟩

/-- A batch of the sender goes through both transports. -/
def toServer (batch : FrameBatch) (i : ℕ) : List Event :=
  [.sender (.submit (.send batch)), .sender (.act (.ok 81)), .receiver (.deliver i 81 80),
    .receiver .recvFrames]

def toClient (batch : FrameBatch) (i : ℕ) : List Event :=
  [.receiver (.submit (.send batch)), .receiver (.act (.ok 80)), .sender (.deliver i 80 81),
    .sender .recvFrames]

/-- The server accepts the client with a byte, and the client writes two, of which its loop cuts the
first into a packet. -/
def conversation : List Event :=
  [.sender (.step (.begin (tick 0))), .receiver (.step (.begin (tick 0)))] ++
    toServer ⟨80, [.newSyn 1 1 0]⟩ 0 ++
    [.receiver (.step (.frame (tick 1) (.newSyn 1 1 0) 81)),
      .receiver (.step (.followUp (tick 1))), .receiver (.user (.pollWrite [5])),
      .receiver (.step (.command (tick 2) (.sendData [5]))),
      .receiver (.step (.followUp (tick 2)))] ++
    toClient ⟨81, [.newSynAck 1 2 1, .newPush 1 0 0 8 0 [5]]⟩ 0 ++
    [.sender (.step (.frame (tick 3) (.newSynAck 1 2 1) 80)),
      .sender (.step (.frame (tick 3) (.newPush 1 0 0 8 0 [5]) 80)),
      .sender (.step (.followUp (tick 3))), .sender (.pollRead 10),
      .sender (.user (.pollWrite [7, 8])), .sender (.step (.command (tick 4) (.sendData [7, 8]))),
      .sender (.step (.followUp (tick 4)))] ++
    toServer ⟨80, [.newPush 2 0 1 256 0 [7]]⟩ 1 ++
    [.receiver (.step (.frame (tick 5) (.newPush 2 0 1 256 0 [7]) 81)),
      .receiver (.step (.followUp (tick 5))), .receiver (.pollRead 10)]

theorem exists_conversation : ∃ x : Session Vegas Vegas, (system Vegas Vegas).Run conversation x ∧
    (x.sender.reading.returned = [5] ∧ x.receiver.reading.returned = [7]) ∧
      x.sender.endpoint.state = .established ∧
        x.sender.endpoint.history.numbered.length < u32Size ∧
          x.receiver.endpoint.history.numbered.length < u32Size ∧
            1 ≤ x.sender.endpoint.reliability.config.connection.maxPayloadSize ∧
              1 ≤ x.receiver.endpoint.reliability.config.connection.maxPayloadSize :=
  TransitionSystem.exists_restrict_run_of_foldlM _ tinySession_created (by decide +kernel)

theorem refines_link_sample : ∃ y : Link Vegas Vegas,
    (Link.systemWith fun _ i => i.Typed).Run (conversation.filterMap Event.link?) y ∧
      y.sender.endpoint.state = .established := by
  obtain ⟨x, hr, -, hs, -⟩ := exists_conversation
  obtain ⟨y, hy, hsender, -⟩ := refines_link hr
  exact ⟨y, hy, by rw [hsender]; exact hs⟩

theorem read_was_written_sample : ∃ x : Session Vegas Vegas,
    x.sender.reading.returned = [5] ∧ x.receiver.reading.returned = [7] ∧
      Transfers x.sender x.receiver ∧ Transfers x.receiver x.sender := by
  obtain ⟨x, hr, ⟨hread, hread'⟩, -, hlen, hlen', hpos, hpos'⟩ := exists_conversation
  obtain ⟨hforth, hback⟩ := read_was_written hr.reachable
  exact ⟨x, hread, hread', hforth hlen hpos, hback hlen' hpos'⟩

end Sample

end Session

end Kestrel
