import Kestrel.Endpoint.Types
import Kestrel.Lib.Switch
import Kestrel.Lib.Transition

/-! # The transport sender task

All datagrams go out through one task. It takes commands off a channel: batches of frames, which it
collects as long as more of them wait, and orders to use a new transport, which the manager of the
transport puts there when the socket is rebound. An order that the task finds while it collects is
taken off the channel and dropped.
-/

namespace Kestrel

/-- A bound transport: the number of the binding, and the address it got. -/
structure Transport where
  serial : ℕ
  localAddr : SocketAddr
  deriving DecidableEq, Repr

inductive TransportCommand where
  | send (batch : FrameBatch)
  | swapTransport (transport : Transport)
  deriving DecidableEq, Repr

/-- A batch to put out, or the transport for those that follow. -/
def TransportCommand.order : TransportCommand → Transport ⊕ FrameBatch
  | .send batch => .inr batch
  | .swapTransport transport => .inl transport

/-- Where the loop of the task stands: at its blocking receive, collecting, or sending. -/
inductive SenderPhase where
  | receiving
  | collecting (commands : List FrameBatch)
  | sending (commands : List FrameBatch)
  deriving DecidableEq, Repr

def SenderPhase.commands : SenderPhase → List FrameBatch
  | .receiving => []
  | .collecting commands | .sending commands => commands

def maxBatchSize : ℕ := 64

/-- How many commands the channel to the task holds. -/
def sendChannelCapacity : ℕ := 1024

structure TransportManager where
  transport : Transport
  deriving DecidableEq, Repr

/-- Binds a new transport and orders the task to use it. -/
def TransportManager.rebind (m : TransportManager) (bound : Except Error Transport)
    (channelOpen : Bool) : Except Error SocketAddr × TransportManager × List TransportCommand :=
  match bound with
  | .error err => (.error err, m, [])
  | .ok newTransport =>
    if channelOpen then
      (.ok newTransport.localAddr, { m with transport := newTransport },
        [.swapTransport newTransport])
    else (.error .channelClosed, m, [])

/-- The manager, the channel and the task, with what the transports were given to send. The fields
from `first` on record the run: the transport it started with, how often one was bound, the
commands submitted, and those taken off the channel, each with whether it was acted upon. -/
structure SendPath where
  manager : TransportManager
  channel : List TransportCommand
  transport : Transport
  phase : SenderPhase
  sent : List (Transport × FrameBatch)
  first : Transport
  bindings : ℕ
  submitted : List TransportCommand
  taken : List (TransportCommand × Bool)
  deriving DecidableEq, Repr

namespace SendPath

/-- What can happen: an endpoint submits a batch, the socket is rebound, the task takes the next
command, looks for one more, or gives a batch to the transport. -/
inductive Event where
  | submit (batch : FrameBatch)
  | rebind (bound : Except Error SocketAddr)
  | recv
  | tryRecv
  | sendFrames (result : Except Error Unit)

variable (p : SendPath)

/-- A command put on the channel. -/
def enqueue (command : TransportCommand) : SendPath :=
  { p with channel := p.channel ++ [command], submitted := p.submitted ++ [command] }

/-- The task at the blocking receive of its loop. -/
def recv : Option SendPath :=
  match p.phase, p.channel with
  | .receiving, .send batch :: rest =>
    some { p with
      channel := rest
      phase := .collecting [batch]
      taken := p.taken ++ [(.send batch, true)] }
  | .receiving, .swapTransport newTransport :: rest =>
    some { p with
      channel := rest
      transport := newTransport
      taken := p.taken ++ [(.swapTransport newTransport, true)] }
  | _, _ => none

/-- One more look at the channel: another batch goes along, anything else ends the collecting. -/
def tryRecv : Option SendPath :=
  match p.phase with
  | .collecting commands =>
    if commands.length < maxBatchSize then
      match p.channel with
      | .send batch :: rest =>
        some { p with
          channel := rest
          phase := .collecting (commands ++ [batch])
          taken := p.taken ++ [(.send batch, true)] }
      | .swapTransport newTransport :: rest =>
        some { p with
          channel := rest
          phase := .sending commands
          taken := p.taken ++ [(.swapTransport newTransport, false)] }
      | [] => some { p with phase := .sending commands }
    else some { p with phase := .sending commands }
  | _ => none

/-- The next batch of the burst goes to the transport, whatever that says of it. -/
def sendFrames : Option SendPath :=
  match p.phase with
  | .sending (batch :: rest) =>
    some { p with phase := .sending rest, sent := p.sent ++ [(p.transport, batch)] }
  | .sending [] => some { p with phase := .receiving }
  | _ => none

def next : Event → Option SendPath
  | .submit batch =>
    if p.channel.length < sendChannelCapacity then some (p.enqueue (.send batch)) else none
  | .rebind (.error err) =>
    some { p with manager := (p.manager.rebind (.error err) true).2.1 }
  | .rebind (.ok addr) =>
    if p.channel.length < sendChannelCapacity then
      let (_, manager, commands) := p.manager.rebind (.ok ⟨p.bindings, addr⟩) true
      let p := { p with manager, bindings := p.bindings + 1 }
      some (commands.foldl enqueue p)
    else none
  | .recv => p.recv
  | .tryRecv => p.tryRecv
  | .sendFrames _ => p.sendFrames

/-- A new socket: one transport has been bound, and nothing sent. -/
def start (addr : SocketAddr) : SendPath :=
  { manager := ⟨⟨0, addr⟩⟩, channel := [], transport := ⟨0, addr⟩, phase := .receiving, sent := []
    first := ⟨0, addr⟩, bindings := 1, submitted := [], taken := [] }

def system : TransitionSystem SendPath Event :=
  .ofNext (fun p => ∃ addr, p = start addr) next

/-- The orders that were acted upon. -/
def handled : List (Transport ⊕ FrameBatch) :=
  (p.taken.filter (·.2)).map fun c => c.1.order

/-- The transports whose orders were dropped. -/
def dropped : List Transport :=
  Switch.targets ((p.taken.filter (!·.2)).map fun c => c.1.order)

/-- The orders that wait. -/
def waiting : List (Transport ⊕ FrameBatch) := p.channel.map TransportCommand.order

variable {p} {p' : SendPath} {e : Event}

theorem recv_cases (h : p.recv = some p') : ∃ c rest, p.phase = .receiving ∧ p.channel = c :: rest ∧
    p' = { p with
      channel := rest
      transport := Switch.target p.transport [c.order]
      phase := match c with
        | .send batch => .collecting [batch]
        | .swapTransport _ => .receiving
      taken := p.taken ++ [(c, true)] } := by
  unfold recv at h
  split at h
  · rename_i batch rest hp hc
    exact ⟨_, rest, hp, hc, (Option.some.inj h).symm⟩
  · rename_i newTransport rest hp hc
    refine ⟨_, rest, hp, hc, (Option.some.inj h).symm.trans ?_⟩
    rw [← hp]
    rfl
  · cases h

/-- What a look at the channel does: a batch joins those in hand, an order to use a new transport is
dropped, or the collecting ends. -/
theorem tryRecv_cases (h : p.tryRecv = some p') : ∃ commands, p.phase = .collecting commands ∧
    ((∃ batch rest, p.channel = .send batch :: rest ∧ commands.length < maxBatchSize ∧
        p' = { p with
          channel := rest
          phase := .collecting (commands ++ [batch])
          taken := p.taken ++ [(.send batch, true)] }) ∨
      (∃ t rest, p.channel = .swapTransport t :: rest ∧
        p' = { p with
          channel := rest
          phase := .sending commands
          taken := p.taken ++ [(.swapTransport t, false)] }) ∨
      p' = { p with phase := .sending commands }) := by
  unfold tryRecv at h
  split at h
  · rename_i commands hp
    refine ⟨commands, hp, ?_⟩
    split at h
    · rename_i hlt
      split at h
      · rename_i batch rest hc
        exact Or.inl ⟨batch, rest, hc, hlt, (Option.some.inj h).symm⟩
      · rename_i t rest hc
        exact Or.inr (Or.inl ⟨t, rest, hc, (Option.some.inj h).symm⟩)
      · exact Or.inr (Or.inr (Option.some.inj h).symm)
    · exact Or.inr (Or.inr (Option.some.inj h).symm)
  · cases h

theorem sendFrames_cases (h : p.sendFrames = some p') :
    (∃ batch rest, p.phase = .sending (batch :: rest) ∧
      p' = { p with phase := .sending rest, sent := p.sent ++ [(p.transport, batch)] }) ∨
    p.phase = .sending [] ∧ p' = { p with phase := .receiving } := by
  unfold sendFrames at h
  split at h
  · rename_i batch rest hp
    exact Or.inl ⟨batch, rest, hp, (Option.some.inj h).symm⟩
  · rename_i hp
    exact Or.inr ⟨hp, (Option.some.inj h).symm⟩
  · cases h

/-- What the run says of the state: every command submitted was taken off the channel or waits
there, in order; what was acted upon explains what was given to which transport and what is in
hand; only orders to use a new transport were dropped; no binding was made twice. -/
structure Accounted (p : SendPath) : Prop where
  submitted_eq : p.submitted = p.taken.map Prod.fst ++ p.channel
  outputs_eq : Switch.outputs p.first p.handled =
    p.sent ++ p.phase.commands.map fun batch => (p.transport, batch)
  transport_eq : p.transport = Switch.target p.first p.handled
  kept : ∀ batch, (TransportCommand.send batch, false) ∉ p.taken
  burst : p.phase.commands.length ≤ maxBatchSize
  serials : (p.first :: Switch.targets (p.submitted.map TransportCommand.order)).map
    Transport.serial = List.range p.bindings
  newest : ∀ t ∈ (Switch.targets p.waiting).getLast?, p.manager.transport = t
  settled : Switch.targets p.waiting = [] →
    p.transport = p.manager.transport ∨ p.manager.transport ∈ p.dropped

theorem accounted_start (addr : SocketAddr) : (start addr).Accounted where
  submitted_eq := rfl
  outputs_eq := rfl
  transport_eq := rfl
  kept := by simp [start]
  burst := Nat.zero_le _
  serials := rfl
  newest := by simp [start, waiting, Switch.targets]
  settled _ := Or.inl rfl

theorem handled_snoc {c : TransportCommand} {b : Bool} (h : p'.taken = p.taken ++ [(c, b)]) :
    p'.handled = p.handled ++ if b then [c.order] else [] := by
  rw [handled, handled, h, List.filter_append, List.map_append]
  cases b <;> rfl

theorem dropped_snoc {c : TransportCommand} {b : Bool} (h : p'.taken = p.taken ++ [(c, b)]) :
    p'.dropped = p.dropped ++ if b then [] else Switch.targets [c.order] := by
  rw [dropped, dropped, h, List.filter_append, List.map_append, Switch.targets_append]
  cases b <;> rfl

theorem newest_tail {x : Transport ⊕ FrameBatch} {rest : List (Transport ⊕ FrameBatch)}
    {t : Transport} (h : t ∈ (Switch.targets rest).getLast?) :
    t ∈ (Switch.targets (x :: rest)).getLast? := by
  cases x with
  | inr batch => exact h
  | inl t' =>
    change t ∈ (t' :: Switch.targets rest).getLast?
    rw [Option.mem_def] at h
    rw [List.getLast?_cons, h]
    rfl

/-- A command taken off the channel and acted upon. -/
theorem Accounted.take {c : TransportCommand} {rest : List TransportCommand} (phase : SenderPhase)
    (h : p.Accounted) (hc : p.channel = c :: rest)
    (hphase : phase.commands = p.phase.commands ++ Switch.items [c.order])
    (hswap : Switch.targets [c.order] ≠ [] → p.phase.commands = [])
    (hburst : phase.commands.length ≤ maxBatchSize) :
    Accounted { p with
      channel := rest
      transport := Switch.target p.transport [c.order]
      phase
      taken := p.taken ++ [(c, true)] } := by
  set p' : SendPath := { p with
    channel := rest
    transport := Switch.target p.transport [c.order]
    phase
    taken := p.taken ++ [(c, true)] } with hp'
  have hhandled : p'.handled = p.handled ++ [c.order] := handled_snoc (b := true) rfl
  have hdropped : p'.dropped = p.dropped :=
    (dropped_snoc (b := true) rfl).trans (List.append_nil _)
  have hwaiting : p.waiting = c.order :: p'.waiting := by rw [waiting, hc]; rfl
  constructor
  · rw [h.submitted_eq, hc]
    simp [hp']
  · rw [hhandled, Switch.outputs_append, h.outputs_eq, ← h.transport_eq, List.append_assoc]
    congr 1
    change _ = phase.commands.map fun batch => (Switch.target p.transport [c.order], batch)
    rw [hphase]
    cases c with
    | send batch => rw [List.map_append]; rfl
    | swapTransport t =>
      rw [hswap (by simp [TransportCommand.order, Switch.targets])]
      rfl
  · rw [hhandled, Switch.target_append, ← h.transport_eq]
  · intro batch hm
    rcases List.mem_append.mp hm with hm | hm
    · exact h.kept batch hm
    · cases List.mem_singleton.mp hm
  · exact hburst
  · exact h.serials
  · intro t ht
    apply h.newest t
    rw [hwaiting]
    exact newest_tail ht
  · intro hnone
    rw [hdropped]
    cases c with
    | send batch =>
      apply h.settled
      rw [hwaiting]
      exact hnone
    | swapTransport t =>
      left
      refine (h.newest t ?_).symm
      rw [hwaiting]
      change t ∈ (t :: Switch.targets p'.waiting).getLast?
      rw [hnone]
      rfl

theorem Accounted.drop {t : Transport} {rest : List TransportCommand} {phase : SenderPhase}
    (h : p.Accounted) (hc : p.channel = .swapTransport t :: rest)
    (hphase : phase.commands = p.phase.commands) :
    Accounted { p with
      channel := rest
      phase
      taken := p.taken ++ [(.swapTransport t, false)] } := by
  set p' : SendPath := { p with
    channel := rest
    phase
    taken := p.taken ++ [(.swapTransport t, false)] } with hp'
  have hhandled : p'.handled = p.handled :=
    (handled_snoc (b := false) rfl).trans (List.append_nil _)
  have hdropped : p'.dropped = p.dropped ++ [t] := (dropped_snoc (b := false) rfl).trans rfl
  have hwaiting : p.waiting = .inl t :: p'.waiting := by rw [waiting, hc]; rfl
  constructor
  · rw [h.submitted_eq, hc]
    simp [hp']
  · rw [hhandled, hphase]
    exact h.outputs_eq
  · rw [hhandled]
    exact h.transport_eq
  · intro batch hm
    rcases List.mem_append.mp hm with hm | hm
    · exact h.kept batch hm
    · cases List.mem_singleton.mp hm
  · rw [hphase]
    exact h.burst
  · exact h.serials
  · intro t' ht
    apply h.newest t'
    rw [hwaiting]
    exact newest_tail ht
  · intro hnone
    right
    rw [hdropped, h.newest t]
    · exact List.mem_append_right _ (List.mem_singleton_self t)
    · rw [hwaiting]
      change t ∈ (t :: Switch.targets p'.waiting).getLast?
      rw [hnone]
      rfl

theorem Accounted.step (h : p.Accounted) (hn : p.next e = some p') : p'.Accounted := by
  cases e with
  | submit batch =>
    simp only [next, Option.ite_none_right_eq_some, Option.some.injEq] at hn
    rw [← hn.2]
    have hwaiting : Switch.targets (p.enqueue (.send batch)).waiting = Switch.targets p.waiting := by
      rw [waiting, enqueue, List.map_append, Switch.targets_append]
      exact List.append_nil _
    refine { h with submitted_eq := ?_, serials := ?_, newest := ?_, settled := ?_ }
    · rw [enqueue, h.submitted_eq, List.append_assoc]
    · rw [enqueue, List.map_append, Switch.targets_append]
      exact (congrArg (fun ts => (p.first :: ts).map Transport.serial) (List.append_nil _)).trans
        h.serials
    · rw [hwaiting]
      exact h.newest
    · rw [hwaiting]
      exact h.settled
  | rebind bound =>
    cases bound with
    | error err =>
      cases hn
      exact { h with }
    | ok addr =>
      simp only [next, Option.ite_none_right_eq_some, Option.some.injEq] at hn
      rw [← hn.2]
      set t : Transport := ⟨p.bindings, addr⟩
      have hlast (ts : List Transport) : (ts ++ [t]).getLast? = some t := List.getLast?_concat
      change Accounted { p with
        manager := ⟨t⟩
        channel := p.channel ++ [.swapTransport t]
        bindings := p.bindings + 1
        submitted := p.submitted ++ [.swapTransport t] }
      have hwaiting : Switch.targets ((p.channel ++ [TransportCommand.swapTransport t]).map
          TransportCommand.order) = Switch.targets p.waiting ++ [t] := by
        rw [List.map_append, Switch.targets_append]
        rfl
      refine { h with submitted_eq := ?_, serials := ?_, newest := ?_, settled := ?_ }
      · dsimp only
        rw [h.submitted_eq, List.append_assoc]
      · dsimp only
        rw [List.map_append, Switch.targets_append, ← List.cons_append, List.map_append, h.serials,
          List.range_succ]
        rfl
      · intro t' ht
        rw [waiting, hwaiting, hlast, Option.mem_some] at ht
        exact ht
      · intro hnone
        rw [waiting, hwaiting] at hnone
        simp at hnone
  | recv =>
    obtain ⟨c, rest, hp, hc, rfl⟩ := recv_cases hn
    apply Accounted.take _ h hc
    · rw [hp]
      cases c <;> rfl
    · intro _
      rw [hp]
      rfl
    · cases c <;> simp [SenderPhase.commands, maxBatchSize]
  | tryRecv =>
    obtain ⟨commands, hp, ⟨batch, rest, hc, hlt, rfl⟩ | ⟨t, rest, hc, rfl⟩ | rfl⟩ :=
      tryRecv_cases hn
    · refine Accounted.take (c := .send batch) (.collecting (commands ++ [batch])) h hc ?_ ?_ ?_
      · rw [hp]
        rfl
      · exact fun hne => absurd rfl hne
      · simpa [SenderPhase.commands] using Nat.succ_le_of_lt hlt
    · apply h.drop hc
      rw [hp]
      rfl
    · have hout := h.outputs_eq
      have hburst := h.burst
      rw [hp] at hout hburst
      exact { h with outputs_eq := hout, burst := hburst }
  | sendFrames result =>
    rcases sendFrames_cases hn with ⟨batch, rest, hp, rfl⟩ | ⟨hp, rfl⟩
    · have hout := h.outputs_eq
      have hburst := h.burst
      rw [hp] at hout hburst
      refine { h with outputs_eq := ?_, burst := ?_ }
      · refine hout.trans ?_
        dsimp only
        rw [List.append_assoc]
        rfl
      · exact (Nat.le_succ _).trans hburst
    · have hout := h.outputs_eq
      rw [hp] at hout
      exact { h with outputs_eq := hout, burst := Nat.zero_le _ }

theorem accounted (h : system.Reachable p) : p.Accounted := by
  have hinv : system.Invariant Accounted :=
    { init := by
        rintro p ⟨addr, rfl⟩
        exact accounted_start addr
      step := fun p e p' _ hp hn => hp.step hn }
  exact hinv.holds h

theorem Accounted.items_handled (h : p.Accounted) : Switch.items p.handled =
    Switch.items ((p.taken.map Prod.fst).map TransportCommand.order) := by
  have hkept := h.kept
  rw [handled]
  generalize p.taken = taken at hkept
  induction taken with
  | nil => rfl
  | cons c taken ih =>
    have ih := ih fun batch hm => hkept batch (List.mem_cons_of_mem _ hm)
    obtain ⟨c, acted⟩ := c
    cases acted with
    | true =>
      cases c with
      | send batch => exact congrArg (batch :: ·) ih
      | swapTransport t => exact ih
    | false =>
      cases c with
      | send batch => exact absurd (List.mem_cons_self) (hkept batch)
      | swapTransport t => exact ih

theorem eq_of_nodup_filterMap {α β : Type} {f : α → Option β} {l : List α}
    (h : (l.filterMap f).Nodup) {a a' : α} (ha : a ∈ l) (ha' : a' ∈ l) {b : β} (hb : f a = some b)
    (hb' : f a' = some b) : a = a' := by
  have : Std.Symm fun x y => ∀ c, f x = some c → ∀ d, f y = some d → c ≠ d :=
    ⟨fun x y hxy c hc d hd he => hxy d hd c hc he.symm⟩
  by_contra hne
  exact (List.pairwise_filterMap.mp h).forall ha ha' hne b hb b hb' rfl

theorem mem_targets_filter {taken : List (TransportCommand × Bool)}
    {f : TransportCommand × Bool → Bool} {t : Transport}
    (h : t ∈ Switch.targets ((taken.filter f).map fun c => c.1.order)) :
    ∃ c ∈ taken, f c = true ∧ c.1.order = .inl t := by
  rw [Switch.targets, List.filterMap_map] at h
  obtain ⟨c, hc, hl⟩ := List.mem_filterMap.mp h
  obtain ⟨hc, hf⟩ := List.mem_filter.mp hc
  exact ⟨c, hc, hf, Sum.getLeft?_eq_some_iff.mp hl⟩

/-- No binding is made twice, so the order for the transport in use was not dropped. -/
theorem Accounted.transport_not_dropped (h : p.Accounted) : p.transport ∉ p.dropped := by
  have hnodup : (p.first :: Switch.targets (p.submitted.map TransportCommand.order)).Nodup :=
    List.Nodup.of_map Transport.serial (h.serials ▸ List.nodup_range)
  rw [h.submitted_eq, List.map_append, Switch.targets_append, List.nodup_cons] at hnodup
  obtain ⟨hfirst, hnodup⟩ := hnodup
  have htaken := (List.nodup_append.mp hnodup).1
  rw [Switch.targets, List.filterMap_map, List.filterMap_map] at htaken
  intro hd
  obtain ⟨c, hc, hflag, ho⟩ := mem_targets_filter hd
  rw [h.transport_eq, Switch.target_eq] at ho
  cases hlast : (Switch.targets p.handled).getLast? with
  | none =>
    rw [hlast, Option.getD_none] at ho
    apply hfirst
    refine List.mem_append_left _ (List.mem_filterMap.mpr ⟨c.1.order, ?_, by rw [ho]; rfl⟩)
    exact List.mem_map_of_mem (List.mem_map_of_mem hc)
  | some t =>
    rw [hlast, Option.getD_some] at ho
    obtain ⟨c', hc', hflag', ho'⟩ := mem_targets_filter (List.mem_of_getLast? hlast)
    have hsame := eq_of_nodup_filterMap htaken hc hc' (b := t) (by simp [ho]) (by simp [ho'])
    rw [hsame, hflag'] at hflag
    cases hflag

/-- In every run the batches that went to a transport, those in hand and those that wait are what
was submitted, each once and in order; each batch went to the transport that the orders acted upon
before it name; and a burst is bounded. -/
theorem batches_sent_once (h : system.Reachable p) :
    p.sent.map Prod.snd ++ p.phase.commands ++ Switch.items p.waiting =
        Switch.items (p.submitted.map TransportCommand.order) ∧
      p.sent ++ p.phase.commands.map (fun batch => (p.transport, batch)) =
        Switch.outputs p.first p.handled ∧ p.phase.commands.length ≤ maxBatchSize := by
  have ha := accounted h
  refine ⟨?_, ha.outputs_eq.symm, ha.burst⟩
  have hitems := congrArg (List.map Prod.snd) ha.outputs_eq
  rw [Switch.map_snd_outputs, List.map_append, List.map_map, ha.items_handled] at hitems
  have hid : List.map (Prod.snd ∘ fun batch => (p.transport, batch)) p.phase.commands =
      p.phase.commands := List.map_id _
  rw [hid] at hitems
  rw [← hitems, ha.submitted_eq, List.map_append, Switch.items_append]
  rfl

/-- Which transport the batches go to: with no order waiting it is the manager's, unless the order
for that one was dropped; and if none was dropped, the batches go where the commands, in the order
in which they were submitted, say. -/
structure Managed (p : SendPath) : Prop where
  settled_iff : Switch.targets p.waiting = [] →
    (p.transport = p.manager.transport ↔ p.manager.transport ∉ p.dropped)
  in_order : p.dropped = [] →
    p.sent ++ p.phase.commands.map (fun batch => (p.transport, batch)) ++
        Switch.outputs p.transport p.waiting =
      Switch.outputs p.first (p.submitted.map TransportCommand.order)

theorem managed (h : system.Reachable p) : p.Managed := by
  have ha := accounted h
  constructor
  · intro hnone
    constructor
    · intro hsame
      rw [← hsame]
      exact ha.transport_not_dropped
    · exact fun hno => (ha.settled hnone).resolve_right hno
  · intro hnone
    have hall : p.taken.filter (·.2) = p.taken := by
      rw [List.filter_eq_self]
      rintro ⟨c, acted⟩ hc
      cases acted with
      | true => rfl
      | false =>
        cases c with
        | send batch => exact absurd hc (ha.kept batch)
        | swapTransport t =>
          have hd : t ∈ p.dropped := List.mem_filterMap.mpr ⟨.inl t, List.mem_map.mpr
            ⟨(.swapTransport t, false), List.mem_filter.mpr ⟨hc, rfl⟩, rfl⟩, rfl⟩
          rw [hnone] at hd
          cases hd
    have hhandled : p.handled = (p.taken.map Prod.fst).map TransportCommand.order := by
      rw [handled, hall, List.map_map]
      rfl
    rw [ha.submitted_eq, List.map_append, Switch.outputs_append, ← hhandled, ha.outputs_eq,
      ← ha.transport_eq]
    rfl

section Sample

/-- Two batches wait when the socket is rebound, and one comes after that. The task collects the
two and goes on with the last. -/
def rebindBehindBatches : List Event :=
  [.submit ⟨81, []⟩, .submit ⟨82, []⟩, .rebind (.ok 90), .submit ⟨83, []⟩, .recv, .tryRecv,
    .tryRecv, .sendFrames (.ok ()), .sendFrames (.ok ()), .sendFrames (.ok ()), .recv, .tryRecv,
    .sendFrames (.ok ())]

/-- The socket is rebound while the channel is empty. -/
def rebindAlone : List Event :=
  [.rebind (.ok 90), .recv, .submit ⟨81, []⟩, .recv, .tryRecv, .sendFrames (.ok ())]

theorem batches_sent_once_sample : ∃ p : SendPath,
    p.sent.map Prod.snd = [⟨81, []⟩, ⟨82, []⟩, ⟨83, []⟩] ∧
      p.sent.map Prod.snd ++ p.phase.commands ++ Switch.items p.waiting =
        Switch.items (p.submitted.map TransportCommand.order) := by
  obtain ⟨p, hr, hs⟩ : ∃ p, system.Run rebindBehindBatches p ∧
      p.sent.map Prod.snd = [⟨81, []⟩, ⟨82, []⟩, ⟨83, []⟩] :=
    TransitionSystem.exists_run_of_foldlM _ ⟨80, rfl⟩ (by decide)
  exact ⟨p, hs, (batches_sent_once hr.reachable).1⟩

theorem managed_sample : ∃ p : SendPath, p.manager.transport = ⟨1, 90⟩ ∧ p.Managed ∧
    p.sent = [(⟨1, 90⟩, ⟨81, []⟩)] := by
  obtain ⟨p, hr, hm, hs⟩ : ∃ p, system.Run rebindAlone p ∧ p.manager.transport = ⟨1, 90⟩ ∧
      p.sent = [(⟨1, 90⟩, ⟨81, []⟩)] :=
    TransitionSystem.exists_run_of_foldlM _ ⟨80, rfl⟩ (by decide)
  exact ⟨p, hm, managed hr.reachable, hs⟩

/-- Behind two batches the order for the new transport is lost: the manager answers with the new
address, and every batch goes out over the old transport. -/
example : ∃ p, system.Run rebindBehindBatches p ∧ p.channel = [] ∧
    p.manager.transport = ⟨1, 90⟩ ∧ p.dropped = [⟨1, 90⟩] ∧
      p.sent.map Prod.fst = [⟨0, 80⟩, ⟨0, 80⟩, ⟨0, 80⟩] :=
  TransitionSystem.exists_run_of_foldlM _ ⟨80, rfl⟩ (by decide)

end Sample

end SendPath

end Kestrel
