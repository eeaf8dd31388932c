import Mathlib.Logic.Function.Basic
import Kestrel.Endpoint.Legibility
import Kestrel.Endpoint.PacketBuilder
import Kestrel.Lib.Switch
import Kestrel.Socket.EventLoop

/-! # UDP transports

A transport writes the frames of a batch into one datagram. An actor works off its commands one by
one, and a task of its own receives datagrams into a buffer of fixed size and puts their frames on a
channel of limited capacity. Both use the socket that is bound last, but the task stays with the one
it waits on until that yields something.
-/

namespace Kestrel

/-- A datagram on its way. -/
structure UdpDatagram where
  source : SocketAddr
  destination : SocketAddr
  payload : Bytes
  deriving DecidableEq, Repr

inductive UdpTransportCommand where
  | send (batch : FrameBatch)
  | getLocalAddr
  | rebind (newAddr : SocketAddr)
  deriving DecidableEq, Repr

/-- The size of the buffer for one datagram. -/
def recvBufferSize : ℕ := 2048

/-- The capacity of the channels for commands and for datagrams. -/
def udpChannelCapacity : ℕ := 1024

/-- A transport with its actor and its receiver task; sockets are told apart by their addresses. The
fields from `first` on record the run: the address bound first, the commands submitted and the answers
given, the batches that were sent, each with the address it was sent from, and the datagrams taken
off the channel. -/
structure UdpTransport where
  sharedSocket : SocketAddr
  receiverSocket : SocketAddr
  localAddr : SocketAddr
  commands : List UdpTransportCommand
  datagrams : List Datagram
  actorRunning : Bool
  receiverRunning : Bool
  first : SocketAddr
  submitted : List UdpTransportCommand
  answers : List (UdpTransportCommand × Except Error (Option SocketAddr))
  sent : List (SocketAddr × FrameBatch)
  received : List Datagram
  deriving Repr

namespace UdpTransport

def fromSocket (addr : SocketAddr) : UdpTransport :=
  { sharedSocket := addr, receiverSocket := addr, localAddr := addr, commands := [],
    datagrams := [], actorRunning := true, receiverRunning := true, first := addr, submitted := [],
    answers := [], sent := [], received := [] }

variable (t : UdpTransport)

/-- A caller puts a command on the channel, if the actor is there and the channel has room. -/
def submit (command : UdpTransportCommand) : Option UdpTransport :=
  if t.actorRunning ∧ t.commands.length < udpChannelCapacity then
    some { t with commands := t.commands ++ [command], submitted := t.submitted ++ [command] }
  else none

def answer (command : UdpTransportCommand) (response : Except Error (Option SocketAddr)) :
    UdpTransport :=
  { t with answers := t.answers ++ [(command, response)] }

/-- Writes a batch into a datagram and gives it to the socket. Where the encoder's assertion fails,
the actor stops, and nobody is answered any more. -/
def handleSend (batch : FrameBatch) (result : Except Error SocketAddr) :
    UdpTransport × Option UdpDatagram :=
  if batch.frames.isEmpty then (t.answer (.send batch) (.ok none), none)
  else
    match serializeFrames batch.frames with
    | none => ({ t with commands := [], actorRunning := false }, none)
    | some buffer =>
      match result with
      | .error err => (t.answer (.send batch) (.error err), none)
      | .ok _ =>
        (answer { t with sent := t.sent ++ [(t.sharedSocket, batch)] } (.send batch) (.ok none),
          some ⟨t.sharedSocket, batch.remoteAddr, buffer⟩)

def handleRebind (newAddr : SocketAddr) (result : Except Error SocketAddr) : UdpTransport :=
  match result with
  | .error err => t.answer (.rebind newAddr) (.error err)
  | .ok actualAddr =>
    answer { t with sharedSocket := actualAddr, localAddr := actualAddr } (.rebind newAddr)
      (.ok (some actualAddr))

/-- The actor takes the next command; the operating system says how that goes. -/
def act (result : Except Error SocketAddr) : Option (UdpTransport × Option UdpDatagram) :=
  match t.commands with
  | [] => none
  | .send batch :: rest => some (handleSend { t with commands := rest } batch result)
  | .getLocalAddr :: rest =>
    some (answer { t with commands := rest } .getLocalAddr
      (result.map fun _ => some t.sharedSocket), none)
  | .rebind newAddr :: rest =>
    some (handleRebind { t with commands := rest } newAddr result, none)

/-- The receiver task gets a datagram from its socket, cut to the size of the buffer, and drops it
if the channel is full; then it looks for the socket again. -/
def receive (d : UdpDatagram) : Option UdpTransport :=
  if t.receiverRunning ∧ d.destination = t.receiverSocket then
    let received : Datagram := ⟨deserializeFrames (d.payload.take recvBufferSize), d.source⟩
    some { t with
      receiverSocket := t.sharedSocket
      datagrams := if t.datagrams.length < udpChannelCapacity then t.datagrams ++ [received]
        else t.datagrams }
  else none

def receiveError : Option UdpTransport :=
  if t.receiverRunning then some { t with receiverSocket := t.sharedSocket } else none

/-- The next datagram of the channel. -/
def recvFrames : Option UdpTransport :=
  match t.datagrams with
  | [] => none
  | d :: rest => some { t with datagrams := rest, received := t.received ++ [d] }

def shutdown : UdpTransport := { t with receiverRunning := false }

/-- A batch that was sent, or the address for those that follow. -/
def order : UdpTransportCommand × Except Error (Option SocketAddr) →
    Option (SocketAddr ⊕ FrameBatch)
  | (.send batch, .ok _) => if batch.frames.isEmpty then none else some (.inr batch)
  | (.rebind _, .ok (some actualAddr)) => some (.inl actualAddr)
  | _ => none

/-- What was sent and bound, in order. -/
def orders : List (SocketAddr ⊕ FrameBatch) := t.answers.filterMap order

/-- Every address that was bound. -/
def bound : List SocketAddr := t.first :: Switch.targets t.orders

/-- The address that is told to a caller is the one bound last. -/
def Truthful (first : SocketAddr)
    (answers : List (UdpTransportCommand × Except Error (Option SocketAddr))) : Prop :=
  ∀ before a after, answers = before ++ (.getLocalAddr, .ok a) :: after →
    a = some (Switch.target first (before.filterMap order))

/-- What holds of a transport between two steps. -/
structure Sound (t : UdpTransport) : Prop where
  running : t.actorRunning = true
  answered : t.answers.map Prod.fst ++ t.commands = t.submitted
  sent_eq : t.sent = Switch.outputs t.first t.orders
  shared_eq : t.sharedSocket = Switch.target t.first t.orders
  local_eq : t.localAddr = t.sharedSocket
  truthful : Truthful t.first t.answers
  receiver_mem : t.receiverSocket ∈ t.bound
  commands_le : t.commands.length ≤ udpChannelCapacity
  datagrams_le : t.datagrams.length ≤ udpChannelCapacity
  commands_wf : ∀ b, .send b ∈ t.commands → ∀ f ∈ b.frames, f.WellFormed
  sent_wf : ∀ p ∈ t.sent, ∀ f ∈ p.2.frames, f.WellFormed

/-- A later state of a transport: it has sent and bound more. -/
structure Later (t t' : UdpTransport) : Prop where
  first_eq : t'.first = t.first
  answers : t.answers <+: t'.answers
  sent : t.sent <+: t'.sent

variable {t} {t' : UdpTransport}

theorem Later.refl (t : UdpTransport) : Later t t := ⟨rfl, List.prefix_rfl, List.prefix_rfl⟩

theorem Later.bound_subset (h : Later t t') {a : SocketAddr} (ha : a ∈ t.bound) : a ∈ t'.bound := by
  obtain ⟨more, hmore⟩ := h.answers
  rw [bound, orders, ← hmore, List.filterMap_append, Switch.targets_append, h.first_eq]
  rcases List.mem_cons.mp ha with rfl | ha
  · exact List.mem_cons_self
  · exact List.mem_cons_of_mem _ (List.mem_append_left _ ha)

theorem Sound.shared_mem (h : t.Sound) : t.sharedSocket ∈ t.bound := by
  rw [h.shared_eq, Switch.target_eq, bound]
  cases hl : (Switch.targets t.orders).getLast? with
  | none => exact List.mem_cons_self
  | some a => exact List.mem_cons_of_mem _ (List.mem_of_getLast? hl)

theorem Truthful.concat {first : SocketAddr}
    {answers : List (UdpTransportCommand × Except Error (Option SocketAddr))}
    (h : Truthful first answers) {x : UdpTransportCommand × Except Error (Option SocketAddr)}
    (hx : ∀ a, x = (.getLocalAddr, .ok a) →
      a = some (Switch.target first (answers.filterMap order))) :
    Truthful first (answers ++ [x]) := by
  intro before a after heq
  rcases List.eq_nil_or_concat after with rfl | ⟨after, y, rfl⟩
  · obtain ⟨rfl, hlast⟩ := List.append_inj' heq rfl
    exact hx a (List.singleton_inj.mp hlast)
  · rw [List.concat_eq_append, ← List.cons_append, ← List.append_assoc] at heq
    exact h before a after (List.append_inj' heq rfl).1

theorem sound_fromSocket (addr : SocketAddr) : (fromSocket addr).Sound where
  running := rfl
  answered := rfl
  sent_eq := rfl
  shared_eq := rfl
  local_eq := rfl
  truthful := by
    intro before a after h
    simp [fromSocket] at h
  receiver_mem := List.mem_singleton_self _
  commands_le := Nat.zero_le _
  datagrams_le := Nat.zero_le _
  commands_wf := by simp [fromSocket]
  sent_wf := by simp [fromSocket]

/-- The actor sends a batch, binds an address, or does neither; in each case the command is
answered. -/
inductive Acted (t : UdpTransport) : UdpTransport → Option UdpDatagram → Prop where
  | quiet (c : UdpTransportCommand) (rest : List UdpTransportCommand)
      (response : Except Error (Option SocketAddr)) (hc : t.commands = c :: rest)
      (ho : order (c, response) = none)
      (ha : ∀ a, (c, response) = (.getLocalAddr, .ok a) → a = some t.sharedSocket) :
    Acted t (answer { t with commands := rest } c response) none
  | sent (batch : FrameBatch) (rest : List UdpTransportCommand)
      (hc : t.commands = .send batch :: rest) (hne : batch.frames.isEmpty = false) :
    Acted t
      (answer { t with commands := rest, sent := t.sent ++ [(t.sharedSocket, batch)] } (.send batch)
        (.ok none))
      (some ⟨t.sharedSocket, batch.remoteAddr, batch.frames.flatMap Frame.bytes⟩)
  | bound (newAddr actualAddr : SocketAddr) (rest : List UdpTransportCommand)
      (hc : t.commands = .rebind newAddr :: rest) :
    Acted t
      (answer { t with commands := rest, sharedSocket := actualAddr, localAddr := actualAddr }
        (.rebind newAddr) (.ok (some actualAddr))) none

theorem Sound.acted (h : t.Sound) {result : Except Error SocketAddr} {d : Option UdpDatagram}
    (ha : t.act result = some (t', d)) : Acted t t' d := by
  unfold act at ha
  split at ha
  · cases ha
  · rename_i batch rest hc
    have hwf := h.commands_wf batch (by rw [hc]; exact List.mem_cons_self)
    rw [Option.some.injEq, handleSend] at ha
    cases hempty : batch.frames.isEmpty with
    | true =>
      rw [hempty, if_pos rfl] at ha
      cases ha
      exact .quiet _ rest _ hc (by simp [order, hempty]) (by simp)
    | false =>
      rw [hempty, if_neg Bool.false_ne_true, serializeFrames_of_wellFormed hwf] at ha
      cases result with
      | error err =>
        cases ha
        exact .quiet _ rest _ hc rfl (by simp)
      | ok a =>
        cases ha
        exact .sent batch rest hc hempty
  · rename_i rest hc
    cases ha
    refine .quiet _ rest _ hc ?_ ?_
    · cases result <;> rfl
    · cases result <;> simp [Except.map, eq_comm]
  · rename_i newAddr rest hc
    cases result with
    | error err =>
      cases ha
      exact .quiet _ rest _ hc rfl (by simp)
    | ok a =>
      cases ha
      exact .bound newAddr a rest hc

theorem orders_answer (c : UdpTransportCommand) (response : Except Error (Option SocketAddr)) :
    (t.answer c response).orders = t.orders ++ (order (c, response)).toList := by
  rw [orders, answer, List.filterMap_append]
  cases h : order (c, response) <;> simp [orders, h]

theorem Acted.later {d : Option UdpDatagram} (h : Acted t t' d) : Later t t' := by
  cases h with
  | quiet c rest response => exact ⟨rfl, List.prefix_append _ _, List.prefix_rfl⟩
  | sent batch rest => exact ⟨rfl, List.prefix_append _ _, List.prefix_append _ _⟩
  | bound newAddr actualAddr rest => exact ⟨rfl, List.prefix_append _ _, List.prefix_rfl⟩

theorem Acted.emitted {d : UdpDatagram} (h : Acted t t' (some d)) : ∃ p ∈ t'.sent,
    d = ⟨p.1, p.2.remoteAddr, p.2.frames.flatMap Frame.bytes⟩ := by
  cases h with
  | sent batch rest =>
    exact ⟨(t.sharedSocket, batch), List.mem_append_right _ (List.mem_singleton_self _), rfl⟩

theorem Sound.answered_cons (h : t.Sound) {c : UdpTransportCommand}
    {rest : List UdpTransportCommand} (hc : t.commands = c :: rest)
    (response : Except Error (Option SocketAddr)) :
    (t.answers ++ [(c, response)]).map Prod.fst ++ rest = t.submitted := by
  rw [← h.answered, hc, List.map_append, List.append_assoc]
  rfl

theorem Sound.of_acted {d : Option UdpDatagram} (h : t.Sound) (ha : Acted t t' d) : t'.Sound := by
  have hreceiver := ha.later.bound_subset h.receiver_mem
  have htail {c : UdpTransportCommand} {rest : List UdpTransportCommand}
      (hc : t.commands = c :: rest) : rest.length ≤ udpChannelCapacity ∧
        ∀ b, .send b ∈ rest → ∀ f ∈ b.frames, f.WellFormed := by
    have hle := h.commands_le
    rw [hc, List.length_cons] at hle
    exact ⟨by omega, fun b hb => h.commands_wf b (by rw [hc]; exact List.mem_cons_of_mem _ hb)⟩
  have horders (c : UdpTransportCommand) (response : Except Error (Option SocketAddr)) :
      (t.answers ++ [(c, response)]).filterMap order = t.orders ++ (order (c, response)).toList :=
    orders_answer c response
  cases ha with
  | quiet c rest response hc ho ha =>
    obtain ⟨hle, hwf⟩ := htail hc
    refine { h with
      answered := h.answered_cons hc response
      sent_eq := ?_
      shared_eq := ?_
      truthful := h.truthful.concat fun a he => ?_
      receiver_mem := hreceiver
      commands_le := hle
      commands_wf := hwf }
    · rw [orders, answer, horders, ho, Option.toList_none, List.append_nil]
      exact h.sent_eq
    · rw [orders, answer, horders, ho, Option.toList_none, List.append_nil]
      exact h.shared_eq
    · rw [ha a he, h.shared_eq]
      rfl
  | sent batch rest hc hne =>
    obtain ⟨hle, hwf⟩ := htail hc
    have ho : order (.send batch, .ok none) = some (.inr batch) := by simp [order, hne]
    refine { h with
      answered := h.answered_cons hc _
      sent_eq := ?_
      shared_eq := ?_
      truthful := h.truthful.concat (by simp)
      receiver_mem := hreceiver
      commands_le := hle
      commands_wf := hwf
      sent_wf := fun p hp => ?_ }
    · rw [orders, answer, horders, ho, Switch.outputs_append, ← h.shared_eq, ← h.sent_eq]
      rfl
    · rw [orders, answer, horders, ho, Switch.target_append, ← h.shared_eq]
      rfl
    · rcases List.mem_append.mp hp with hp | hp
      · exact h.sent_wf p hp
      · rw [List.mem_singleton.mp hp]
        exact h.commands_wf batch (by rw [hc]; exact List.mem_cons_self)
  | bound newAddr actualAddr rest hc =>
    obtain ⟨hle, hwf⟩ := htail hc
    have ho : order (.rebind newAddr, .ok (some actualAddr)) = some (.inl actualAddr) := rfl
    refine { h with
      answered := h.answered_cons hc _
      sent_eq := ?_
      shared_eq := ?_
      local_eq := rfl
      truthful := h.truthful.concat (by simp)
      receiver_mem := hreceiver
      commands_le := hle
      commands_wf := hwf }
    · rw [orders, answer, horders, ho, Switch.outputs_append]
      exact h.sent_eq.trans (List.append_nil _).symm
    · rw [orders, answer, horders, ho, Switch.target_append]
      rfl

theorem Sound.submit (h : t.Sound) {c : UdpTransportCommand} (hs : t.submit c = some t')
    (hc : ∀ b, c = .send b → ∀ f ∈ b.frames, f.WellFormed) : t'.Sound := by
  simp only [UdpTransport.submit, Option.ite_none_right_eq_some, Option.some.injEq] at hs
  obtain ⟨⟨-, hlt⟩, rfl⟩ := hs
  refine { h with answered := ?_, commands_le := ?_, commands_wf := fun b hb => ?_ }
  · rw [← List.append_assoc, h.answered]
  · rw [List.length_append]
    exact Nat.succ_le_of_lt hlt
  · rcases List.mem_append.mp hb with hb | hb
    · exact h.commands_wf b hb
    · exact hc b (List.mem_singleton.mp hb).symm

theorem Sound.receive (h : t.Sound) {d : UdpDatagram} (hr : t.receive d = some t') : t'.Sound := by
  simp only [UdpTransport.receive, Option.ite_none_right_eq_some, Option.some.injEq] at hr
  obtain ⟨-, rfl⟩ := hr
  refine { h with receiver_mem := h.shared_mem, datagrams_le := ?_ }
  dsimp only
  split
  · rw [List.length_append]
    exact Nat.succ_le_of_lt ‹_›
  · exact h.datagrams_le

theorem Sound.receiveError (h : t.Sound) (hr : t.receiveError = some t') : t'.Sound := by
  simp only [UdpTransport.receiveError, Option.ite_none_right_eq_some, Option.some.injEq] at hr
  obtain ⟨-, rfl⟩ := hr
  exact { h with receiver_mem := h.shared_mem }

theorem Sound.recvFrames (h : t.Sound) (hr : t.recvFrames = some t') : t'.Sound := by
  unfold UdpTransport.recvFrames at hr
  split at hr
  · cases hr
  · rename_i d rest hd
    cases hr
    have hle := h.datagrams_le
    rw [hd, List.length_cons] at hle
    exact { h with datagrams_le := (Nat.le_succ _).trans hle }

end UdpTransport

/-- The transports of some hosts, and every datagram that one of them has sent. -/
structure Network (H : Type) where
  hosts : H → UdpTransport
  flying : List UdpDatagram

namespace Network

/-- A step of one transport; any datagram that was sent can arrive, at any time. -/
inductive Event (H : Type) where
  | submit (h : H) (command : UdpTransportCommand)
  | act (h : H) (result : Except Error SocketAddr)
  | deliver (h : H) (i : ℕ)
  | receiveError (h : H)
  | recvFrames (h : H)
  | shutdown (h : H)

variable {H : Type} [DecidableEq H]

def set (n : Network H) (h : H) (t : UdpTransport) : Network H :=
  { n with hosts := Function.update n.hosts h t }

def next (n : Network H) : Event H → Option (Network H)
  | .submit h command => ((n.hosts h).submit command).map (n.set h)
  | .act h result => ((n.hosts h).act result).map fun r =>
    { n.set h r.1 with flying := n.flying ++ r.2.toList }
  | .deliver h i => n.flying[i]?.bind fun d => ((n.hosts h).receive d).map (n.set h)
  | .receiveError h => (n.hosts h).receiveError.map (n.set h)
  | .recvFrames h => (n.hosts h).recvFrames.map (n.set h)
  | .shutdown h => some (n.set h (n.hosts h).shutdown)

/-- Batches that are submitted can be read back. -/
def Event.WellFormed : Event H → Prop
  | .submit _ (.send batch) => ∀ f ∈ batch.frames, f.WellFormed
  | _ => True

/-- All runs of transports that are new at first and are given frames that can be read back. -/
def system (H : Type) [DecidableEq H] : TransitionSystem (Network H) (Event H) :=
  (TransitionSystem.ofNext
    (fun n => (∃ addr : H → SocketAddr, n.hosts = fun h => .fromSocket (addr h)) ∧ n.flying = [])
    fun n e => n.next e).restrict fun _ e _ => e.WellFormed

/-- The datagram comes from a batch that some host has sent to an address this one was bound to. It
has the address the batch was sent from and the longest prefix of its frames that the buffer holds;
these are all frames unless the batch is larger than the buffer. -/
def Delivers (n : Network H) (h : H) (d : Datagram) : Prop :=
  ∃ g, ∃ p ∈ (n.hosts g).sent, d.remoteAddr = p.1 ∧ p.2.remoteAddr ∈ (n.hosts h).bound ∧
    (∃ k, IsGreatest {k | FitsWithin p.2.frames recvBufferSize k} k ∧
      d.frames = p.2.frames.take k) ∧
    (totalSize p.2.frames ≤ recvBufferSize → d.frames = p.2.frames)

/-- The datagram is a batch that some host has sent. -/
def Carries (n : Network H) (d : UdpDatagram) : Prop :=
  ∃ g, ∃ p ∈ (n.hosts g).sent, d = ⟨p.1, p.2.remoteAddr, p.2.frames.flatMap Frame.bytes⟩

/-- What holds of a network between two steps. -/
structure Faithful (n : Network H) : Prop where
  sound : ∀ h, (n.hosts h).Sound
  flying : ∀ d ∈ n.flying, n.Carries d
  received : ∀ h, ∀ d ∈ (n.hosts h).received ++ (n.hosts h).datagrams, n.Delivers h d

open UdpTransport

variable {n n' : Network H} {h : H} {t : UdpTransport} {e : Event H}

theorem hosts_set (g : H) : (n.set h t).hosts g = if g = h then t else n.hosts g :=
  Function.update_apply n.hosts h t g

theorem later_set (hl : Later (n.hosts h) t) (g : H) :
    Later (n.hosts g) ((n.set h t).hosts g) := by
  rw [hosts_set]
  split
  · rename_i hg
    rw [hg]
    exact hl
  · exact .refl _

omit [DecidableEq H] in
theorem Delivers.mono {d : Datagram} (hd : n.Delivers h d)
    (hl : ∀ g, Later (n.hosts g) (n'.hosts g)) : n'.Delivers h d := by
  obtain ⟨g, p, hp, ha, hb, hframes⟩ := hd
  exact ⟨g, p, (hl g).sent.subset hp, ha, (hl h).bound_subset hb, hframes⟩

omit [DecidableEq H] in
theorem Carries.mono {d : UdpDatagram} (hd : n.Carries d)
    (hl : ∀ g, Later (n.hosts g) (n'.hosts g)) : n'.Carries d := by
  obtain ⟨g, p, hp, ha⟩ := hd
  exact ⟨g, p, (hl g).sent.subset hp, ha⟩

theorem Faithful.set (hn : n.Faithful) (ht : t.Sound) (hl : Later (n.hosts h) t)
    (hr : ∀ d ∈ t.received ++ t.datagrams, n.Delivers h d) : (n.set h t).Faithful where
  sound g := by
    rw [hosts_set]
    split
    · exact ht
    · exact hn.sound g
  flying d hd := (hn.flying d hd).mono (later_set hl)
  received g d hd := by
    refine Delivers.mono ?_ (later_set hl)
    rw [hosts_set] at hd
    split at hd
    · rename_i hg
      rw [hg]
      exact hr d hd
    · exact hn.received g d hd

omit [DecidableEq H] in
theorem Faithful.delivers (hn : n.Faithful) {d : UdpDatagram} (hd : d ∈ n.flying)
    (ha : d.destination ∈ (n.hosts h).bound) :
    n.Delivers h ⟨deserializeFrames (d.payload.take recvBufferSize), d.source⟩ := by
  obtain ⟨g, p, hp, rfl⟩ := hn.flying d hd
  have hwf := (hn.sound g).sent_wf p hp
  have hread := deserializeFrames_take hwf recvBufferSize
  refine ⟨g, p, hp, rfl, ha, ⟨_, isGreatest_fitsWithin hwf recvBufferSize, hread⟩, fun hle => ?_⟩
  rw [← length_flatMap_bytes] at hle
  rw [Codec.wholeItems_of_length_le hle, List.take_length] at hread
  exact hread

theorem Faithful.step (hn : n.Faithful) (he : e.WellFormed) (hs : n.next e = some n') :
    n'.Faithful := by
  cases e with
  | submit h c =>
    obtain ⟨t, ht, rfl⟩ := Option.map_eq_some_iff.mp hs
    have hsound := (hn.sound h).submit ht fun b hb => by
      rw [hb] at he
      exact he
    simp only [UdpTransport.submit, Option.ite_none_right_eq_some, Option.some.injEq] at ht
    obtain ⟨-, rfl⟩ := ht
    exact hn.set hsound ⟨rfl, List.prefix_rfl, List.prefix_rfl⟩ (hn.received h)
  | act h result =>
    obtain ⟨⟨t, d⟩, ht, rfl⟩ := Option.map_eq_some_iff.mp hs
    have hact := (hn.sound h).acted ht
    have hrecv : ∀ d ∈ t.received ++ t.datagrams, n.Delivers h d := by
      cases hact <;> exact hn.received h
    have hset := hn.set ((hn.sound h).of_acted hact) hact.later hrecv
    refine ⟨hset.sound, fun d' hd => ?_, hset.received⟩
    rcases List.mem_append.mp hd with hd | hd
    · exact hset.flying d' hd
    · cases d with
      | none => cases hd
      | some d =>
        rw [Option.toList_some, List.mem_singleton] at hd
        obtain ⟨p, hp, heq⟩ := hact.emitted
        refine ⟨h, p, ?_, hd.trans heq⟩
        change p ∈ ((n.set h t).hosts h).sent
        rw [hosts_set, if_pos rfl]
        exact hp
  | deliver h i =>
    obtain ⟨d, hd, hs⟩ := Option.bind_eq_some_iff.mp hs
    obtain ⟨t, ht, rfl⟩ := Option.map_eq_some_iff.mp hs
    have hsound := (hn.sound h).receive ht
    simp only [UdpTransport.receive, Option.ite_none_right_eq_some, Option.some.injEq] at ht
    obtain ⟨⟨-, ha⟩, rfl⟩ := ht
    refine hn.set hsound ⟨rfl, List.prefix_rfl, List.prefix_rfl⟩ fun d' hd' => ?_
    dsimp only at hd'
    split at hd'
    · rw [← List.append_assoc] at hd'
      rcases List.mem_append.mp hd' with hd' | hd'
      · exact hn.received h d' hd'
      · rw [List.mem_singleton.mp hd']
        exact hn.delivers (List.mem_of_getElem? hd) (ha ▸ (hn.sound h).receiver_mem)
    · exact hn.received h d' hd'
  | receiveError h =>
    obtain ⟨t, ht, rfl⟩ := Option.map_eq_some_iff.mp hs
    have hsound := (hn.sound h).receiveError ht
    simp only [UdpTransport.receiveError, Option.ite_none_right_eq_some, Option.some.injEq] at ht
    obtain ⟨-, rfl⟩ := ht
    exact hn.set hsound ⟨rfl, List.prefix_rfl, List.prefix_rfl⟩ (hn.received h)
  | recvFrames h =>
    obtain ⟨t, ht, rfl⟩ := Option.map_eq_some_iff.mp hs
    have hsound := (hn.sound h).recvFrames ht
    have hrecv := hn.received h
    unfold UdpTransport.recvFrames at ht
    split at ht
    · cases ht
    · rename_i d rest hd
      cases ht
      rw [hd] at hrecv
      refine hn.set hsound ⟨rfl, List.prefix_rfl, List.prefix_rfl⟩ fun d' hd' => ?_
      rw [List.append_assoc] at hd'
      exact hrecv d' hd'
  | shutdown h =>
    cases hs
    exact hn.set { hn.sound h with } ⟨rfl, List.prefix_rfl, List.prefix_rfl⟩ (hn.received h)

theorem faithful (h : (system H).Reachable n) : n.Faithful := by
  have hinv : (system H).Invariant Faithful :=
    { init := by
        rintro ⟨hosts, flying⟩ ⟨⟨addr, rfl⟩, rfl⟩
        exact ⟨fun h => sound_fromSocket (addr h), by simp, by simp [fromSocket]⟩
      step := fun n e n' _ hn hs => hn.step hs.2 hs.1 }
  exact hinv.holds h

/-- In every run each datagram that a host has received or could receive now is a batch that some
host has sent to it, as far as the buffer holds it. -/
theorem received_was_sent (h : (system H).Reachable n) (host : H) :
    ∀ d ∈ (n.hosts host).received ++ (n.hosts host).datagrams, n.Delivers host d :=
  (faithful h).received host

/-- What the callers of a transport see: every command is answered once and in order, a batch leaves
from the address that was bound last before it, a caller is told that address, and the channels keep
to their capacity. -/
structure Orderly (t : UdpTransport) : Prop where
  answered : t.answers.map Prod.fst ++ t.commands = t.submitted
  sent_eq : t.sent = Switch.outputs t.first t.orders
  local_eq : t.localAddr = Switch.target t.first t.orders
  truthful : Truthful t.first t.answers
  bounded : t.commands.length ≤ udpChannelCapacity ∧ t.datagrams.length ≤ udpChannelCapacity

theorem commands_answered (h : (system H).Reachable n) (host : H) : Orderly (n.hosts host) := by
  have hs := (faithful h).sound host
  exact ⟨hs.answered, hs.sent_eq, hs.local_eq.trans hs.shared_eq, hs.truthful,
    hs.commands_le, hs.datagrams_le⟩

section Sample

def greeting : FrameBatch := ⟨90, [.newPush 2 0 0 9 5 [1, 2], .newFin 2 1 5 0 9]⟩

theorem wellFormed_greeting : ∀ f ∈ greeting.frames, f.WellFormed := by
  intro f hf
  simp only [greeting, List.mem_cons, List.not_mem_nil, or_false] at hf
  rcases hf with rfl | rfl
  · exact ⟨⟨by decide, by decide, by decide, by decide, by decide, by decide⟩, rfl, rfl⟩
  · exact ⟨⟨by decide, by decide, by decide, by decide, by decide, by decide⟩, rfl, rfl⟩

/-- One host sends a batch, which comes twice, and then binds another address and sends again. -/
def exchange : List (Event Bool) :=
  [.submit false (.send greeting), .submit false (.rebind 0), .submit false .getLocalAddr,
    .submit false (.send greeting), .act false (.ok 0), .deliver true 0, .deliver true 0,
    .recvFrames true, .act false (.ok 81), .act false (.ok 0), .act false (.ok 0), .deliver true 1]

theorem wellFormed_exchange : ∀ e ∈ exchange, e.WellFormed := by
  intro e he
  simp only [exchange, List.mem_cons, List.not_mem_nil, or_false] at he
  rcases he with rfl | rfl | rfl | rfl | rfl | rfl | rfl | rfl | rfl | rfl | rfl | rfl
  · exact wellFormed_greeting
  · trivial
  · trivial
  · exact wellFormed_greeting
  all_goals trivial

theorem exists_exchange : ∃ n : Network Bool, (system Bool).Reachable n ∧
    (n.hosts true).received = [⟨greeting.frames, 80⟩] ∧
    (n.hosts true).datagrams = [⟨greeting.frames, 80⟩, ⟨greeting.frames, 81⟩] ∧
    (n.hosts false).answers.map Prod.snd =
      [.ok none, .ok (some 81), .ok (some 81), .ok none] := by
  obtain ⟨n, hr, hn⟩ : ∃ n : Network Bool, (TransitionSystem.ofNext
      (fun n : Network Bool =>
        (∃ addr : Bool → SocketAddr, n.hosts = fun h => .fromSocket (addr h)) ∧ n.flying = [])
      fun n e => n.next e).Run exchange n ∧
    (n.hosts true).received = [⟨greeting.frames, 80⟩] ∧
    (n.hosts true).datagrams = [⟨greeting.frames, 80⟩, ⟨greeting.frames, 81⟩] ∧
    (n.hosts false).answers.map Prod.snd =
      [.ok none, .ok (some 81), .ok (some 81), .ok none] :=
    TransitionSystem.exists_run_of_foldlM _
      (s := ⟨fun h => .fromSocket (if h then 90 else 80), []⟩) ⟨⟨_, rfl⟩, rfl⟩ (by decide +kernel)
  exact ⟨n, (hr.restrict_of_labels wellFormed_exchange).reachable, hn⟩

theorem received_was_sent_sample : ∃ n : Network Bool,
    n.Delivers true ⟨greeting.frames, 80⟩ ∧ n.Delivers true ⟨greeting.frames, 81⟩ := by
  obtain ⟨n, hr, hreceived, hwaiting, -⟩ := exists_exchange
  have hall := received_was_sent hr true
  rw [hreceived, hwaiting] at hall
  exact ⟨n, hall _ (by simp), hall _ (by simp)⟩

theorem commands_answered_sample : ∃ n : Network Bool, (n.hosts false).answers.map Prod.snd =
    [.ok none, .ok (some 81), .ok (some 81), .ok none] ∧ Orderly (n.hosts false) := by
  obtain ⟨n, hr, -, -, hanswers⟩ := exists_exchange
  exact ⟨n, hanswers, commands_answered hr false⟩

end Sample

end Network

end Kestrel
