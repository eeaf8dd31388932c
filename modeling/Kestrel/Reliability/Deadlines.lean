import Kestrel.Endpoint.Timing
import Kestrel.Reliability.Retries

/-! # Deadlines

The managers say when the next frame is due, whether one is due, and which frames are due. The
second manager means the same every time. The first manager counts a packet as due from its
deadline on, but sends it again only after it: at the deadline itself nothing may happen.
-/

namespace Kestrel

open Std (ExtTreeMap)

namespace RetransmissionManager

variable (m : RetransmissionManager)

/-- The earliest deadline of both managers. -/
def nextRetransmissionDeadline (rto : Duration) : Option Instant :=
  match m.sackManager.nextRtoDeadline rto, m.simpleRetxManager.nextRetransmissionDeadline with
  | some sack, some simple => some (min sack simple)
  | some sack, none => some sack
  | none, some simple => some simple
  | none, none => none

/-- The frames to send again, and an event if there are any. -/
def checkRetransmissionTimeouts (rto : Duration) (now : Instant) (c : RetransmissionContext) :
    List TimeoutEvent × List Frame × RetransmissionManager :=
  let (frames, m) := m.checkForRetransmissions rto now c
  (if frames.isEmpty then [] else [.retransmissionTimeout], frames, m)

/-- Every packet of the second manager waits for some time. -/
def Waits : Prop :=
  ∀ (q : ℕ) (p : SimpleInFlightPacket), m.simpleRetxManager.inFlightSimple[q]? = some p →
    0 < p.retryInterval

variable {m} {rto : Duration} {now : Instant} {c : RetransmissionContext}

theorem frames_checkRetransmissionTimeouts_ne_nil :
    (m.checkRetransmissionTimeouts rto now c).2.1 ≠ [] ↔
      (∃ (q : ℕ) (p : SackInFlightPacket), m.sackManager.inFlightPackets[q]? = some p ∧
        now - p.lastSentAt > rto) ∨
      ∃ (q : ℕ) (p : SimpleInFlightPacket), m.simpleRetxManager.inFlightSimple[q]? = some p ∧
        now - p.lastSentAt ≥ p.retryInterval ∧ p.retryCount < p.maxRetries := by
  have hsack := (SackManager.rebuilt_checkForRto m.sackManager rto now c).length_eq
  have hsimple :=
    (SimpleRetransmissionManager.rebuilt_checkForRetransmissions m.simpleRetxManager now c).length_eq
  have hframes : (m.checkRetransmissionTimeouts rto now c).2.1 =
      (m.sackManager.checkForRto rto now c).1 ++
        (m.simpleRetxManager.checkForRetransmissions now c).1 := rfl
  rw [hframes, Ne, List.append_eq_nil_iff, not_and_or, ← List.length_eq_zero_iff, ← hsack,
    ← List.length_eq_zero_iff, ← hsimple, List.length_eq_zero_iff, List.length_eq_zero_iff,
    List.eq_nil_iff_forall_not_mem, List.eq_nil_iff_forall_not_mem]
  simp only [not_forall, not_not, SackManager.mem_lateNumbers,
    SimpleRetransmissionManager.mem_retriedNumbers]

theorem Waits.addInFlightPacket (h : m.Waits) (f : Frame) (now : Instant) :
    (m.addInFlightPacket f now).Waits := by
  unfold RetransmissionManager.addInFlightPacket
  split
  · exact h
  · intro q p hp
    dsimp only [SimpleRetransmissionManager.addPacket] at hp
    split at hp
    · rename_i seq n d i _ hmode _
      rw [SortedMap.getElem?_insert] at hp
      split at hp
      · cases hp
        cases f <;> cases hmode <;> exact Nat.mul_pos (by decide) (by decide)
      · exact h q p hp
    · exact h q p hp
  · exact h

theorem Waits.apply (h : m.Waits) (op : Op) : (m.apply op).2.Waits := by
  cases op with
  | addInFlightPacket f now => exact h.addInFlightPacket f now
  | processAck n rs now c =>
    intro q p hp
    have hq : (m.processAck n rs now c).2.simpleRetxManager.inFlightSimple[q]? =
        if AckNames n rs q then none else m.simpleRetxManager.inFlightSimple[q]? :=
      SimpleRetransmissionManager.getElem?_acknowledge
    rw [RetransmissionManager.apply, hq] at hp
    split at hp
    · cases hp
    · exact h q p hp
  | checkForRetransmissions rto now c =>
    intro q p hp
    have hq := SimpleRetransmissionManager.getElem?_checkForRetransmissions m.simpleRetxManager now
      c q
    change (m.simpleRetxManager.checkForRetransmissions now c).2.inFlightSimple[q]? = some p at hp
    rw [hq] at hp
    obtain ⟨p₀, hp₀, hc⟩ := Option.bind_eq_some_iff.mp hp
    have hwait := h q p₀ hp₀
    unfold SimpleInFlightPacket.checked at hc
    split_ifs at hc <;> cases hc <;> exact hwait
  | onAckElicitingPacketReceived | onAckSent => exact h
  | clear =>
    intro q p hp
    simp [RetransmissionManager.apply, clear, SimpleRetransmissionManager.clear] at hp

variable {config : Config}

theorem waits (h : (system config).Reachable m) : m.Waits := by
  have hinv : (system config).Invariant Waits :=
    { init := by
        rintro _ rfl q p hp
        simp [new, SimpleRetransmissionManager.new] at hp
      step := by
        rintro m op _ - hm rfl
        exact hm.apply op }
  exact hinv.holds h

section Sample

end Sample

end RetransmissionManager

end Kestrel
