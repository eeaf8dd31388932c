import Kestrel.Reliability.ReceiveBuffer

/-! # The receive window

What a receive buffer holds and what it advertises, over any sequence of calls. The buffer takes
whatever is new, so both are right exactly as long as the peer keeps to the window.
-/

namespace Kestrel

namespace ReceiveBuffer

variable {b : ReceiveBuffer}

inductive Call where
  | receivePush (sequenceNumber : ℕ) (payload : Bytes)
  | receiveFin (sequenceNumber : ℕ)
  | reassemble
  deriving DecidableEq, Repr

def call (b : ReceiveBuffer) : Call → ReceiveBuffer
  | .receivePush q payload => (b.receivePush q payload).2
  | .receiveFin q => (b.receiveFin q).2
  | .reassemble => b.reassemble.2.2

def after (capacity : ℕ) (calls : List Call) : ReceiveBuffer := calls.foldl call (new capacity)

/-- No more packets are buffered than the capacity allows, and the window is what is left. -/
structure Honest (b : ReceiveBuffer) : Prop where
  size_le : b.received.size ≤ b.capacity
  window_eq : b.windowSize = b.capacity - b.received.size

/-- A packet that is new comes while there is room for it. -/
def HasRoom (b : ReceiveBuffer) : Call → Prop
  | .receivePush q _ | .receiveFin q => b.accepts q = true → b.received.size < b.capacity
  | .reassemble => True

theorem size_receive (q : ℕ) (p : PacketOrFin) :
    (b.receive q p).2.received.size = b.received.size + if b.accepts q then 1 else 0 := by
  cases ha : b.accepts q with
  | false =>
    rw [receive_of_not_accepts ha]
    rfl
  | true =>
    have hnone := (accepts_iff.mp ha).2.2
    have hc : b.received.contains q = false := by
      rw [Std.ExtTreeMap.contains_eq_isSome_getElem?, hnone]
      rfl
    rw [receive_of_accepts ha]
    simp [Std.ExtTreeMap.size_insert, hc]

theorem size_reassemble_le : b.reassemble.2.2.received.size ≤ b.received.size := by
  refine reassemble_rule (P := fun c => c.received.size ≤ b.received.size) ?_ ?_ le_rfl
  · intro c p c' hc hp
    obtain ⟨-, rfl⟩ := tryPopNextContiguous_eq_some.mp hp
    exact Std.ExtTreeMap.size_erase_le.trans hc
  · intro c _
    exact Nat.zero_le _

theorem capacity_reassemble : b.reassemble.2.2.capacity = b.capacity := by
  refine reassemble_rule (P := fun c => c.capacity = b.capacity) ?_ ?_ rfl
  · intro c p c' hc hp
    obtain ⟨-, rfl⟩ := tryPopNextContiguous_eq_some.mp hp
    exact hc
  · intro c hc
    exact hc

@[simp] theorem capacity_call (c : Call) : (b.call c).capacity = b.capacity := by
  cases c with
  | receivePush q payload => exact receive_capacity q _
  | receiveFin q => exact receive_capacity q _
  | reassemble => exact capacity_reassemble

@[simp] theorem capacity_after (capacity : ℕ) (calls : List Call) :
    (after capacity calls).capacity = capacity := by
  induction calls using List.reverseRecOn with
  | nil => rfl
  | append_singleton calls c ih =>
    rw [after, List.foldl_append]
    exact (capacity_call c).trans ih

theorem size_call_le_iff (h : b.received.size ≤ b.capacity) (c : Call) :
    (b.call c).received.size ≤ b.capacity ↔ b.HasRoom c := by
  have hreceive (q : ℕ) (p : PacketOrFin) : (b.receive q p).2.received.size ≤ b.capacity ↔
      (b.accepts q = true → b.received.size < b.capacity) := by
    rw [size_receive]
    cases b.accepts q with
    | false => simpa using h
    | true => exact ⟨fun hs _ => hs, fun hs => hs rfl⟩
  cases c with
  | receivePush q payload => exact hreceive q _
  | receiveFin q => exact hreceive q _
  | reassemble => exact iff_of_true (size_reassemble_le.trans h) trivial

/-- The window is not truncated if the capacity has 16 bits. -/
theorem honest_of_size_le (hc : b.capacity < u16Size) (h : b.received.size ≤ b.capacity) :
    b.Honest where
  size_le := h
  window_eq := Nat.mod_eq_of_lt (by omega)

/-- All along any sequence of calls the buffer keeps to its capacity and advertises the room left,
exactly if the capacity has 16 bits and every packet that was new came while there was room. -/
theorem honest_iff (capacity : ℕ) (calls : List Call) :
    (∀ n, (after capacity (calls.take n)).Honest) ↔ capacity < u16Size ∧
      ∀ n c, calls[n]? = some c → (after capacity (calls.take n)).HasRoom c := by
  have hnext (n : ℕ) (c : Call) (hc : calls[n]? = some c) :
      after capacity (calls.take (n + 1)) = (after capacity (calls.take n)).call c := by
    rw [List.take_add_one, hc, after, List.foldl_append]
    rfl
  constructor
  · intro h
    refine ⟨?_, fun n c hc => ?_⟩
    · have hzero := (h 0).window_eq
      rw [capacity_after] at hzero
      change capacity % u16Size = capacity at hzero
      exact hzero ▸ Nat.mod_lt _ (by decide)
    · have hsize := (h (n + 1)).size_le
      rw [hnext n c hc, capacity_call] at hsize
      exact (size_call_le_iff (h n).size_le c).mp hsize
  · rintro ⟨hcap, hroom⟩ n
    refine honest_of_size_le (by rwa [capacity_after]) ?_
    induction n with
    | zero => exact Nat.zero_le _
    | succ n ih =>
      cases hc : calls[n]? with
      | none => rwa [List.take_add_one, hc, Option.toList_none, List.append_nil]
      | some c =>
        rw [hnext n c hc, capacity_call]
        exact (size_call_le_iff ih c).mpr (hroom n c hc)

/-- A buffer for one packet takes two. -/
theorem buffer_overfilled :
    ¬ (after 1 [.receivePush 1 [], .receivePush 2 []]).Honest := by
  intro h
  have hsize := h.size_le
  revert hsize
  decide

end ReceiveBuffer

end Kestrel
