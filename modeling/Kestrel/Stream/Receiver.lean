import Kestrel.Reliability.ReceiveBuffer
import Kestrel.Lib.Fifo

/-! # A receiver that follows a sender

A sender numbers its items from zero. A receive buffer follows the sender when it holds nothing
but those items under their numbers. Receiving one more of them and reassembling keep this, and
reassembly hands over the payloads in the order of the numbers.
-/

namespace Kestrel

def PacketOrFin.payload? : PacketOrFin → Option Bytes
  | .push p => some p
  | .fin => none

def payloads (items : List PacketOrFin) : List Bytes := items.filterMap PacketOrFin.payload?

@[simp] theorem payloads_append (items more : List PacketOrFin) :
    payloads (items ++ more) = payloads items ++ payloads more := by
  simp [payloads]

@[simp] theorem payloads_map_push (chunks : List Bytes) :
    payloads (chunks.map .push) = chunks := by
  induction chunks with
  | nil => rfl
  | cons p chunks ih => exact congrArg (p :: ·) ih

theorem payloads_take_succ {items : List PacketOrFin} {n : ℕ} {x : PacketOrFin}
    (h : items[n]? = some x) :
    payloads (items.take (n + 1)) = payloads (items.take n) ++ x.payload?.toList := by
  rw [List.take_add_one, h, payloads_append]
  cases x <;> rfl

namespace ReceiveBuffer

variable {items : List PacketOrFin} {b b' : ReceiveBuffer}

/-- The buffer holds items of the sender under their numbers; if it stopped at a FIN, that was
the last item it took. -/
structure Follows (items : List PacketOrFin) (b : ReceiveBuffer) : Prop where
  buffered : ∀ (q : ℕ) (x : PacketOrFin), b.received[q]? = some x → items[q]? = some x
  ahead : b.KeysAhead
  next_le : b.nextSequence ≤ items.length
  fin : b.finReached = true → ∃ n, b.nextSequence = n + 1 ∧ items[n]? = some .fin

theorem follows_new (items : List PacketOrFin) (capacity : ℕ) : (new capacity).Follows items where
  buffered := by simp [new]
  ahead := by simp [KeysAhead, new]
  next_le := Nat.zero_le _
  fin := by simp [new]

theorem Follows.append (h : b.Follows items) (more : List PacketOrFin) :
    b.Follows (items ++ more) where
  buffered q x hq := by
    have hi := h.buffered q x hq
    rwa [List.getElem?_append_left (List.getElem?_eq_some_iff.mp hi).1]
  ahead := h.ahead
  next_le := h.next_le.trans (by simp)
  fin hf := by
    obtain ⟨n, hn, hi⟩ := h.fin hf
    exact ⟨n, hn, by rwa [List.getElem?_append_left (List.getElem?_eq_some_iff.mp hi).1]⟩

theorem Follows.receive (h : b.Follows items) {q : ℕ} {x : PacketOrFin}
    (hx : items[q]? = some x) : (b.receive q x).2.Follows items where
  buffered k y hk := by
    rcases receive_getElem? hk with hk | ⟨rfl, rfl, -⟩
    · exact h.buffered k y hk
    · exact hx
  ahead := h.ahead.receive q x
  next_le := by
    rw [receive_nextSequence]
    exact h.next_le
  fin hf := by
    rw [receive_finReached] at hf
    rw [receive_nextSequence]
    exact h.fin hf

theorem Recorded.receive {k : ℕ} (h : b.Recorded k) (q : ℕ) (x : PacketOrFin) :
    (b.receive q x).2.Recorded k := by
  rcases h with h | ⟨p, hp⟩
  · left
    rwa [receive_nextSequence]
  · exact Or.inr ⟨p, receive_keeps hp⟩

theorem recorded_receive (hf : b.finReached = false) (q : ℕ) (x : PacketOrFin) :
    (b.receive q x).2.Recorded q := by
  by_cases hq : q < b.nextSequence
  · left
    rwa [receive_nextSequence]
  · cases hr : b.received[q]? with
    | some y => exact Or.inr ⟨y, receive_keeps hr⟩
    | none =>
      have ha : b.accepts q = true := accepts_iff.mpr ⟨hf, by omega, hr⟩
      right
      rw [receive_of_accepts ha]
      exact ⟨x, by rw [SortedMap.getElem?_insert, if_pos rfl]⟩

/-- One packet taken out of a buffer that follows a sender of fewer than `2^32` items. -/
theorem Follows.pop (h : b.Follows items) (hlen : items.length < u32Size) {x : PacketOrFin}
    (hp : b.tryPopNextContiguous = some (x, b')) :
    items[b.nextSequence]? = some x ∧ b'.nextSequence = b.nextSequence + 1 ∧
      b'.finReached = b.finReached ∧
      (∀ (q : ℕ) (y : PacketOrFin), b'.received[q]? = some y → items[q]? = some y) ∧ b'.KeysAhead ∧
      ∀ k, b.Recorded k → b'.Recorded k := by
  obtain ⟨hf, rfl⟩ := tryPopNextContiguous_eq_some.mp hp
  have hx := h.buffered _ _ (SortedMap.first_eq_some_iff.mp hf).1
  have hlt := (List.getElem?_eq_some_iff.mp hx).1
  have hn : (b.nextSequence + 1) % u32Size = b.nextSequence + 1 := Nat.mod_eq_of_lt (by omega)
  have her {q : ℕ} {y : PacketOrFin} (hq : (b.received.erase b.nextSequence)[q]? = some y) :
      b.nextSequence ≠ q ∧ b.received[q]? = some y := by
    rw [SortedMap.getElem?_erase] at hq
    split at hq
    · cases hq
    · exact ⟨‹_›, hq⟩
  refine ⟨hx, hn, rfl, fun q y hq => h.buffered q y (her hq).2, fun q y hq => ?_, ?_⟩
  · obtain ⟨hne, hq⟩ := her hq
    have := h.ahead q y hq
    dsimp only
    omega
  · rintro k (hk | ⟨y, hy⟩)
    · left
      dsimp only
      omega
    · by_cases hk : b.nextSequence = k
      · left
        dsimp only
        omega
      · right
        exact ⟨y, by rw [SortedMap.getElem?_erase, if_neg hk, hy]⟩

/-- What reassembly does to a buffer that follows a sender: it hands over the payloads of the
items it passes. -/
structure Reassembled (items : List PacketOrFin) (b : ReceiveBuffer) (data : List Bytes)
    (finSeen : Bool) (b' : ReceiveBuffer) : Prop where
  follows : b'.Follows items
  next_le : b.nextSequence ≤ b'.nextSequence
  payloads_eq : payloads (items.take b'.nextSequence) =
    payloads (items.take b.nextSequence) ++ data
  fin_iff : b'.finReached = (b.finReached || finSeen)
  recorded : finSeen = false → ∀ k, b.Recorded k → b'.Recorded k
  drained : b'.finReached = false → b'.received[b'.nextSequence]? = none

theorem Follows.reassembled (h : b.Follows items) (hlen : items.length < u32Size) :
    Reassembled items b (b.reassemble.1.getD []) b.reassemble.2.1 b.reassemble.2.2 := by
  unfold reassemble
  split
  · rename_i hf
    exact ⟨h, le_rfl, by simp, by simp, fun _ _ hk => hk, fun hn => by rw [hf] at hn; cases hn⟩
  · rename_i hf
    rw [Bool.not_eq_true] at hf
    generalize hl : reassembleLoop b.received.size b = r
    obtain ⟨data, finSeen, b'⟩ := r
    have hdata : (if data.isEmpty = true then none else some data : Option (List Bytes)).getD [] =
        data := by
      split
      · exact (List.isEmpty_iff.mp ‹_›).symm
      · rfl
    have hloop := reassembleLoop_rule
      (fun d c => c.Follows items ∧ c.finReached = false ∧
        b.nextSequence ≤ c.nextSequence ∧
        payloads (items.take c.nextSequence) = payloads (items.take b.nextSequence) ++ d ∧
        ∀ k, b.Recorded k → c.Recorded k)
      (fun d c p c' ⟨hc, hcf, hle, hpay, hrec⟩ hp => by
        obtain ⟨hx, hn, hf', hbuf, hah, hrec'⟩ := hc.pop hlen hp
        have hlt := (List.getElem?_eq_some_iff.mp hx).1
        refine ⟨⟨hbuf, hah, by omega, fun h => ?_⟩, hf'.trans hcf, by omega, ?_,
          fun k hk => hrec' k (hrec k hk)⟩
        · rw [hf', hcf] at h
          cases h
        · rw [hn, payloads_take_succ hx, hpay, List.append_assoc]
          rfl)
      (d := []) ⟨h, hf, le_rfl, by simp, fun _ hk => hk⟩ hl
    rw [List.nil_append] at hloop
    rcases hloop with ⟨rfl, hc, hcf, hle, hpay, hrec⟩ |
      ⟨rfl, b₁, b₂, ⟨hc, hcf, hle, hpay, -⟩, hp, rfl⟩
    · have hd := (tryPopNextContiguous_eq_none hc.ahead).mp (reassembleLoop_drained le_rfl hl)
      exact ⟨hc, hle, by rw [hdata]; exact hpay, by simp [hf, hcf], fun _ => hrec, fun _ => hd⟩
    · obtain ⟨hx, hn, -, -, -, -⟩ := hc.pop hlen hp
      have hlt := (List.getElem?_eq_some_iff.mp hx).1
      refine ⟨⟨by simp, by simp [KeysAhead], by dsimp only; omega, fun _ => ⟨_, hn, hx⟩⟩, ?_, ?_,
        by simp, by simp, by simp⟩
      · dsimp only
        omega
      · dsimp only
        rw [hn, payloads_take_succ hx, hdata, hpay]
        simp [PacketOrFin.payload?]

theorem Follows.nextSequence_of_finReached (h : b.Follows items)
    (hfin : ∀ q, items[q]? = some .fin → q + 1 = items.length) (hf : b.finReached = true) :
    b.nextSequence = items.length := by
  obtain ⟨n, hn, hi⟩ := h.fin hf
  rw [hn, hfin n hi]

/-- A receiver that has recorded every item of a sender whose FIN comes last, and has nothing to
take out, has taken them all. -/
theorem Follows.complete (h : b.Follows items)
    (hfin : ∀ q, items[q]? = some .fin → q + 1 = items.length)
    (hdrained : b.finReached = false → b.received[b.nextSequence]? = none)
    (hrec : ∀ q, q < items.length → b.Recorded q) : b.nextSequence = items.length := by
  cases hf : b.finReached with
  | true => exact h.nextSequence_of_finReached hfin hf
  | false =>
    by_contra hne
    have hle := h.next_le
    rcases hrec b.nextSequence (by omega) with hlt | ⟨p, hp⟩
    · omega
    · rw [hdrained hf] at hp
      cases hp

theorem Follows.recorded_receive (h : b.Follows items)
    (hfin : ∀ q, items[q]? = some .fin → q + 1 = items.length) {q : ℕ} {x : PacketOrFin}
    (hx : items[q]? = some x) : (b.receive q x).2.Recorded q := by
  cases hf : b.finReached with
  | true =>
    have hlt := (List.getElem?_eq_some_iff.mp hx).1
    left
    rwa [receive_nextSequence, h.nextSequence_of_finReached hfin hf]
  | false => exact ReceiveBuffer.recorded_receive hf q x

theorem Reassembled.recorded_of_recorded {data : List Bytes} {finSeen : Bool}
    (h : Reassembled items b data finSeen b')
    (hfin : ∀ q, items[q]? = some .fin → q + 1 = items.length) {q : ℕ} (hq : q < items.length)
    (hrec : b.Recorded q) : b'.Recorded q := by
  cases finSeen with
  | true =>
    left
    rwa [h.follows.nextSequence_of_finReached hfin (by rw [h.fin_iff, Bool.or_true])]
  | false => exact h.recorded rfl q hrec

end ReceiveBuffer

end Kestrel
