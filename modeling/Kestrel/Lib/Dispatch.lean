import Mathlib.Algebra.BigOperators.Group.Finset.Basic
import Mathlib.Algebra.Order.BigOperators.Group.Finset
import Mathlib.Algebra.Ring.Nat
import Mathlib.Data.Fintype.BigOperators

/-! # Dispatch to bounded queues

Items go to one of several bounded queues, or are refused. Routes say for each item what becomes of
it; a queue then has at its end, in order, what was sent to it. Writing in chunks, of which a full
queue keeps only what there is room for, is one way to route.
-/

namespace Dispatch

/-- Items with the queue that each of them goes to, if any. -/
abbrev Routes (ι α : Type*) := List (α × Option ι)

namespace Routes

variable {ι α : Type*}

def refused (r : Routes ι α) : List α := (r.filter fun x => x.2.isNone).map Prod.fst

/-- The number of items that go to some queue. -/
def accepted (r : Routes ι α) : ℕ := r.countP fun x => x.2.isSome

/-- Items that all go the same way. -/
def toward (d : Option ι) (xs : List α) : Routes ι α := xs.map fun x => (x, d)

/-- A chunk of which a queue takes the first items. -/
def ofChunk (i : ι) (xs : List α) (count : ℕ) : Routes ι α :=
  toward (some i) (xs.take count) ++ toward none (xs.drop count)

@[simp] theorem refused_nil : refused ([] : Routes ι α) = [] := rfl

@[simp] theorem accepted_nil : accepted ([] : Routes ι α) = 0 := rfl

@[simp] theorem accepted_append (r r' : Routes ι α) :
    accepted (r ++ r') = accepted r + accepted r' := by
  simp [accepted]

@[simp] theorem map_fst_toward (d : Option ι) (xs : List α) :
    (toward d xs).map Prod.fst = xs := by
  simp [toward, Function.comp_def]

@[simp] theorem accepted_toward_none (xs : List α) :
    accepted (toward (none : Option ι) xs) = 0 := by
  simp [accepted, toward]

@[simp] theorem accepted_toward_some (i : ι) (xs : List α) :
    accepted (toward (some i) xs) = xs.length := by
  simp [accepted, toward, List.countP_map, Function.comp_def]

@[simp] theorem map_fst_ofChunk (i : ι) (xs : List α) (count : ℕ) :
    (ofChunk i xs count).map Prod.fst = xs := by
  rw [ofChunk, List.map_append, map_fst_toward, map_fst_toward, List.take_append_drop]

@[simp] theorem accepted_ofChunk (i : ι) (xs : List α) (count : ℕ) :
    accepted (ofChunk i xs count) = min count xs.length := by
  simp [ofChunk]

theorem accepted_add_length_refused (r : Routes ι α) :
    accepted r + (refused r).length = r.length := by
  induction r with
  | nil => rfl
  | cons x r ih =>
    obtain ⟨a, _ | i⟩ := x <;> simp [accepted, refused] at ih ⊢ <;> omega

theorem refused_eq_nil_iff {r : Routes ι α} : refused r = [] ↔ accepted r = r.length := by
  rw [← accepted_add_length_refused r, ← List.length_eq_zero_iff]
  omega

theorem refused_of_accepted_eq_zero {r : Routes ι α} (h : accepted r = 0) :
    refused r = r.map Prod.fst := by
  rw [accepted, List.countP_eq_zero] at h
  rw [refused, List.filter_eq_self.mpr fun x hx => by simpa using h x hx]

section Sent

variable [DecidableEq ι] (i : ι)

def sent (r : Routes ι α) : List α := (r.filter fun x => x.2 = some i).map Prod.fst

@[simp] theorem sent_nil : sent i ([] : Routes ι α) = [] := rfl

@[simp] theorem sent_append (r r' : Routes ι α) : sent i (r ++ r') = sent i r ++ sent i r' := by
  simp [sent]

@[simp] theorem sent_toward_none (xs : List α) : sent i (toward none xs) = [] := by
  simp [sent, toward, List.filter_map, Function.comp_def]

@[simp] theorem sent_toward_some (j : ι) (xs : List α) :
    sent i (toward (some j) xs) = if i = j then xs else [] := by
  by_cases hij : i = j
  · simp [sent, toward, List.filter_map, Function.comp_def, hij]
  · simp [sent, toward, List.filter_map, Function.comp_def, hij, Ne.symm hij]

@[simp] theorem sent_ofChunk (j : ι) (xs : List α) (count : ℕ) :
    sent i (ofChunk j xs count) = if i = j then xs.take count else [] := by
  simp [ofChunk]

theorem sum_length_sent [Fintype ι] (r : Routes ι α) :
    ∑ i, (sent i r).length = accepted r := by
  induction r with
  | nil => simp
  | cons x r ih =>
    have hcons : x :: r = [x] ++ r := rfl
    simp only [hcons, sent_append, List.length_append, accepted_append, Finset.sum_add_distrib, ih]
    obtain ⟨a, _ | j⟩ := x <;> simp [sent, accepted, List.filter_cons, apply_ite List.length]

end Sent

end Routes

open Routes

/-- Queues that hold a limited number of items. -/
@[ext] structure Queues (ι α : Type*) where
  queue : ι → List α
  capacity : ι → ℕ

namespace Queues

variable {ι α : Type*} (q : Queues ι α)

def room (i : ι) : ℕ := q.capacity i - (q.queue i).length

/-- No queue can take anything. -/
def Full : Prop := ∀ i, q.room i = 0

variable [DecidableEq ι]

/-- The queues after items have taken their ways. -/
def deliver (r : Routes ι α) : Queues ι α := { q with queue := fun i => q.queue i ++ sent i r }

/-- Every queue has room for what is sent to it. -/
def Fits (r : Routes ι α) : Prop := ∀ i, (sent i r).length ≤ q.room i

def push (i : ι) (xs : List α) : Queues ι α :=
  { q with queue := Function.update q.queue i (q.queue i ++ xs) }

/-- Writes a chunk to a queue, which takes what it has room for. -/
def write (i : ι) (xs : List α) : Queues ι α := q.push i (xs.take (q.room i))

def writeAll (chunks : List (ι × List α)) : Queues ι α :=
  chunks.foldl (fun q c => q.write c.1 c.2) q

/-- What becomes of the items of chunks. -/
def routes (q : Queues ι α) : List (ι × List α) → Routes ι α
  | [] => []
  | (i, xs) :: chunks => ofChunk i xs (q.room i) ++ (q.write i xs).routes chunks

/-- The items of the chunks for a queue. -/
def destined (i : ι) (chunks : List (ι × List α)) : List α :=
  (chunks.filter fun c => c.1 = i).flatMap Prod.snd

theorem destined_singleton (i j : ι) (xs : List α) :
    destined i [(j, xs)] = if i = j then xs else [] := by
  by_cases hij : i = j
  · simp [destined, hij]
  · simp [destined, hij, Ne.symm hij]

variable {q} {r : Routes ι α} {i : ι} {xs : List α} {chunks : List (ι × List α)}

@[simp] theorem deliver_nil : q.deliver [] = q := by simp [deliver]

theorem deliver_append (r r' : Routes ι α) : q.deliver (r ++ r') = (q.deliver r).deliver r' := by
  simp [deliver]

theorem deliver_toward_none (xs : List α) : q.deliver (toward none xs) = q := by simp [deliver]

theorem deliver_toward_some (i : ι) (xs : List α) :
    q.deliver (toward (some i) xs) = q.push i xs := by
  ext1
  · funext j
    by_cases hji : j = i
    · subst hji
      simp [deliver, push]
    · simp [deliver, push, hji]
  · rfl

theorem deliver_ofChunk (i : ι) (xs : List α) :
    q.deliver (ofChunk i xs (q.room i)) = q.write i xs := by
  rw [ofChunk, deliver_append, deliver_toward_some, deliver_toward_none]
  rfl

@[simp] theorem push_nil (i : ι) : q.push i [] = q := by simp [push]

@[simp] theorem write_nil (i : ι) : q.write i [] = q := by simp [write]

theorem deliver_routes : q.deliver (q.routes chunks) = q.writeAll chunks := by
  induction chunks generalizing q with
  | nil => exact deliver_nil
  | cons c chunks ih =>
    obtain ⟨i, xs⟩ := c
    rw [routes, deliver_append, deliver_ofChunk, ih]
    rfl

theorem map_fst_routes : (q.routes chunks).map Prod.fst = chunks.flatMap Prod.snd := by
  induction chunks generalizing q with
  | nil => rfl
  | cons c chunks ih =>
    obtain ⟨i, xs⟩ := c
    rw [routes, List.map_append, map_fst_ofChunk, ih]
    rfl

theorem room_deliver (r : Routes ι α) (i : ι) :
    (q.deliver r).room i = q.room i - (sent i r).length := by
  simp [room, deliver, Nat.sub_sub]

theorem Fits.append {r' : Routes ι α} (h : q.Fits r) (h' : (q.deliver r).Fits r') :
    q.Fits (r ++ r') := by
  intro i
  have hle := h i
  have hle' := h' i
  rw [room_deliver] at hle'
  rw [sent_append, List.length_append]
  omega

theorem fits_toward_some {x : α} (h : 0 < q.room i) : q.Fits (toward (some i) [x]) := by
  intro j
  rw [sent_toward_some]
  split
  · rename_i hji
    rw [hji]
    exact h
  · exact Nat.zero_le _

theorem fits_toward_none (xs : List α) : q.Fits (toward none xs) := by simp [Fits]

theorem room_write (i j : ι) (xs : List α) :
    (q.write i xs).room j = q.room j - if j = i then xs.length else 0 := by
  rw [← deliver_ofChunk, room_deliver, sent_ofChunk]
  split
  · rename_i hji
    rw [List.length_take, hji]
    omega
  · rfl

theorem sent_routes (i : ι) : sent i (q.routes chunks) = (destined i chunks).take (q.room i) := by
  induction chunks generalizing q with
  | nil => simp [routes, destined]
  | cons c chunks ih =>
    obtain ⟨j, xs⟩ := c
    rw [routes, sent_append, sent_ofChunk, ih, room_write]
    by_cases hij : i = j
    · subst hij
      simp [destined, List.take_append]
    · simp [destined, hij, Ne.symm hij]

theorem length_sent_routes (i : ι) :
    (sent i (q.routes chunks)).length = min (q.room i) (destined i chunks).length := by
  rw [sent_routes, List.length_take]

theorem fits_routes (chunks : List (ι × List α)) : q.Fits (q.routes chunks) := by
  intro i
  rw [length_sent_routes]
  exact min_le_left _ _

theorem sum_length_destined [Fintype ι] (chunks : List (ι × List α)) :
    ∑ i, (destined i chunks).length = (chunks.flatMap Prod.snd).length := by
  induction chunks with
  | nil => simp [destined]
  | cons c chunks ih =>
    obtain ⟨j, xs⟩ := c
    have hcons (i : ι) : (destined i ((j, xs) :: chunks)).length =
        (if i = j then xs.length else 0) + (destined i chunks).length := by
      by_cases hij : i = j
      · simp [destined, hij]
      · simp [destined, hij, Ne.symm hij]
    simp only [hcons, Finset.sum_add_distrib, ih, Finset.sum_ite_eq', Finset.mem_univ, if_true,
      List.flatMap_cons, List.length_append]

theorem full_writeAll_iff :
    (q.writeAll chunks).Full ↔ ∀ i, q.room i ≤ (destined i chunks).length := by
  rw [← deliver_routes]
  refine forall_congr' fun i => ?_
  rw [room_deliver, length_sent_routes]
  omega

section Fintype

variable [Fintype ι]

theorem accepted_eq_of_deliver_eq {r r' : Routes ι α} (h : q.deliver r = q.deliver r') :
    accepted r = accepted r' := by
  rw [← sum_length_sent, ← sum_length_sent]
  refine Finset.sum_congr rfl fun i _ => ?_
  have hq : q.queue i ++ sent i r = q.queue i ++ sent i r' := congrFun (congrArg queue h) i
  rw [List.append_cancel_left hq]

/-- No item of the chunks is refused exactly if each queue has room for those destined for it. -/
theorem refused_routes_eq_nil_iff :
    refused (q.routes chunks) = [] ↔ ∀ i, (destined i chunks).length ≤ q.room i := by
  have hlength : (q.routes chunks).length = ∑ i, (destined i chunks).length := by
    rw [sum_length_destined, ← map_fst_routes (q := q), List.length_map]
  have hle : ∀ i ∈ Finset.univ,
      min (q.room i) (destined i chunks).length ≤ (destined i chunks).length :=
    fun _ _ => min_le_right _ _
  rw [refused_eq_nil_iff, hlength, ← sum_length_sent]
  simp only [length_sent_routes]
  rw [Finset.sum_eq_sum_iff_of_le hle]
  simp

/-- What accepts items until all queues are full accepts them all exactly if there is room. -/
theorem refused_eq_nil_iff_of_full (hroom : q.Fits r)
    (hfull : refused r ≠ [] → (q.deliver r).Full) :
    refused r = [] ↔ r.length ≤ ∑ i, q.room i := by
  have hle : accepted r ≤ ∑ i, q.room i := by
    rw [← sum_length_sent]
    exact Finset.sum_le_sum fun i _ => hroom i
  constructor
  · intro h
    rwa [← refused_eq_nil_iff.mp h]
  · intro h
    by_contra hne
    have hsum : ∑ i, q.room i ≤ accepted r := by
      rw [← sum_length_sent]
      refine Finset.sum_le_sum fun i _ => ?_
      have hzero := hfull hne i
      rw [room_deliver] at hzero
      omega
    have hlt := List.length_pos_iff.mpr hne
    have hadd := accepted_add_length_refused r
    omega

theorem deliver_eq_self_iff : q.deliver r = q ↔ accepted r = 0 := by
  constructor
  · intro h
    exact accepted_eq_of_deliver_eq (h.trans deliver_nil.symm)
  · intro h
    rw [← sum_length_sent, Finset.sum_eq_zero_iff] at h
    ext1
    · funext i
      have hsent : sent i r = [] := List.length_eq_zero_iff.mp (h i (Finset.mem_univ i))
      simp [deliver, hsent]
    · rfl

theorem accepted_eq_zero_of_full (hroom : q.Fits r) (h : q.Full) :
    accepted r = 0 := by
  rw [← sum_length_sent]
  refine Finset.sum_eq_zero fun i _ => ?_
  have hzero := h i
  have hle := hroom i
  omega

end Fintype

end Queues

section Circle

/-! Queues in a circle, one after the other from a first one on. -/

variable {n : ℕ} [NeZero n]

theorem add_ofNat_succ (first : Fin n) (k : ℕ) :
    first + Fin.ofNat n k + 1 = first + Fin.ofNat n (k + 1) := by
  apply Fin.ext
  simp [Fin.val_add, Nat.add_assoc]

theorem exists_add_ofNat (first i : Fin n) : ∃ k < n, first + Fin.ofNat n k = i := by
  refine ⟨(i - first).val, (i - first).isLt, Fin.ext ?_⟩
  have hfirst := first.isLt
  simp only [Fin.val_add, Fin.val_ofNat, Fin.sub_def, Nat.mod_mod, Nat.add_mod_mod]
  have hround : first.val + (n - first.val + i.val) = i.val + n := by omega
  rw [hround, Nat.add_mod_right, Nat.mod_eq_of_lt i.isLt]

theorem add_ofNat_eq_self {first : Fin n} {k : ℕ} (hpos : 0 < k) (hk : k ≤ n) :
    first + Fin.ofNat n k = first ↔ k = n := by
  rw [Fin.ext_iff]
  simp only [Fin.val_add, Fin.val_ofNat, Nat.add_mod_mod]
  have hfirst := first.isLt
  rcases Nat.lt_or_ge (first.val + k) n with hlt | hge
  · rw [Nat.mod_eq_of_lt hlt]
    omega
  · rw [Nat.mod_eq_sub_mod hge, Nat.mod_eq_of_lt (by omega)]
    omega

end Circle

end Dispatch
