import Mathlib.Data.List.Count
import Mathlib.Data.List.Infix
import Mathlib.Data.List.Perm.Subperm
import Mathlib.Logic.Function.Basic
import Mathlib.Logic.Relation

/-! # Relays

Items arrive one after another, each with a key. A relay hands an item to a receiver at once, keeps
it under its key, or drops it; what is kept is dropped later or handed to a receiver that has got
nothing with the key yet. No item is handed on more often than it arrived, and each receiver gets
the items of a key in their order.
-/

/-- The items that have arrived, those that are kept, and those that were handed on, each with its
receiver. -/
structure Relay (α κ ν : Type*) where
  arrived : List α
  kept : κ → List α
  handed : List (ν × α)

namespace Relay

variable {α κ ν : Type*} {key : α → κ} {r r' : Relay α κ ν} [DecidableEq ν]

/-- What a receiver was handed. -/
def got (handed : List (ν × α)) (n : ν) : List α := (handed.filter (·.1 = n)).map Prod.snd

theorem got_append (handed more : List (ν × α)) (n : ν) :
    got (handed ++ more) n = got handed n ++ got more n := by
  rw [got, List.filter_append, List.map_append]
  rfl

theorem got_map (n m : ν) (out : List α) :
    got (out.map fun a => (n, a)) m = if n = m then out else [] := by
  induction out with
  | nil => simp [got]
  | cons a out ih =>
    rw [List.map_cons, ← List.singleton_append, got_append, ih]
    by_cases hm : n = m <;> simp [got, hm]

variable [DecidableEq κ]

theorem filter_arrived_sublist (arrived : List α) (a : α) (k : κ) :
    (arrived.filter (key · = k)).Sublist ((arrived ++ [a]).filter (key · = k)) :=
  (List.sublist_append_left arrived [a]).filter _

theorem sublist_arrived {got arrived : List α} {a : α} {k : κ}
    (h : (got.filter (key · = k)).Sublist (arrived.filter (key · = k))) :
    ((got ++ [a]).filter (key · = k)).Sublist ((arrived ++ [a]).filter (key · = k)) := by
  rw [List.filter_append, List.filter_append]
  exact h.append (List.Sublist.refl _)

variable [DecidableEq α]

/-- What a relay does. -/
inductive Step (key : α → κ) (r : Relay α κ ν) : Relay α κ ν → Prop where
  | hand (n : ν) (a : α) :
    Step key r { r with arrived := r.arrived ++ [a], handed := r.handed ++ [(n, a)] }
  | keep (a : α) :
    Step key r { r with
      arrived := r.arrived ++ [a]
      kept := Function.update r.kept (key a) (r.kept (key a) ++ [a]) }
  | drop (a : α) : Step key r { r with arrived := r.arrived ++ [a] }
  | discard (kept : κ → List α) (h : ∀ k, (kept k).Sublist (r.kept k)) :
    Step key r { r with kept }
  | flush (n : ν) (k : κ) (out kept : List α) (hnew : ∀ p ∈ r.handed, p.1 = n → key p.2 ≠ k)
      (hout : out.Sublist (r.kept k)) (hkept : kept.Sublist (r.kept k))
      (honce : (out ++ kept).Subperm (r.kept k)) :
    Step key r { r with
      kept := Function.update r.kept k kept
      handed := r.handed ++ out.map fun a => (n, a) }

/-- Everything that is kept or was handed on has arrived, no more often than that, and in order. -/
structure Faithful (key : α → κ) (r : Relay α κ ν) : Prop where
  kept : ∀ k, (r.kept k).Sublist (r.arrived.filter (key · = k))
  once : ∀ a, (r.handed.map Prod.snd).count a + (r.kept (key a)).count a ≤ r.arrived.count a
  inOrder : ∀ n k, ((got r.handed n).filter (key · = k)).Sublist (r.arrived.filter (key · = k))

theorem faithful_empty (h : r.handed = []) (hk : ∀ k, r.kept k = []) : r.Faithful key where
  kept k := by
    rw [hk]
    exact List.nil_sublist _
  once a := by simp [h, hk]
  inOrder n k := by simp [got, h]

theorem Faithful.key_of_mem (h : r.Faithful key) {k : κ} {a : α} (ha : a ∈ r.kept k) :
    key a = k := by
  simpa using (List.mem_filter.mp ((h.kept k).subset ha)).2

theorem Faithful.step (h : r.Faithful key) (hs : Step key r r') : r'.Faithful key := by
  cases hs with
  | hand n a =>
    refine ⟨fun k => (h.kept k).trans (filter_arrived_sublist _ a k), fun b => ?_, fun m k => ?_⟩
    · have hb := h.once b
      simp only [List.map_append, List.map_singleton, List.count_append]
      omega
    · rw [got_append, show [(n, a)] = [a].map fun a => (n, a) from rfl, got_map]
      split
      · exact sublist_arrived (h.inOrder m k)
      · rw [List.append_nil]
        exact (h.inOrder m k).trans (filter_arrived_sublist _ a k)
  | keep a =>
    refine ⟨fun k => ?_, fun b => ?_, fun m k =>
      (h.inOrder m k).trans (filter_arrived_sublist _ a k)⟩
    · dsimp only
      by_cases hk : k = key a
      · subst hk
        rw [Function.update_self, List.filter_append]
        exact (h.kept (key a)).append (by simp)
      · rw [Function.update_of_ne hk]
        exact (h.kept k).trans (filter_arrived_sublist _ a k)
    · have hb := h.once b
      dsimp only
      by_cases hk : key b = key a
      · rw [hk, Function.update_self, ← hk, List.count_append, List.count_append]
        omega
      · rw [Function.update_of_ne hk, List.count_append]
        omega
  | drop a =>
    refine ⟨fun k => (h.kept k).trans (filter_arrived_sublist _ a k), fun b => ?_, fun m k =>
      (h.inOrder m k).trans (filter_arrived_sublist _ a k)⟩
    have hb := h.once b
    dsimp only
    rw [List.count_append]
    omega
  | discard kept hk =>
    refine ⟨fun k => (hk k).trans (h.kept k), fun b => ?_, h.inOrder⟩
    have hb := h.once b
    have hle := (hk (key b)).count_le b
    dsimp only
    omega
  | flush n k out kept hnew hout hkept honce =>
    have hmap : (out.map fun a => (n, a)).map Prod.snd = out := by
      simp [Function.comp_def]
    have hkey : ∀ a ∈ out, key a = k := fun a ha => h.key_of_mem (hout.subset ha)
    refine ⟨fun k' => ?_, fun b => ?_, fun m k' => ?_⟩
    · dsimp only
      by_cases hk : k' = k
      · subst hk
        rw [Function.update_self]
        exact hkept.trans (h.kept k')
      · rw [Function.update_of_ne hk]
        exact h.kept k'
    · have hb := h.once b
      simp only [List.map_append, List.count_append, hmap]
      by_cases hk : key b = k
      · have ho := honce.count_le b
        rw [List.count_append] at ho
        rw [hk] at hb
        rw [hk, Function.update_self]
        omega
      · have hzero : out.count b = 0 := List.count_eq_zero.mpr fun hmem => hk (hkey b hmem)
        rw [Function.update_of_ne hk]
        omega
    · rw [got_append, got_map]
      split
      · rename_i hm
        subst hm
        rw [List.filter_append]
        by_cases hk : k' = k
        · -- the receiver has got nothing with the key before
          subst hk
          have hnone : (got r.handed n).filter (key · = k') = [] := by
            simp only [got, List.filter_eq_nil_iff, List.mem_map, List.mem_filter,
              decide_eq_true_eq]
            rintro _ ⟨p, ⟨hp, hn⟩, rfl⟩
            exact hnew p hp hn
          rw [hnone, List.nil_append]
          exact List.filter_sublist.trans (hout.trans (h.kept k'))
        · have hnone : out.filter (key · = k') = [] := by
            simp only [List.filter_eq_nil_iff, decide_eq_true_eq]
            exact fun a ha heq => hk (heq.symm.trans (hkey a ha))
          rw [hnone, List.append_nil]
          exact h.inOrder n k'
      · rw [List.append_nil]
        exact h.inOrder m k'

theorem Faithful.steps (h : r.Faithful key) (hs : Relation.ReflTransGen (Step key) r r') :
    r'.Faithful key := by
  induction hs with
  | refl => exact h
  | tail _ hstep ih => exact ih.step hstep

end Relay
