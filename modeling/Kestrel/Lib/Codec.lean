import Mathlib.Data.List.Infix
import Mathlib.Order.Bounds.Basic

/-! # Self-delimiting codes

An encoding is self-delimiting when a decoder finds the end of every code word by itself and
never takes a proper prefix of one for a whole. A sequence of code words needs no count then:
decoding as much of it as has arrived yields the items that have arrived whole.
-/

namespace Codec

variable {σ α : Type*} {enc : α → List σ} {dec : List σ → Option (α × List σ)}
  {valid : α → Prop}

/-- The decoder finds the end of every code word and takes no proper prefix for one. -/
structure SelfDelimiting (enc : α → List σ) (dec : List σ → Option (α × List σ))
    (valid : α → Prop) : Prop where
  decode_append : ∀ a, valid a → ∀ rest, dec (enc a ++ rest) = some (a, rest)
  decode_prefix : ∀ a, valid a → ∀ n, n < (enc a).length → dec ((enc a).take n) = none
  encode_ne_nil : ∀ a, valid a → enc a ≠ []

/-- A decoder that reads back every code word, and whose result more symbols do not change, is
self-delimiting. -/
theorem SelfDelimiting.of_local
    (happend : ∀ a, valid a → ∀ rest, dec (enc a ++ rest) = some (a, rest))
    (hlocal : ∀ l a rest more, dec l = some (a, rest) → dec (l ++ more) = some (a, rest ++ more))
    (hne : ∀ a, valid a → enc a ≠ []) : SelfDelimiting enc dec valid where
  decode_append := happend
  encode_ne_nil := hne
  decode_prefix a ha n hn := by
    by_contra hd
    obtain ⟨⟨b, rest⟩, hb⟩ := Option.ne_none_iff_exists'.mp hd
    have hwhole := happend a ha []
    rw [List.append_nil] at hwhole
    have hmore := hlocal _ _ _ ((enc a).drop n) hb
    rw [List.take_append_drop, hwhole] at hmore
    have hdrop : (enc a).drop n = [] := by
      have hnil := congrArg Prod.snd (Option.some.inj hmore)
      exact (List.append_eq_nil_iff.mp hnil.symm).2
    rw [List.drop_eq_nil_iff] at hdrop
    omega

/-- Decodes items as long as there are symbols and the decoder succeeds, at most so many. -/
def decodeAll (dec : List σ → Option (α × List σ)) : ℕ → List σ → List α
  | 0, _ => []
  | rounds + 1, l =>
    if l.isEmpty then []
    else
      match dec l with
      | some (a, rest) => a :: decodeAll dec rounds rest
      | none => []

/-- How many items at the front have their code words wholly within so many symbols. -/
def wholeItems (enc : α → List σ) : List α → ℕ → ℕ
  | [], _ => 0
  | a :: as, n => if (enc a).length ≤ n then wholeItems enc as (n - (enc a).length) + 1 else 0

/-- The whole items are the longest prefix that lies within the symbols. -/
theorem wholeItems_isGreatest (as : List α) (n : ℕ) :
    IsGreatest {k | k ≤ as.length ∧ ((as.take k).flatMap enc).length ≤ n} (wholeItems enc as n) := by
  induction as generalizing n with
  | nil =>
    constructor
    · simp [wholeItems]
    · exact fun k hk => hk.1
  | cons a as ih =>
    rw [wholeItems]
    split
    · rename_i ha
      obtain ⟨⟨hle, hlen⟩, hmax⟩ := ih (n - (enc a).length)
      constructor
      · refine ⟨Nat.succ_le_succ hle, ?_⟩
        rw [List.take_succ_cons, List.flatMap_cons, List.length_append]
        omega
      · rintro (_ | k) ⟨hk, hn⟩
        · exact Nat.zero_le _
        · rw [List.take_succ_cons, List.flatMap_cons, List.length_append] at hn
          exact Nat.succ_le_succ (hmax ⟨Nat.le_of_succ_le_succ hk, by omega⟩)
    · rename_i ha
      constructor
      · simp
      · rintro (_ | k) ⟨hk, hn⟩
        · exact le_rfl
        · rw [List.take_succ_cons, List.flatMap_cons, List.length_append] at hn
          omega

theorem wholeItems_of_length_le {as : List α} {n : ℕ} (h : (as.flatMap enc).length ≤ n) :
    wholeItems enc as n = as.length := by
  have hmax : IsGreatest _ (wholeItems enc as n) := wholeItems_isGreatest as n
  exact le_antisymm hmax.1.1 (hmax.2 ⟨le_rfl, by rwa [List.take_length]⟩)

/-- Decoding the first symbols of a sequence of code words yields the items that lie wholly
within them. -/
theorem SelfDelimiting.decodeAll_take (h : SelfDelimiting enc dec valid) {as : List α}
    (has : ∀ a ∈ as, valid a) {n rounds : ℕ} (hn : n ≤ rounds) :
    decodeAll dec rounds ((as.flatMap enc).take n) = as.take (wholeItems enc as n) := by
  induction as generalizing n rounds with
  | nil => cases rounds <;> simp [decodeAll, wholeItems]
  | cons a as ih =>
    have ha := has a (List.mem_cons_self ..)
    have hpos := List.length_pos_iff.mpr (h.encode_ne_nil a ha)
    cases rounds with
    | zero =>
      rw [wholeItems, if_neg (by omega)]
      rfl
    | succ rounds =>
      rw [List.flatMap_cons, wholeItems, decodeAll]
      split
      · rename_i he
        rw [List.isEmpty_iff, List.take_eq_nil_iff, List.append_eq_nil_iff] at he
        rcases he with he | he
        · rw [he, if_neg (by omega)]
          rfl
        · exact absurd he.1 (h.encode_ne_nil a ha)
      · by_cases hle : (enc a).length ≤ n
        · rw [if_pos hle, List.take_append, List.take_of_length_le hle, h.decode_append a ha]
          dsimp only
          rw [ih (fun b hb => has b (List.mem_cons_of_mem _ hb)) (by omega), List.take_succ_cons]
        · rw [if_neg hle, List.take_append_of_le_length (by omega),
            h.decode_prefix a ha n (by omega)]
          rfl

end Codec
