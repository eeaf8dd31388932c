import Mathlib.Logic.Relation

/-! # Transition systems

A system has initial states and labelled steps. What holds initially and is preserved by every
step holds of every reachable state. A system can be restricted to the steps that meet a
condition, one system can simulate another, and two runs can be put side by side.
-/

structure TransitionSystem (σ ι : Type*) where
  init : σ → Prop
  step : σ → ι → σ → Prop

namespace TransitionSystem

variable {σ ι τ κ : Type*} {T : TransitionSystem σ ι} {A : TransitionSystem τ κ} {s s' : σ}

/-- The states that finitely many steps reach from an initial one. -/
inductive Reachable (T : TransitionSystem σ ι) : σ → Prop where
  | init {s : σ} (h : T.init s) : Reachable T s
  | step {s s' : σ} {i : ι} (hr : Reachable T s) (h : T.step s i s') : Reachable T s'

/-- Reachability with the labels of the steps taken. -/
inductive Run (T : TransitionSystem σ ι) : List ι → σ → Prop where
  | init {s : σ} (h : T.init s) : Run T [] s
  | step {l : List ι} {s s' : σ} {i : ι} (hr : Run T l s) (h : T.step s i s') :
    Run T (l ++ [i]) s'

theorem Run.reachable {l : List ι} (h : T.Run l s) : T.Reachable s := by
  induction h with
  | init h => exact .init h
  | step _ h ih => exact .step ih h

theorem Reachable.exists_run (h : T.Reachable s) : ∃ l, T.Run l s := by
  induction h with
  | init h => exact ⟨[], .init h⟩
  | @step s s' i _ hs ih =>
    obtain ⟨l, hl⟩ := ih
    exact ⟨l ++ [i], hl.step hs⟩

/-- The system in which a label leads to at most one state. -/
def ofNext (init : σ → Prop) (next : σ → ι → Option σ) : TransitionSystem σ ι where
  init := init
  step s i s' := next s i = some s'

/-- Where a list of labels leads. -/
theorem Run.foldlM {init : σ → Prop} {next : σ → ι → Option σ} {l l' : List ι}
    (h : (ofNext init next).Run l s) (hl : l'.foldlM next s = some s') :
    (ofNext init next).Run (l ++ l') s' := by
  induction l' generalizing l s with
  | nil =>
    cases hl
    rwa [List.append_nil]
  | cons i l' ih =>
    rw [List.foldlM_cons] at hl
    obtain ⟨s₁, h₁, hl⟩ := Option.bind_eq_some_iff.mp hl
    rw [List.append_cons]
    exact ih (.step h h₁) hl

/-- A run that ends in a state of some kind, by evaluation. -/
theorem exists_run_of_foldlM {init : σ → Prop} {next : σ → ι → Option σ} {P : σ → Prop}
    [DecidablePred P] (ls : List ι) (h : init s)
    (hl : (ls.foldlM next s).map (fun s' => decide (P s')) = some true) :
    ∃ s', (ofNext init next).Run ls s' ∧ P s' := by
  obtain ⟨s', hs, hp⟩ := Option.map_eq_some_iff.mp hl
  exact ⟨s', Run.foldlM (.init h) hs, of_decide_eq_true hp⟩

/-- A run and a step that goes on from it, by evaluation. -/
theorem exists_step_of_foldlM {init : σ → Prop} {next : σ → ι → Option σ} {P : σ → σ → Prop}
    [∀ s s', Decidable (P s s')] (ls : List ι) (i : ι) (h : init s)
    (hl : ((ls.foldlM next s).bind fun r => (next r i).map fun r' => decide (P r r')) =
      some true) :
    ∃ r r', (ofNext init next).Run ls r ∧ next r i = some r' ∧ P r r' := by
  obtain ⟨r, hr, hl⟩ := Option.bind_eq_some_iff.mp hl
  obtain ⟨r', hr', hp⟩ := Option.map_eq_some_iff.mp hl
  exact ⟨r, r', Run.foldlM (.init h) hr, hr', of_decide_eq_true hp⟩

/-- Holds initially and is preserved by every step from a reachable state. -/
structure Invariant (T : TransitionSystem σ ι) (P : σ → Prop) : Prop where
  init : ∀ s, T.init s → P s
  step : ∀ s i s', T.Reachable s → P s → T.step s i s' → P s'

theorem Invariant.holds {P : σ → Prop} (hP : T.Invariant P) (h : T.Reachable s) : P s := by
  induction h with
  | init h => exact hP.init _ h
  | step hr h ih => exact hP.step _ _ _ hr ih h

/-- The same system with only the steps that meet a condition. -/
def restrict (T : TransitionSystem σ ι) (G : σ → ι → σ → Prop) : TransitionSystem σ ι where
  init := T.init
  step s i s' := T.step s i s' ∧ G s i s'

theorem restrict_ofNext {init : σ → Prop} {next : σ → ι → Option σ} {G : σ → ι → Prop}
    [∀ s i, Decidable (G s i)] :
    (ofNext init next).restrict (fun s i _ => G s i) =
      ofNext init fun s i => if G s i then next s i else none := by
  unfold restrict ofNext
  congr 1
  ext s i s'
  simp [and_comm]

/-- A run of steps that all meet a condition, by evaluation. -/
theorem exists_restrict_run_of_foldlM {init : σ → Prop} {next : σ → ι → Option σ}
    {G : σ → ι → Prop} [∀ s i, Decidable (G s i)] {P : σ → Prop} [DecidablePred P] (ls : List ι)
    (h : init s)
    (hl : (ls.foldlM (fun s i => if G s i then next s i else none) s).map
      (fun s' => decide (P s')) = some true) :
    ∃ s', ((ofNext init next).restrict fun s i _ => G s i).Run ls s' ∧ P s' := by
  rw [restrict_ofNext]
  exact exists_run_of_foldlM ls h hl

theorem Run.of_restrict {G : σ → ι → σ → Prop} {l : List ι} (h : (T.restrict G).Run l s) :
    T.Run l s := by
  induction h with
  | init h => exact .init h
  | step _ h ih => exact .step ih h.1

theorem Reachable.of_restrict {G : σ → ι → σ → Prop} (h : (T.restrict G).Reachable s) :
    T.Reachable s := by
  induction h with
  | init h => exact .init h
  | step _ h ih => exact .step ih h.1

theorem Run.restrict_of_labels {P : ι → Prop} {l : List ι} (h : T.Run l s) (hl : ∀ i ∈ l, P i) :
    (T.restrict fun _ i _ => P i).Run l s := by
  induction h with
  | init h => exact .init h
  | @step l s s' i _ h ih =>
    exact .step (ih fun j hj => hl j (List.mem_append_left _ hj)) ⟨h, hl i (by simp)⟩

/-- A bound that holds after a step only if it held before is met all along a run that ends
within it. -/
theorem Reachable.restrict_of_backward {B : σ → Prop}
    (hB : ∀ s i s', T.step s i s' → B s' → B s) (h : T.Reachable s) (hb : B s) :
    (T.restrict fun _ _ s' => B s').Reachable s := by
  induction h with
  | init h => exact .init h
  | step _ h ih => exact .step (ih (hB _ _ _ h hb)) ⟨h, hb⟩

/-- Some step, whatever its label. -/
def Next (T : TransitionSystem σ ι) (s s' : σ) : Prop := ∃ i, T.step s i s'

/-- Where a list of labels leads from any state, by evaluation. -/
theorem exists_star_of_foldlM {init : σ → Prop} {next : σ → ι → Option σ} {P : σ → Prop}
    [DecidablePred P] (ls : List ι)
    (hl : (ls.foldlM next s).map (fun s' => decide (P s')) = some true) :
    ∃ s', Relation.ReflTransGen (ofNext init next).Next s s' ∧ P s' := by
  obtain ⟨s', hs, hp⟩ := Option.map_eq_some_iff.mp hl
  refine ⟨s', ?_, of_decide_eq_true hp⟩
  clear hl hp
  induction ls generalizing s with
  | nil =>
    cases hs
    exact .refl
  | cons i ls ih =>
    rw [List.foldlM_cons] at hs
    obtain ⟨s₁, h₁, hs⟩ := Option.bind_eq_some_iff.mp hs
    exact .head ⟨i, h₁⟩ (ih hs)

theorem Reachable.next_star (h : T.Reachable s) (hs : Relation.ReflTransGen T.Next s s') :
    T.Reachable s' := by
  induction hs with
  | refl => exact h
  | tail _ hn ih =>
    obtain ⟨i, hi⟩ := hn
    exact .step ih hi

/-- Every step of the first system is matched by steps of the second between related states. -/
structure Simulates (T : TransitionSystem σ ι) (A : TransitionSystem τ κ) (R : σ → τ → Prop) :
    Prop where
  init : ∀ s, T.init s → ∃ a, A.init a ∧ R s a
  step : ∀ s i s' a, R s a → T.step s i s' → ∃ a', Relation.ReflTransGen A.Next a a' ∧ R s' a'

theorem Simulates.reachable {R : σ → τ → Prop} (hR : T.Simulates A R) (h : T.Reachable s) :
    ∃ a, A.Reachable a ∧ R s a := by
  induction h with
  | init h =>
    obtain ⟨a, ha, hr⟩ := hR.init _ h
    exact ⟨a, .init ha, hr⟩
  | step _ h ih =>
    obtain ⟨a, ha, hr⟩ := ih
    obtain ⟨a', hs, hr'⟩ := hR.step _ _ _ a hr h
    exact ⟨a', ha.next_star hs, hr'⟩

/-- The labels of the first system stand for labels of the second or for no step of it, and every
step of the first is matched by what its label stands for. -/
structure Follows (T : TransitionSystem σ ι) (A : TransitionSystem τ κ) (f : ι → Option κ)
    (R : σ → τ → Prop) : Prop where
  init : ∀ s, T.init s → ∃ a, A.init a ∧ R s a
  stay : ∀ s i s' a, R s a → T.step s i s' → f i = none → R s' a
  step : ∀ s i s' a k, R s a → T.step s i s' → f i = some k → ∃ a', A.step a k a' ∧ R s' a'

/-- A run of the first system is matched by the run of the second that its labels stand for. -/
theorem Follows.run {f : ι → Option κ} {R : σ → τ → Prop} (hR : T.Follows A f R) {l : List ι}
    (h : T.Run l s) : ∃ a, A.Run (l.filterMap f) a ∧ R s a := by
  induction h with
  | init h =>
    obtain ⟨a, ha, hr⟩ := hR.init _ h
    exact ⟨a, .init ha, hr⟩
  | @step l s s' i _ h ih =>
    obtain ⟨a, ha, hr⟩ := ih
    rw [List.filterMap_append]
    cases hi : f i with
    | none => exact ⟨a, by simpa [hi] using ha, hR.stay _ _ _ a hr h hi⟩
    | some k =>
      obtain ⟨a', hs, hr'⟩ := hR.step _ _ _ a k hr h hi
      exact ⟨a', by simpa [hi] using ha.step hs, hr'⟩

/-- A step of two runs side by side: of both, or of one alone. -/
inductive Joint (ι : Type*) where
  | both (i : ι)
  | left (i : ι)
  | right (i : ι)

/-- Two runs side by side. -/
def jointly (next : σ → ι → Option σ) (p : σ × σ) : Joint ι → Option (σ × σ)
  | .both i => (next p.1 i).bind fun s => (next p.2 i).map fun r => (s, r)
  | .left i => (next p.1 i).map fun s => (s, p.2)
  | .right i => (next p.2 i).map fun r => (p.1, r)

section Joint

variable {next : σ → ι → Option σ} {p p' : σ × σ} {i : ι}

theorem jointly_both : jointly next p (.both i) = some p' ↔
    next p.1 i = some p'.1 ∧ next p.2 i = some p'.2 := by
  simp only [jointly, Option.bind_eq_some_iff, Option.map_eq_some_iff]
  constructor
  · rintro ⟨s, hs, r, hr, rfl⟩
    exact ⟨hs, hr⟩
  · rintro ⟨hs, hr⟩
    exact ⟨p'.1, hs, p'.2, hr, rfl⟩

theorem jointly_left : jointly next p (.left i) = some p' ↔
    next p.1 i = some p'.1 ∧ p'.2 = p.2 := by
  simp only [jointly, Option.map_eq_some_iff]
  constructor
  · rintro ⟨s, hs, rfl⟩
    exact ⟨hs, rfl⟩
  · rintro ⟨hs, hr⟩
    exact ⟨p'.1, hs, by rw [← hr]⟩

theorem jointly_right : jointly next p (.right i) = some p' ↔
    p'.1 = p.1 ∧ next p.2 i = some p'.2 := by
  simp only [jointly, Option.map_eq_some_iff]
  constructor
  · rintro ⟨r, hr, rfl⟩
    exact ⟨rfl, hr⟩
  · rintro ⟨hs, hr⟩
    exact ⟨p'.2, hr, by rw [← hs]⟩

/-- Each of two runs that begin in reachable states goes on in reachable states. -/
theorem Reachable.of_jointly {init : σ → Prop} {both : σ × σ → Prop}
    (hinit : ∀ p, both p → (ofNext init next).Reachable p.1 ∧ (ofNext init next).Reachable p.2)
    (h : (ofNext both (jointly next)).Reachable p) :
    (ofNext init next).Reachable p.1 ∧ (ofNext init next).Reachable p.2 := by
  induction h with
  | init h => exact hinit _ h
  | @step p p' j _ h ih =>
    obtain ⟨hs, hr⟩ := ih
    cases j with
    | both i =>
      obtain ⟨h₁, h₂⟩ := jointly_both.mp h
      exact ⟨hs.step h₁, hr.step h₂⟩
    | left i =>
      obtain ⟨h₁, h₂⟩ := jointly_left.mp h
      exact ⟨hs.step h₁, h₂ ▸ hr⟩
    | right i =>
      obtain ⟨h₁, h₂⟩ := jointly_right.mp h
      exact ⟨h₁ ▸ hs, hr.step h₂⟩

end Joint

end TransitionSystem
