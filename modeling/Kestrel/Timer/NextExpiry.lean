import Kestrel.Timer.Lifetimes

/-! # The next wake-up

The time cached as the next one is right as long as every step keeps it right. The search that
fills an empty cache visits the slots in the order of time and may stop early.
-/

namespace Kestrel

namespace TimingWheel

variable {E : Type} {w : TimingWheel E}

/-- The time is that of the earliest of some timers, and there is none if there are no timers. -/
def IsNext (P : TimerEntry E → Prop) : Option Instant → Prop
  | none => ∀ e, ¬ P e
  | some t => (∃ e, P e ∧ e.expiryTime = t) ∧ ∀ e, P e → t ≤ e.expiryTime

theorem IsNext.congr {P Q : TimerEntry E → Prop} {t : Option Instant} (h : IsNext P t)
    (hPQ : ∀ e, P e ↔ Q e) : IsNext Q t := by
  have he : P = Q := by
    ext e
    exact hPQ e
  exact he ▸ h

theorem IsNext.union {P Q : TimerEntry E → Prop} {t : Option Instant} {u : Instant}
    (hP : IsNext P t) (hQ : IsNext Q (some u)) :
    IsNext (fun e => P e ∨ Q e) (earlier t u) := by
  obtain ⟨⟨b, hb, hbu⟩, hmin⟩ := hQ
  cases t with
  | none =>
    refine ⟨⟨b, Or.inr hb, hbu⟩, ?_⟩
    rintro e (he | he)
    · exact absurd he (hP e)
    · exact hmin e he
  | some t =>
    obtain ⟨⟨a, ha, hat⟩, hmin'⟩ := hP
    rw [earlier]
    split
    · rename_i hlt
      refine ⟨⟨b, Or.inr hb, hbu⟩, ?_⟩
      rintro e (he | he)
      · exact hlt.le.trans (hmin' e he)
      · exact hmin e he
    · rename_i hlt
      refine ⟨⟨a, Or.inl ha, hat⟩, ?_⟩
      rintro e (he | he)
      · exact hmin' e he
      · exact (not_lt.mp hlt).trans (hmin e he)

theorem IsNext.foldl {P : TimerEntry E → Prop} {t : Option Instant} (h : IsNext P t)
    (l : List (TimerEntry E)) :
    IsNext (fun e => P e ∨ e ∈ l) (l.foldl (fun c e => earlier c e.expiryTime) t) := by
  induction l generalizing P t with
  | nil =>
    apply h.congr
    intro e
    simp
  | cons a l ih =>
    have ha : IsNext (fun e => e = a) (some a.expiryTime) := by
      refine ⟨⟨a, rfl, rfl⟩, ?_⟩
      rintro e rfl
      exact le_rfl
    apply (ih (h.union ha)).congr
    intro e
    rw [List.mem_cons, or_assoc]

theorem isNext_slotEarliest (l : List (TimerEntry E)) : IsNext (· ∈ l) (slotEarliest l) := by
  have hnone : IsNext (fun _ : TimerEntry E => False) none := fun _ he => he
  apply (hnone.foldl l).congr
  intro e
  rw [false_or]

section Search

/-- The timers in the first slots from the current one on. -/
def Within (w : TimingWheel E) (o : ℕ) (e : TimerEntry E) : Prop :=
  ∃ j < o, e ∈ w.slots (w.currentSlot + j &&& w.slotMask)

theorem within_succ {o : ℕ} {e : TimerEntry E} :
    w.Within (o + 1) e ↔ w.Within o e ∨ e ∈ w.slots (w.currentSlot + o &&& w.slotMask) := by
  constructor
  · rintro ⟨j, hj, he⟩
    rcases (Nat.lt_succ_iff.mp hj).eq_or_lt with rfl | hlt
    · exact Or.inr he
    · exact Or.inl ⟨j, hlt, he⟩
  · rintro (⟨j, hj, he⟩ | he)
    · exact ⟨j, Nat.lt_succ_of_lt hj, he⟩
    · exact ⟨o, Nat.lt_succ_self o, he⟩

/-- A timer outside the first slots does not expire before their time is over. -/
theorem within_or_later (h : Placed w) (ha : Ahead w) {e : TimerEntry E} (he : e ∈ w.live)
    (o : ℕ) : w.Within o e ∨ w.currentTime + o * w.slotDuration ≤ e.expiryTime := by
  obtain ⟨s, hs⟩ := h.mem_live.mp he
  obtain ⟨k, ht, hk⟩ := h.turned
  have hslot := h.slot_eq s e hs
  rw [h.calculateSlotIndex_eq] at hslot
  have hahead := ha s e hs
  obtain ⟨A, hA⟩ : ∃ A : ℕ, A = (e.expiryTime - w.startTime) / w.slotDuration := ⟨_, rfl⟩
  rw [← hA] at hslot
  have hlow : k ≤ A := by
    rw [hA, Nat.le_div_iff_mul_le h.slotDuration_pos]
    have : w.startTime + k * w.slotDuration ≤ e.expiryTime := ht ▸ hahead
    exact Nat.le_sub_of_add_le' this
  obtain ⟨d, rfl⟩ := Nat.exists_eq_add_of_le hlow
  have hin : e ∈ w.slots (w.currentSlot + d % w.slotCount &&& w.slotMask) := by
    rw [h.and_slotMask, hk, ← Nat.add_mod, ← hslot]
    exact hs
  by_cases hd : d % w.slotCount < o
  · exact Or.inl ⟨_, hd, hin⟩
  · right
    have hod : o ≤ d := (not_lt.mp hd).trans (Nat.mod_le ..)
    have hstart : w.startTime ≤ e.expiryTime := (ht ▸ Nat.le_add_right ..).trans hahead
    have hexp : (k + d) * w.slotDuration ≤ e.expiryTime - w.startTime := by
      rw [hA]
      exact Nat.div_mul_le_self ..
    rw [ht, Nat.add_assoc, ← Nat.add_mul]
    apply Nat.add_le_of_le_sub' hstart
    exact (Nat.mul_le_mul_right _ (Nat.add_le_add_left hod k)).trans hexp

theorem within_slotCount (h : Placed w) {e : TimerEntry E} :
    w.Within w.slotCount e ↔ e ∈ w.live := by
  rw [h.mem_live]
  constructor
  · rintro ⟨j, -, he⟩
    exact ⟨_, he⟩
  · rintro ⟨s, he⟩
    obtain ⟨k, -, hk⟩ := h.turned
    have hs := h.slot_lt he
    refine ⟨(s + (w.slotCount - w.currentSlot)) % w.slotCount, Nat.mod_lt _ h.slotCount_pos, ?_⟩
    have hcur : w.currentSlot ≤ w.slotCount := by
      rw [hk]
      exact (Nat.mod_lt _ h.slotCount_pos).le
    rw [h.and_slotMask, Nat.add_mod_mod]
    have hsum : w.currentSlot + (s + (w.slotCount - w.currentSlot)) = s + w.slotCount := by omega
    rw [hsum, Nat.add_mod_right, Nat.mod_eq_of_lt hs]
    exact he

/-- The search finds the earliest time, whether it stops early or not. -/
theorem isNext_searchEarliest (h : Placed w) (ha : Ahead w) {n o : ℕ} {t : Option Instant}
    (hno : o + n = w.slotCount) (ht : IsNext (w.Within o) t) :
    IsNext (· ∈ w.live) (w.searchEarliest n o t) := by
  induction n generalizing o t with
  | zero =>
    rw [Nat.add_zero] at hno
    subst hno
    exact ht.congr fun e => within_slotCount h
  | succ n ih =>
    have hslot := isNext_slotEarliest (w.slots (w.currentSlot + o &&& w.slotMask))
    have hno' : o + 1 + n = w.slotCount := by omega
    rw [searchEarliest]
    dsimp only
    split
    · rename_i hnone
      rw [hnone] at hslot
      apply ih hno'
      apply ht.congr
      intro e
      rw [within_succ]
      exact (or_iff_left (hslot e)).symm
    · rename_i u hu
      rw [hu] at hslot
      have hboth : IsNext (w.Within (o + 1)) (earlier t u) :=
        (ht.union hslot).congr fun e => within_succ.symm
      split
      · rename_i time htime
        rw [htime] at hboth
        split
        · rename_i hstop
          -- what lies further on expires later
          obtain ⟨⟨a, ha', hat⟩, hmin⟩ := hboth
          obtain ⟨j, -, hj⟩ := ha'
          refine ⟨⟨a, h.mem_live.mpr ⟨_, hj⟩, hat⟩, ?_⟩
          intro e he
          rcases within_or_later h ha he (o + 1) with hin | hlater
          · exact hmin e hin
          · have hbase : w.currentTime + w.slotDuration * (o % u32Size) + w.slotDuration ≤
                w.currentTime + (o + 1) * w.slotDuration := by
              rw [Nat.succ_mul, Nat.add_assoc, Nat.mul_comm]
              apply Nat.add_le_add_left
              exact Nat.add_le_add_right (Nat.mul_le_mul_right _ (Nat.mod_le ..)) _
            exact (hstop.trans hbase).trans hlater
        · exact ih hno' hboth
      · rename_i hnone
        rw [hnone] at hboth
        exact ih hno' hboth

end Search

def CacheRight (w : TimingWheel E) : Prop :=
  w.cachedNextExpiry ≠ none → IsNext (· ∈ w.live) w.cachedNextExpiry

/-- What is returned is right exactly when the cache is. -/
theorem isNext_nextExpiryTime_iff (h : Placed w) (ha : Ahead w) :
    IsNext (· ∈ w.live) w.nextExpiryTime.1 ↔ w.CacheRight := by
  rw [nextExpiryTime, CacheRight]
  cases hc : w.cachedNextExpiry with
  | some t => simp
  | none =>
    simp only [ne_eq, not_true_eq_false, false_implies, iff_true]
    split
    · rename_i hempty
      intro e he
      obtain ⟨s, hs⟩ := h.mem_live.mp he
      obtain ⟨p, hp⟩ := List.mem_iff_getElem?.mp hs
      have hnone := SortedMap.eq_empty_iff.mp hempty e.id
      rw [h.indexed.place hp] at hnone
      cases hnone
    · apply isNext_searchEarliest h ha (Nat.zero_add _)
      rintro e ⟨j, hj, -⟩
      exact absurd hj (Nat.not_lt_zero j)

section CacheSteps

variable {w' : TimingWheel E}

/-- Adding timers keeps the cache right unless it was empty and an earlier timer was there. -/
theorem cacheRight_grow {l : List (TimerEntry E)} (h : w.CacheRight) (hl : l ≠ [])
    (hlive : w'.live = ↑l + w.live)
    (hc : w'.cachedNextExpiry = l.foldl (fun c e => earlier c e.expiryTime) w.cachedNextExpiry) :
    w'.CacheRight ↔
      (w.cachedNextExpiry = none → ∀ e ∈ w.live, ∃ a ∈ l, a.expiryTime ≤ e.expiryTime) := by
  have hmem (e : TimerEntry E) : e ∈ w'.live ↔ e ∈ w.live ∨ e ∈ l := by
    rw [hlive, Multiset.mem_add, Multiset.mem_coe, or_comm]
  cases hcache : w.cachedNextExpiry with
  | some t =>
    have hright := h (by simp [hcache])
    rw [hcache] at hright hc
    simp only [reduceCtorEq, false_implies, iff_true]
    intro _
    rw [hc]
    exact (hright.foldl l).congr fun e => (hmem e).symm
  | none =>
    have hnew := isNext_slotEarliest l
    rw [slotEarliest, ← hcache, ← hc] at hnew
    cases hu : w'.cachedNextExpiry with
    | none =>
      rw [hu] at hnew
      exact absurd (List.eq_nil_iff_forall_not_mem.mpr hnew) hl
    | some u =>
      rw [hu] at hnew
      obtain ⟨⟨a, ha, hau⟩, hmin⟩ := hnew
      rw [CacheRight, hu]
      constructor
      · intro hr _ e he
        exact ⟨a, ha, hau.le.trans ((hr (by simp)).2 e ((hmem e).mpr (Or.inl he)))⟩
      · intro hall _
        refine ⟨⟨a, (hmem a).mpr (Or.inr ha), hau⟩, ?_⟩
        intro e he
        rcases (hmem e).mp he with he | he
        · obtain ⟨b, hb, hbe⟩ := hall rfl e he
          exact (hmin b hb).trans hbe
        · exact hmin e he

theorem cacheRight_removes {R : Multiset (TimerEntry E)} (h : w.CacheRight)
    (hr : Removes w w' R)
    (hR : ∀ e ∈ R, invalidates w.cachedNextExpiry (some e.expiryTime) = false) :
    w'.CacheRight := by
  intro hne
  rw [hr.cachedNextExpiry_eq] at hne ⊢
  have hright := h hne
  cases hc : w.cachedNextExpiry with
  | none => exact absurd hc hne
  | some c =>
    rw [hc] at hright hR
    obtain ⟨⟨a, ha, hac⟩, hmin⟩ := hright
    have hsub (e : TimerEntry E) : e ∈ w.live ↔ e ∈ R ∨ e ∈ w'.live := by
      rw [hr.live_eq, Multiset.mem_add]
    refine ⟨⟨a, ?_, hac⟩, fun e he => hmin e ((hsub e).mpr (Or.inr he))⟩
    rcases (hsub a).mp ha with ha | ha
    · have hnear := hR a ha
      rw [invalidates, hac, decide_eq_false_iff_not] at hnear
      exact absurd (Nat.le_add_right ..) hnear
    · exact ha

theorem cacheRight_none : CacheRight { w with cachedNextExpiry := none } :=
  fun h => absurd rfl h

end CacheSteps

namespace WheelOp

/-- The steps that keep a right cache right: timers are added while something is cached, or none
of those that are there expires before the added ones; and an advance that stays in its slot finds
nothing expired, or nothing is cached. -/
def KeepsCache (w : TimingWheel E) : WheelOp E → Prop
  | addTimer delay _ => w.cachedNextExpiry = none →
      ∀ e ∈ w.live, w.currentTime + delay ≤ e.expiryTime
  | batchAddTimers timers _ => w.cachedNextExpiry = none → timers ≠ [] →
      ∀ e ∈ w.live, ∃ t ∈ timers, w.currentTime + t.1 ≤ e.expiryTime
  | advance now => w.cachedNextExpiry ≠ none → now - w.currentTime < w.slotDuration →
      ∀ e ∈ w.live, now < e.expiryTime
  | cancelTimer _ | batchCancelTimers .. | nextExpiryTime => True

instance (w : TimingWheel E) : DecidablePred (KeepsCache w)
  | addTimer .. | batchAddTimers .. | advance _ => inferInstanceAs (Decidable (_ → _))
  | cancelTimer _ | batchCancelTimers .. | nextExpiryTime => .isTrue trivial

end WheelOp

namespace WheelRun

variable {r : WheelRun E} {op : WheelOp E}

theorem cacheRight_addTimer_iff (h : Consistent r) (hc : r.wheel.CacheRight) (delay : Duration)
    (event : E) : (r.apply (.addTimer delay event)).wheel.CacheRight ↔
      (WheelOp.addTimer delay event).KeepsCache r.wheel := by
  obtain ⟨e, -, hexp, -, -, -, hlive, -⟩ := addTimer_spec h.placed delay event
  have hcache : (r.wheel.addTimer delay event).2.cachedNextExpiry =
      [e].foldl (fun c e => earlier c e.expiryTime) r.wheel.cachedNextExpiry := by
    rw [List.foldl_cons, List.foldl_nil, hexp]
    rfl
  have hg := cacheRight_grow hc (List.cons_ne_nil e [])
    (hlive.trans (Multiset.singleton_add ..).symm) hcache
  simp only [List.mem_singleton, exists_eq_left, hexp] at hg
  exact hg

theorem cacheRight_batchAddTimers_iff (h : Consistent r) (hc : r.wheel.CacheRight)
    {timers : List (Duration × E)} {order : List ℕ}
    (hop : (WheelOp.batchAddTimers timers order).Admissible r.wheel)
    (hl : (WheelOp.batchAddTimers timers order).FitsLanes r.wheel) :
    (r.apply (.batchAddTimers timers order)).wheel.CacheRight ↔
      (WheelOp.batchAddTimers timers order).KeepsCache r.wheel := by
  obtain ⟨l, slots, places, w', hw, hret, -, -, hlive, -, -, hexp⟩ :=
    batchAddTimers_spec h.placed hop.1 hl hop.2
  have hwheel : (r.apply (.batchAddTimers timers order)).wheel = w' := by
    rw [WheelRun.apply, hret]
  rw [hwheel]
  have hlen := congrArg List.length hexp
  rw [List.length_map, List.length_map] at hlen
  cases l with
  | nil =>
    have hnil := List.eq_nil_of_length_eq_zero hlen.symm
    have hsame : w'.CacheRight := by
      rw [CacheRight, hlive, hw]
      rw [Multiset.coe_nil, zero_add]
      exact hc
    exact ⟨fun _ _ hne => absurd hnil hne, fun _ => hsame⟩
  | cons a l =>
    rw [cacheRight_grow hc (List.cons_ne_nil _ _) hlive (by rw [hw])]
    have hne : timers ≠ [] := by
      rintro rfl
      cases hlen
    have hex (x : Instant) : (∃ b ∈ a :: l, b.expiryTime ≤ x) ↔
        ∃ t ∈ timers, r.wheel.currentTime + t.1 ≤ x := by
      constructor
      · rintro ⟨b, hb, hbx⟩
        have hm := List.mem_map_of_mem (f := TimerEntry.expiryTime) hb
        rw [hexp] at hm
        obtain ⟨t, ht, hte⟩ := List.mem_map.mp hm
        exact ⟨t, ht, hte.le.trans hbx⟩
      · rintro ⟨t, ht, htx⟩
        have hm := List.mem_map_of_mem (f := fun t : Duration × E => r.wheel.currentTime + t.1) ht
        rw [← hexp] at hm
        obtain ⟨b, hb, hbe⟩ := List.mem_map.mp hm
        exact ⟨b, hb, hbe.le.trans htx⟩
    simp only [hex, WheelOp.KeepsCache, hne, ne_eq, not_false_eq_true, true_implies]

theorem cacheRight_cancelTimer (h : Consistent r) (hc : r.wheel.CacheRight) (id : TimerEntryId) :
    (r.apply (.cancelTimer id)).wheel.CacheRight := by
  rw [WheelRun.apply]
  rcases cancelTimer_spec h.placed id with ⟨-, hret⟩ | ⟨e, w', -, hr, hret⟩
  · rw [hret]
    exact hc
  · rw [hret]
    dsimp only
    split
    · exact cacheRight_none
    · rename_i hfar
      apply cacheRight_removes hc hr
      intro a ha
      rw [Multiset.mem_singleton.mp ha]
      exact Bool.eq_false_iff.mpr hfar

theorem cacheRight_batchCancelTimers (h : Consistent r) (hc : r.wheel.CacheRight)
    {ids : List TimerEntryId} {order : List ℕ}
    (hop : (WheelOp.batchCancelTimers (E := E) ids order).Admissible r.wheel) :
    (r.apply (.batchCancelTimers ids order)).wheel.CacheRight := by
  obtain ⟨stale, w', R, hr, -, hret, hfar⟩ := batchCancelTimers_spec h.placed hop.1 hop.2
  rw [WheelRun.apply, hret]
  dsimp only
  split
  · exact cacheRight_none
  · rename_i hs
    exact cacheRight_removes hc hr (hfar (Bool.eq_false_iff.mpr hs))

/-- An advance drops what is cached if something expired and time has moved on by a slot; else it
leaves it, which is right if nothing expired. -/
theorem cacheRight_advance_iff (h : Consistent r) (hc : r.wheel.CacheRight) {now : Instant}
    (hop : (WheelOp.advance (E := E) now).Admissible r.wheel) :
    (r.apply (.advance now)).wheel.CacheRight ↔ (WheelOp.advance now).KeepsCache r.wheel := by
  obtain ⟨-, -, hex, hlive, -, hnone, hsame⟩ := advance_spec h.placed h.ahead hop
  rw [WheelRun.apply]
  dsimp only
  have hempty : (r.wheel.advance now).1 = [] ↔ ∀ e ∈ r.wheel.live, now < e.expiryTime := by
    rw [← Multiset.coe_eq_zero, hex, Multiset.filter_eq_nil]
    simp only [not_le]
  by_cases hnil : (r.wheel.advance now).1 = []
  · have hall := hempty.mp hnil
    have hlive' : (r.wheel.advance now).2.live = r.wheel.live := by
      rw [hlive, Multiset.filter_eq_self]
      exact hall
    rw [CacheRight, hlive', hsame (Or.inr hnil)]
    exact ⟨fun _ _ _ => hall, fun _ => hc⟩
  · by_cases hmove : r.wheel.slotDuration ≤ now - r.wheel.currentTime
    · rw [CacheRight, hnone hmove hnil]
      exact ⟨fun _ _ hlt => absurd hmove (not_le.mpr hlt), fun _ hne => absurd rfl hne⟩
    · have hstay := not_le.mp hmove
      rw [CacheRight, hsame (Or.inl hstay)]
      constructor
      · intro hright hne
        -- the cached time is that of a timer that has just left
        exfalso
        obtain ⟨e, he, hexp⟩ : ∃ e ∈ r.wheel.live, e.expiryTime ≤ now := by
          by_contra hno
          push Not at hno
          exact hnil (hempty.mpr hno)
        have hold := hc hne
        have hnew := hright hne
        cases hcache : r.wheel.cachedNextExpiry with
        | none => exact hne hcache
        | some c =>
          rw [hcache] at hold hnew
          obtain ⟨⟨a, ha, hac⟩, -⟩ := hnew
          rw [hlive, Multiset.mem_filter, hac] at ha
          exact absurd ((hold.2 e he).trans hexp) (not_le.mpr ha.2)
      · intro hk hne
        exact absurd (hempty.mpr (hk hne hstay)) hnil

theorem cacheRight_nextExpiryTime (h : Consistent r) (hc : r.wheel.CacheRight) :
    (r.apply .nextExpiryTime).wheel.CacheRight := by
  have hnext := (isNext_nextExpiryTime_iff h.placed h.ahead).mpr hc
  rw [WheelRun.apply]
  rw [nextExpiryTime] at hnext ⊢
  split
  · exact hc
  · rename_i hnone
    rw [hnone] at hnext
    dsimp only at hnext ⊢
    split
    · exact hc
    · rename_i hne
      rw [if_neg hne] at hnext
      exact fun _ => hnext

/-- A step keeps a right cache right exactly if it is one of those. -/
theorem cacheRight_apply_iff (h : Consistent r) (hc : r.wheel.CacheRight)
    (hop : op.Admissible r.wheel) (hl : op.FitsLanes r.wheel) :
    (r.apply op).wheel.CacheRight ↔ op.KeepsCache r.wheel := by
  cases op with
  | addTimer delay event => exact cacheRight_addTimer_iff h hc delay event
  | batchAddTimers timers order => exact cacheRight_batchAddTimers_iff h hc hop hl
  | cancelTimer id => exact iff_of_true (cacheRight_cancelTimer h hc id) trivial
  | batchCancelTimers ids order => exact iff_of_true (cacheRight_batchCancelTimers h hc hop) trivial
  | advance now => exact cacheRight_advance_iff h hc hop
  | nextExpiryTime => exact iff_of_true (cacheRight_nextExpiryTime h hc) trivial

theorem consistent_and_cacheRight
    (h : ((system E).restrict fun r op _ =>
      op.FitsLanes r.wheel ∧ op.KeepsCache r.wheel).Reachable r) :
    Consistent r ∧ r.wheel.CacheRight := by
  have hinv : ((system E).restrict fun r op _ =>
      op.FitsLanes r.wheel ∧ op.KeepsCache r.wheel).Invariant
        fun r => Consistent r ∧ r.wheel.CacheRight :=
    { init := by
        intro r hr
        refine ⟨consistent_init hr, ?_⟩
        obtain ⟨slotCount, slotDuration, now, w, -, -, hnew, rfl⟩ := hr
        rw [TimingWheel.new] at hnew
        split at hnew <;> cases hnew
        exact fun hne => absurd rfl hne
      step := by
        rintro r op r' - ⟨hr, hc⟩ ⟨hs, hl, hk⟩
        obtain ⟨hop, he⟩ := Option.ite_none_right_eq_some.mp hs
        cases he
        exact ⟨hr.apply hop hl, (cacheRight_apply_iff hr hc hop hl).mpr hk⟩ }
  exact hinv.holds h

/-- In every run whose steps keep the cache right, the next wake-up is the earliest expiry time;
and the next step keeps it so exactly if it keeps the cache right. -/
theorem next_expiry_exact
    (h : ((system E).restrict fun r op _ =>
      op.FitsLanes r.wheel ∧ op.KeepsCache r.wheel).Reachable r) :
    IsNext (· ∈ r.wheel.live) r.wheel.nextExpiryTime.1 ∧
      ∀ op : WheelOp E, op.Admissible r.wheel → op.FitsLanes r.wheel →
        (IsNext (· ∈ (r.apply op).wheel.live) (r.apply op).wheel.nextExpiryTime.1 ↔
          op.KeepsCache r.wheel) := by
  obtain ⟨hr, hc⟩ := consistent_and_cacheRight h
  refine ⟨(isNext_nextExpiryTime_iff hr.placed hr.ahead).mpr hc, ?_⟩
  intro op hop hl
  have hr' := hr.apply hop hl
  rw [isNext_nextExpiryTime_iff hr'.placed hr'.ahead, cacheRight_apply_iff hr hc hop hl]

section Sample

/-- Two timers of different turns, one of which is cancelled after the search was made. -/
theorem next_expiry_exact_sample : ∃ r : WheelRun Unit, (r.added = [1, 2] ∧ r.gone = [1]) ∧
    IsNext (· ∈ r.wheel.live) r.wheel.nextExpiryTime.1 ∧
      ∀ op : WheelOp Unit, op.Admissible r.wheel → op.FitsLanes r.wheel →
        (IsNext (· ∈ (r.apply op).wheel.live) (r.apply op).wheel.nextExpiryTime.1 ↔
          op.KeepsCache r.wheel) := by
  have hrun : ∃ r, ((system Unit).restrict fun r op _ =>
      op.FitsLanes r.wheel ∧ op.KeepsCache r.wheel).Run
        [.addTimer 25 (), .addTimer 5 (), .cancelTimer 1, .nextExpiryTime] r ∧
          (r.added = [1, 2] ∧ r.gone = [1]) :=
    TransitionSystem.exists_restrict_run_of_foldlM _ (sampleWheel_init 10 (by decide)) (by decide)
  obtain ⟨r, hr, hp⟩ := hrun
  exact ⟨r, hp, next_expiry_exact hr.reachable⟩

/-- A timer added after the earliest one was cancelled hides those that are still there; and a
timer that expired in the current slot stays cached. -/
theorem wakeup_wrong :
    (∃ (r : WheelRun Unit) (t : Instant) (e : TimerEntry Unit), (system Unit).Reachable r ∧
      r.wheel.nextExpiryTime.1 = some t ∧ e ∈ r.wheel.live ∧ e.expiryTime < t) ∧
    ∃ (r : WheelRun Unit) (t : Instant), (system Unit).Reachable r ∧
      r.wheel.nextExpiryTime.1 = some t ∧ r.wheel.live = 0 := by
  constructor
  · have hrun : ∃ r, (system Unit).Run
        [.addTimer 5 (), .addTimer 20 (), .cancelTimer 1, .addTimer 40 ()] r ∧
          (r.wheel.nextExpiryTime.1 = some 40 ∧ (⟨2, 20, ()⟩ : TimerEntry Unit) ∈ r.wheel.live) :=
      TransitionSystem.exists_run_of_foldlM _ (sampleWheel_init 10 (by decide)) (by decide)
    obtain ⟨r, hr, hnext, hlive⟩ := hrun
    exact ⟨r, 40, _, hr.reachable, hnext, hlive, by decide⟩
  · have hrun : ∃ r, (system Unit).Run [.addTimer 5 (), .advance 5] r ∧
        (r.wheel.nextExpiryTime.1 = some 5 ∧ r.wheel.live = 0) :=
      TransitionSystem.exists_run_of_foldlM _ (sampleWheel_init 10 (by decide)) (by decide)
    obtain ⟨r, hr, hnext, hlive⟩ := hrun
    exact ⟨r, 5, hr.reachable, hnext, hlive⟩

end Sample

end WheelRun

end TimingWheel

end Kestrel
