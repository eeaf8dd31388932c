import Kestrel.Lib.Transition
import Kestrel.Timer.Expiry

/-! # The life of a timer

In every run of a wheel the map is a bijection with the places of the timers, the wheel stands at
the slot of its time, a timer that was added is in the wheel until it leaves, once, and an advance
returns exactly the timers that have expired.
-/

namespace Kestrel

namespace TimingWheel

inductive WheelOp (E : Type) where
  | addTimer (delay : Duration) (event : E)
  | batchAddTimers (timers : List (Duration × E)) (order : List ℕ)
  | cancelTimer (entryId : TimerEntryId)
  | batchCancelTimers (entryIds : List TimerEntryId) (order : List ℕ)
  | advance (now : Instant)
  | nextExpiryTime

namespace WheelOp

variable {E : Type} (w : TimingWheel E)

/-- Times since the start fit into 64-bit nanoseconds, a batch to cancel names no timer twice, and
the slots of a batch come in some order. -/
def Admissible : WheelOp E → Prop
  | addTimer delay _ => w.FitsNanos (w.currentTime + delay)
  | batchAddTimers timers order => (∀ t ∈ timers, w.FitsNanos (w.currentTime + t.1)) ∧
      IsOrder order ((w.batchEntries timers).map (·.1))
  | batchCancelTimers entryIds order => entryIds.Nodup ∧
      IsOrder order ((w.findPlaces entryIds).map (·.2.1))
  | advance now => w.FitsNanos now
  | cancelTimer _ | nextExpiryTime => True

instance : DecidablePred (Admissible w)
  | addTimer .. | advance _ => inferInstanceAs (Decidable (_ < _))
  | batchAddTimers .. | batchCancelTimers .. => inferInstanceAs (Decidable (_ ∧ _))
  | cancelTimer _ | nextExpiryTime => .isTrue trivial

/-- A batch goes to a wheel whose slot duration fits into 64-bit nanoseconds and whose slot
numbers fit into 32 bits. -/
def FitsLanes : WheelOp E → Prop
  | batchAddTimers timers _ => timers ≠ [] → w.slotDuration < u64Size ∧ w.slotCount ≤ u32Size
  | _ => True

instance : DecidablePred (FitsLanes w)
  | batchAddTimers [] _ => .isTrue fun h => absurd rfl h
  | batchAddTimers (_ :: _) _ => decidable_of_iff (w.slotDuration < u64Size ∧ w.slotCount ≤ u32Size)
      ⟨fun h _ => h, fun h => h (List.cons_ne_nil _ _)⟩
  | addTimer .. | cancelTimer _ | batchCancelTimers .. | advance _ | nextExpiryTime => .isTrue trivial

end WheelOp

/-- A wheel with the timers added to it and those that left it, in order. -/
structure WheelRun (E : Type) where
  wheel : TimingWheel E
  added : List TimerEntryId
  gone : List TimerEntryId

namespace WheelRun

variable {E : Type} {r : WheelRun E} {op : WheelOp E}

def apply (r : WheelRun E) : WheelOp E → WheelRun E
  | .addTimer delay event =>
    let (id, wheel) := r.wheel.addTimer delay event
    { r with wheel, added := r.added ++ [id] }
  | .batchAddTimers timers order =>
    let (ids, wheel) := r.wheel.batchAddTimers timers order
    { r with wheel, added := r.added ++ ids }
  | .cancelTimer entryId =>
    let (cancelled, wheel) := r.wheel.cancelTimer entryId
    { r with wheel, gone := r.gone ++ if cancelled then [entryId] else [] }
  | .batchCancelTimers entryIds order =>
    let found := entryIds.filter fun id => r.wheel.timerMap[id]?.isSome
    { r with wheel := (r.wheel.batchCancelTimers entryIds order).2, gone := r.gone ++ found }
  | .advance now =>
    let (expired, wheel) := r.wheel.advance now
    { r with wheel, gone := r.gone ++ expired.map TimerEntry.id }
  | .nextExpiryTime => { r with wheel := r.wheel.nextExpiryTime.2 }

def next (r : WheelRun E) (op : WheelOp E) : Option (WheelRun E) :=
  if op.Admissible r.wheel then some (r.apply op) else none

def system (E : Type) : TransitionSystem (WheelRun E) (WheelOp E) :=
  .ofNext
    (fun r => ∃ slotCount slotDuration now w, slotCount < u64Size ∧ 0 < slotDuration ∧
      TimingWheel.new slotCount slotDuration now = some w ∧ r = ⟨w, [], []⟩)
    next

/-- What holds of a wheel and the timers that were added to it. -/
structure Kept (r : WheelRun E) : Prop where
  place_of_entry : ∀ (s p : ℕ) (e : TimerEntry E), (r.wheel.slots s)[p]? = some e →
    s < r.wheel.slotCount ∧ r.wheel.timerMap[e.id]? = some (s, p)
  entry_of_place : ∀ (id : TimerEntryId) (s p : ℕ), r.wheel.timerMap[id]? = some (s, p) →
    ∃ e : TimerEntry E, (r.wheel.slots s)[p]? = some e ∧ e.id = id
  currentSlot_eq : r.wheel.currentSlot =
    (r.wheel.currentTime - r.wheel.startTime) / r.wheel.slotDuration &&& r.wheel.slotMask
  nodup_added : r.added.Nodup
  leaves_once : ↑r.gone + r.wheel.live.map TimerEntry.id = ↑r.added
  advance_eq : ∀ now, r.wheel.FitsNanos now →
    ↑(r.wheel.advance now).1 = r.wheel.live.filter (·.expiryTime ≤ now)

/-- Timers lie where they belong, and identifiers are given out in order. -/
structure Consistent (r : WheelRun E) : Prop where
  placed : Placed r.wheel
  ahead : Ahead r.wheel
  added_eq : ∃ n, r.wheel.nextEntryId = 1 + n ∧ r.added = List.range' 1 n
  leaves_once : ↑r.gone + r.wheel.live.map TimerEntry.id = ↑r.added

namespace Consistent

variable (h : Consistent r)
include h

theorem grow {wheel : TimingWheel E} {l : List (TimerEntry E)} (hp : Placed wheel)
    (ha : Ahead wheel) (hid : l.map TimerEntry.id = List.range' r.wheel.nextEntryId l.length)
    (hnext : wheel.nextEntryId = r.wheel.nextEntryId + l.length)
    (hlive : wheel.live = ↑l + r.wheel.live) :
    Consistent { r with wheel, added := r.added ++ l.map TimerEntry.id } := by
  obtain ⟨n, hn, hadd⟩ := h.added_eq
  refine ⟨hp, ha, ⟨n + l.length, ?_, ?_⟩, ?_⟩
  · rw [hnext, hn, Nat.add_assoc]
  · rw [hid, hadd, hn, List.range'_append_1]
  · dsimp only
    rw [hlive, Multiset.map_add, ← Multiset.coe_add, ← h.leaves_once, add_left_comm,
      Multiset.map_coe, add_comm]

theorem shrink {wheel : TimingWheel E} {R : Multiset (TimerEntry E)} {ids : List TimerEntryId}
    (hp : Placed wheel) (ha : Ahead wheel) (hnext : wheel.nextEntryId = r.wheel.nextEntryId)
    (hlive : r.wheel.live = R + wheel.live) (hR : R.map TimerEntry.id = ↑ids) :
    Consistent { r with wheel, gone := r.gone ++ ids } := by
  refine ⟨hp, ha, ?_, ?_⟩
  · obtain ⟨n, hn, hadd⟩ := h.added_eq
    exact ⟨n, hnext.trans hn, hadd⟩
  · dsimp only
    rw [← h.leaves_once, hlive, Multiset.map_add, hR, ← Multiset.coe_add, add_assoc]

theorem cached (c : Option Instant) :
    Consistent { r with wheel := { r.wheel with cachedNextExpiry := c } } :=
  { h with placed := h.placed.cached c }

theorem removes {w' : TimingWheel E} {R : Multiset (TimerEntry E)} {ids : List TimerEntryId}
    (hr : Removes r.wheel w' R) (hR : R.map TimerEntry.id = ↑ids) :
    Consistent { r with wheel := w', gone := r.gone ++ ids } := by
  apply h.shrink hr.placed (hr.ahead h.ahead) _ hr.live_eq hR
  obtain ⟨slots, places, rfl⟩ := hr.frame
  rfl

theorem apply (hop : op.Admissible r.wheel) (hl : op.FitsLanes r.wheel) :
    Consistent (r.apply op) := by
  cases op with
  | addTimer delay event =>
    obtain ⟨e, hid, -, -, hret, hp, hlive, ha⟩ := addTimer_spec h.placed delay event
    have hg := h.grow (l := [e]) hp (ha h.ahead) (congrArg (fun i => [i]) hid) rfl
      (hlive.trans (Multiset.singleton_add ..).symm)
    rw [WheelRun.apply]
    dsimp only
    rw [hret]
    exact hg
  | batchAddTimers timers order =>
    obtain ⟨l, slots, places, w', hw, hret, hid, hp, hlive, ha, -, -⟩ :=
      batchAddTimers_spec h.placed hop.1 hl hop.2
    rw [WheelRun.apply, hret]
    exact h.grow hp (ha h.ahead) hid (by rw [hw]) hlive
  | cancelTimer id =>
    rw [WheelRun.apply]
    rcases cancelTimer_spec h.placed id with ⟨-, hret⟩ | ⟨e, w', hid, hr, hret⟩
    · rw [hret]
      have hnone :
          (0 : Multiset (TimerEntry E)).map TimerEntry.id = ↑([] : List TimerEntryId) := rfl
      have hg := h.removes (.refl h.placed) hnone
      exact hg
    · have hone : ({e} : Multiset (TimerEntry E)).map TimerEntry.id = ↑[id] := by
        rw [Multiset.map_singleton, hid]
        rfl
      have hg := h.removes hr hone
      rw [hret]
      dsimp only
      split
      · exact hg.cached none
      · exact hg
  | batchCancelTimers ids order =>
    obtain ⟨stale, w', R, hr, hR, hret, -⟩ := batchCancelTimers_spec h.placed hop.1 hop.2
    have hg := h.removes hr hR
    rw [WheelRun.apply, hret]
    dsimp only
    split
    · exact hg.cached none
    · exact hg
  | advance now =>
    obtain ⟨hp, ha, hex, hlive, hnext, -, -⟩ := advance_spec h.placed h.ahead hop
    rw [WheelRun.apply]
    have hsplit := Multiset.filter_add_not (fun e : TimerEntry E => e.expiryTime ≤ now) r.wheel.live
    simp only [not_le] at hsplit
    rw [← hex, ← hlive] at hsplit
    exact h.shrink hp ha hnext hsplit.symm (Multiset.map_coe ..)
  | nextExpiryTime =>
    rw [WheelRun.apply, nextExpiryTime]
    split
    · exact h
    · split
      · exact h
      · exact h.cached _

theorem kept : Kept r where
  place_of_entry s p e he :=
    ⟨h.placed.slot_lt (List.mem_of_getElem? he), h.placed.indexed.place he⟩
  entry_of_place id s p hp := (h.placed.indexed id s p).mp hp
  currentSlot_eq := h.placed.currentSlot_eq
  nodup_added := by
    obtain ⟨n, -, hadd⟩ := h.added_eq
    rw [hadd]
    exact List.nodup_range'
  leaves_once := h.leaves_once
  advance_eq now hnow := (advance_spec h.placed h.ahead hnow).2.2.1

end Consistent

theorem consistent_init (hr : (system E).init r) : Consistent r := by
  obtain ⟨slotCount, slotDuration, now, w, hlt, hpos, hnew, rfl⟩ := hr
  obtain ⟨hp, ha, hlive, hid, -, -⟩ := new_spec hlt hpos hnew
  refine ⟨hp, ha, ⟨0, hid, rfl⟩, ?_⟩
  dsimp only
  rw [hlive]
  rfl

theorem consistent
    (h : ((system E).restrict fun r op _ => op.FitsLanes r.wheel).Reachable r) : Consistent r := by
  have hinv : ((system E).restrict fun r op _ => op.FitsLanes r.wheel).Invariant Consistent :=
    { init := fun r hr => consistent_init hr
      step := by
        rintro r op r' - hr ⟨hs, hl⟩
        obtain ⟨hop, he⟩ := Option.ite_none_right_eq_some.mp hs
        cases he
        exact hr.apply hop hl }
  exact hinv.holds h

/-- In every run in which batches fit their lanes, timers are kept. -/
theorem timers_kept (h : ((system E).restrict fun r op _ => op.FitsLanes r.wheel).Reachable r) :
    Kept r :=
  (consistent h).kept

section Sample

def sampleWheel (slotDuration : Duration) : WheelRun Unit :=
  ⟨(TimingWheel.new 2 slotDuration 0).get rfl, [], []⟩

theorem sampleWheel_init (slotDuration : Duration) (h : 0 < slotDuration) :
    (system Unit).init (sampleWheel slotDuration) :=
  ⟨2, slotDuration, 0, _, by decide, h, rfl, rfl⟩

/-- One timer is cancelled, another moves over more than a turn of the wheel and expires, and a
third one stays. -/
theorem timers_kept_sample : ∃ r : WheelRun Unit,
    (r.added = [1, 2, 3] ∧ r.gone = [1, 2] ∧ r.wheel.currentTime = 20) ∧ Kept r := by
  have hrun : ∃ r, ((system Unit).restrict fun r op _ => op.FitsLanes r.wheel).Run
      [.addTimer 5 (), .batchAddTimers [(31, ()), (70, ())] [1], .cancelTimer 1, .advance 32] r ∧
        (r.added = [1, 2, 3] ∧ r.gone = [1, 2] ∧ r.wheel.currentTime = 20) :=
    TransitionSystem.exists_restrict_run_of_foldlM _
      (sampleWheel_init 10 (by decide)) (by decide)
  obtain ⟨r, hr, hp⟩ := hrun
  exact ⟨r, hp, timers_kept hr.reachable⟩

/-- A slot duration over 2^64 nanoseconds is cut to 64 bits where a batch is placed, so that an
expired timer is not found. -/
theorem batch_misplaced : ∃ (r : WheelRun Unit) (now : Instant) (e : TimerEntry Unit),
    (system Unit).Reachable r ∧ r.wheel.FitsNanos now ∧ e ∈ r.wheel.live ∧ e.expiryTime ≤ now ∧
      (r.wheel.advance now).1 = [] := by
  have hrun : ∃ r, (system Unit).Run [.batchAddTimers [(1, ())] [1]] r ∧
      (r.wheel.FitsNanos 2 ∧ (⟨1, 1, ()⟩ : TimerEntry Unit) ∈ r.wheel.live ∧
        (r.wheel.advance 2).1 = []) :=
    TransitionSystem.exists_run_of_foldlM _
      (sampleWheel_init (u64Size + 1) (by decide)) (by decide)
  obtain ⟨r, hr, hfits, hlive, hadv⟩ := hrun
  exact ⟨r, 2, _, hr.reachable, hfits, hlive, by decide, hadv⟩

end Sample

end WheelRun

end TimingWheel

end Kestrel
