import Kestrel.Timer.Cancellation
import Kestrel.Timer.Task

/-! # The tables of the timer task

The timers in the wheel are those that the reverse mapping knows, and the sets of the connections
are the inverse of that mapping. Every operation keeps this, and what it reports as cancelled is
what left the wheel, as long as a batch to cancel repeats a timer only where that is harmless.
-/

namespace Kestrel

open Std (ExtTreeMap)

open TimingWheel (TimerEntryId IsOrder Placed Drops)

namespace GlobalTimerTask

variable {E : Type} {t : GlobalTimerTask E}

/-- The wheel is in order and its lanes are wide enough, it holds the timers that the reverse
mapping knows, and the sets of the connections are the inverse of the mapping. -/
structure Consistent (t : GlobalTimerTask E) : Prop where
  placed : Placed t.timingWheel
  slotDuration_lt : t.timingWheel.slotDuration < u64Size
  slotCount_le : t.timingWheel.slotCount ≤ u32Size
  mem_liveIds : ∀ id, id ∈ t.timingWheel.liveIds ↔ t.entryToConnection[id]?.isSome
  inverse : Groups.Inverse t.entryToConnection t.connectionTimers

theorem consistent_new {now : Instant} (h : new now = some t) : Consistent t := by
  obtain ⟨w, hw, rfl⟩ := Option.map_eq_some_iff.mp h
  obtain ⟨hp, -, hlive, -, hd, hc⟩ := TimingWheel.new_spec (by decide) (by decide) hw
  refine ⟨hp, ?_, ?_, ?_, ?_, ?_⟩
  · rw [hd]
    decide
  · rw [hc]
    decide
  · intro id
    simp [TimingWheel.liveIds, hlive]
  · intro k o
    simp [Groups.members]
  · intro o
    simp

theorem foldl_associate {l : List (TimerEntryId × TimerRegistration E)}
    (h : Groups.Inverse t.entryToConnection t.connectionTimers) (hnd : (l.map (·.1)).Nodup)
    (hnew : ∀ x ∈ l, t.entryToConnection[x.1]? = none) :
    ∃ owners groups, l.foldl (fun t x => t.associate x.1 x.2.connectionId) t =
        { t with entryToConnection := owners, connectionTimers := groups } ∧
      Groups.Inverse owners groups ∧
      ∀ id : TimerEntryId, owners[id]?.isSome ↔
        t.entryToConnection[id]?.isSome ∨ id ∈ l.map (·.1) := by
  induction l generalizing t with
  | nil => exact ⟨_, _, rfl, h, by simp⟩
  | cons x l ih =>
    rw [List.map_cons, List.nodup_cons] at hnd
    rw [List.forall_mem_cons] at hnew
    obtain ⟨owners, groups, he, hi, hmem⟩ :=
      ih (t := t.associate x.1 x.2.connectionId) (h.join hnew.1) hnd.2 (by
        intro y hy
        have hne : x.1 ≠ y.1 := by
          intro hxy
          exact hnd.1 (hxy ▸ List.mem_map_of_mem hy)
        rw [associate, SortedMap.getElem?_insert, if_neg hne, hnew.2 y hy])
    refine ⟨owners, groups, he, hi, ?_⟩
    intro id
    rw [hmem, associate, SortedMap.getElem?_insert, List.map_cons, List.mem_cons]
    by_cases hid : x.1 = id
    · simp [hid]
    · simp [hid, Ne.symm hid]

theorem collectCancelled_eq (index : ℕ) (entryIds : List TimerEntryId)
    (owners : ExtTreeMap TimerEntryId ConnectionId) :
    (collectCancelled index entryIds owners).2.1 = (SortedMap.takeAll owners entryIds).1 ∧
      (collectCancelled index entryIds owners).2.2 = SortedMap.eraseAll owners entryIds ∧
      (collectCancelled index entryIds owners).1.successCount =
        (SortedMap.takeAll owners entryIds).1.length := by
  rw [← SortedMap.takeAll_snd]
  induction entryIds generalizing index owners with
  | nil => exact ⟨rfl, rfl, rfl⟩
  | cons id ids ih =>
    rw [collectCancelled, SortedMap.takeAll]
    cases owners[id]? with
    | none => exact ih (index + 1) owners
    | some connectionId =>
      obtain ⟨hr, ho, hc⟩ := ih (index + 1) (owners.erase id)
      exact ⟨congrArg ((id, connectionId) :: ·) hr, ho, congrArg (· + 1) hc⟩

/-- A cancellation keeps the tables, and what it reports is what left the wheel. -/
structure Cancels (t : GlobalTimerTask E) (reported : ℕ) (task' : GlobalTimerTask E) : Prop where
  consistent : Consistent task'
  card_live : t.timingWheel.live.card = reported + task'.timingWheel.live.card
  cancelledTimers_eq : task'.cancelledTimers = t.cancelledTimers + reported

theorem Cancels.refl (h : Consistent t) : Cancels t 0 t := ⟨h, (zero_add _).symm, rfl⟩

theorem getNextWakeupTime_cached (t : GlobalTimerTask E) (now : Instant) :
    ∃ c, (t.getNextWakeupTime now).2 =
      { t with timingWheel := { t.timingWheel with cachedNextExpiry := c } } := by
  have hn : ∃ c, t.timingWheel.nextExpiryTime.2 =
      { t.timingWheel with cachedNextExpiry := c } := by
    rw [TimingWheel.nextExpiryTime]
    split
    · exact ⟨_, rfl⟩
    · split
      · exact ⟨_, rfl⟩
      · exact ⟨_, rfl⟩
  obtain ⟨c, hc⟩ := hn
  use c
  rw [getNextWakeupTime]
  dsimp only
  rw [hc]
  split
  · split <;> rfl
  · rfl

namespace Consistent

variable (h : Consistent t)
include h

theorem grow {w : TimingWheel (TimerEvent E)} {l : List (TimingWheel.TimerEntry (TimerEvent E))}
    (registrations : List (TimerRegistration E)) {n : TimerEventId} (hp : Placed w)
    (hd : w.slotDuration = t.timingWheel.slotDuration)
    (hc : w.slotCount = t.timingWheel.slotCount)
    (hlive : w.live = ↑l + t.timingWheel.live)
    (hid : l.map TimingWheel.TimerEntry.id = List.range' t.timingWheel.nextEntryId l.length)
    (hlen : l.length = registrations.length) :
    ∃ owners groups,
      ((l.map TimingWheel.TimerEntry.id).zip registrations).foldl
          (fun t x => t.associate x.1 x.2.connectionId)
          { t with timingWheel := w, nextEventId := n } =
        { t with timingWheel := w, nextEventId := n, entryToConnection := owners,
                 connectionTimers := groups } ∧
      Consistent { t with timingWheel := w, nextEventId := n, entryToConnection := owners,
                          connectionTimers := groups } := by
  have hfst : ((l.map TimingWheel.TimerEntry.id).zip registrations).map (·.1) =
      l.map TimingWheel.TimerEntry.id :=
    List.map_fst_zip (by rw [List.length_map, hlen])
  obtain ⟨owners, groups, he, hi, hmem⟩ := foldl_associate
    (l := (l.map TimingWheel.TimerEntry.id).zip registrations)
    (t := { t with timingWheel := w, nextEventId := n }) h.inverse
    (by
      rw [hfst, hid]
      exact List.nodup_range')
    (by
      intro x hx
      have hx' := List.mem_map_of_mem (f := (·.1)) hx
      rw [hfst, hid, List.mem_range'_1] at hx'
      -- identifiers from the next one on are not in use
      rw [Option.eq_none_iff_forall_ne_some]
      intro conn hconn
      have hin := (h.mem_liveIds x.1).mpr (by rw [hconn]; rfl)
      obtain ⟨e, hel, hex⟩ := Multiset.mem_map.mp hin
      obtain ⟨s, hs⟩ := h.placed.mem_live.mp hel
      have hlt := h.placed.id_lt s e hs
      rw [hex] at hlt
      exact absurd hx'.1 (not_le.mpr hlt))
  refine ⟨owners, groups, he, hp, hd ▸ h.slotDuration_lt, hc ▸ h.slotCount_le, ?_, hi⟩
  intro id
  rw [hmem, hfst, TimingWheel.liveIds, hlive, Multiset.map_add, Multiset.mem_add, ← h.mem_liveIds,
    or_comm]
  rfl

theorem shrink {w : TimingWheel (TimerEvent E)}
    {R : Multiset (TimingWheel.TimerEntry (TimerEvent E))}
    {owners : ExtTreeMap TimerEntryId ConnectionId}
    {groups : ExtTreeMap ConnectionId (Finset TimerEntryId)} {processed cancelled : ℕ}
    (hd : Drops t.timingWheel w R) (hi : Groups.Inverse owners groups)
    (howners : ∀ id : TimerEntryId, owners[id]?.isSome ↔
      t.entryToConnection[id]?.isSome ∧ id ∉ R.map TimingWheel.TimerEntry.id) :
    Consistent { t with timingWheel := w, entryToConnection := owners, connectionTimers := groups,
                        processedTimers := processed, cancelledTimers := cancelled } where
  placed := hd.placed
  slotDuration_lt := hd.slotDuration_eq ▸ h.slotDuration_lt
  slotCount_le := hd.slotCount_eq ▸ h.slotCount_le
  mem_liveIds id := by
    rw [hd.mem_liveIds h.placed, howners, h.mem_liveIds]
  inverse := hi

theorem registerTimer (registration : TimerRegistration E) :
    Consistent (t.registerTimer registration).2 ∧
      (t.registerTimer registration).2.cancelledTimers = t.cancelledTimers := by
  obtain ⟨e, hid, -, -, hret, hp, hlive, -⟩ := TimingWheel.addTimer_spec h.placed
    registration.delay (registration.event t.nextEventId)
  obtain ⟨owners, groups, he, hc⟩ := h.grow (l := [e]) [registration]
    (n := t.nextEventId + 1) hp rfl rfl (hlive.trans (Multiset.singleton_add ..).symm)
    (congrArg (fun i => [i]) hid) rfl
  have heq : (t.registerTimer registration).2 = ((List.map TimingWheel.TimerEntry.id [e]).zip
      [registration]).foldl (fun t x => t.associate x.1 x.2.connectionId)
        { t with
          timingWheel := (t.timingWheel.addTimer registration.delay
            (registration.event t.nextEventId)).2
          nextEventId := t.nextEventId + 1 } := by
    rw [GlobalTimerTask.registerTimer]
    dsimp only
    rw [hret]
    rfl
  rw [heq, he]
  exact ⟨hc, rfl⟩

theorem batchRegisterTimers {registrations : List (TimerRegistration E)} {order : List ℕ}
    (ho : IsOrder order
      ((t.timingWheel.batchEntries (t.batchTimers registrations)).map (·.1))) :
    Consistent (t.batchRegisterTimers registrations order).2 ∧
      (t.batchRegisterTimers registrations order).2.cancelledTimers = t.cancelledTimers := by
  rw [GlobalTimerTask.batchRegisterTimers]
  split
  · exact ⟨h, rfl⟩
  · obtain ⟨l, slots, places, w, hw, hret, hid, hp, hlive, -, hev, -⟩ :=
      TimingWheel.batchAddTimers_placed h.placed
        (fun _ => ⟨h.slotDuration_lt, h.slotCount_le⟩) ho
    have hlen : l.length = registrations.length := by
      have := congrArg List.length hev
      simpa [batchTimers, TimerRegistration.batchTimers] using this
    obtain ⟨owners, groups, he, hc⟩ := h.grow registrations
      (n := t.nextEventId + registrations.length) hp
      (by rw [hw]) (by rw [hw]) hlive hid hlen
    rw [hret]
    dsimp only
    rw [he]
    exact ⟨hc, rfl⟩

theorem cancelTimer (entryId : TimerEntryId) :
    Cancels t (if (t.cancelTimer entryId).1 then 1 else 0) (t.cancelTimer entryId).2 := by
  rcases TimingWheel.cancelTimer_drops h.placed entryId with ⟨-, hc⟩ | ⟨e, w, hid, hd, hc⟩
  · have heq : t.cancelTimer entryId = (false, t) := by
      rw [GlobalTimerTask.cancelTimer, hc]
      exact if_neg Bool.false_ne_true
    rw [heq]
    exact .refl h
  · have hin : entryId ∈ t.timingWheel.liveIds := by
      rw [TimingWheel.liveIds, hd.live_eq, Multiset.map_add, Multiset.map_singleton, hid]
      exact Multiset.mem_add.mpr (Or.inl (Multiset.mem_singleton_self _))
    obtain ⟨conn, hconn⟩ := Option.isSome_iff_exists.mp ((h.mem_liveIds entryId).mp hin)
    have heq : t.cancelTimer entryId = (true,
        { t with
          timingWheel := w
          entryToConnection := t.entryToConnection.erase entryId
          connectionTimers := Groups.leave t.connectionTimers conn [entryId]
          cancelledTimers := t.cancelledTimers + 1 }) := by
      rw [GlobalTimerTask.cancelTimer, hc]
      dsimp only
      rw [if_pos rfl, hconn]
    rw [heq]
    refine ⟨?_, by rw [hd.live_eq, Multiset.card_add]; rfl, rfl⟩
    apply h.shrink hd (h.inverse.leave hconn)
    intro id
    rw [SortedMap.getElem?_erase, Multiset.map_singleton, Multiset.mem_singleton, hid]
    by_cases hne : entryId = id
    · simp [hne]
    · simp [hne, Ne.symm hne]

theorem batchCancelTimers {entryIds : List TimerEntryId} {slotOrder : List ℕ}
    {order : List ConnectionId} (hh : t.timingWheel.Harmless entryIds)
    (hs : IsOrder slotOrder ((t.timingWheel.findPlaces entryIds).map (·.2.1)))
    (ho : IsOrder order ((SortedMap.takeAll t.entryToConnection entryIds).1.map (·.2))) :
    Cancels t (t.batchCancelTimers entryIds slotOrder order).1.successCount
      (t.batchCancelTimers entryIds slotOrder order).2 := by
  rw [GlobalTimerTask.batchCancelTimers]
  split
  · exact .refl h
  · obtain ⟨R, hd, hR⟩ := TimingWheel.batchCancelTimers_drops h.placed hh hs
    obtain ⟨hremoved, howners, hcount⟩ := collectCancelled_eq 0 entryIds t.entryToConnection
    have hcard : R.card = (collectCancelled 0 entryIds t.entryToConnection).1.successCount := by
      have hids : List.Perm (entryIds.dedup.filter (· ∈ t.timingWheel.liveIds))
          ((SortedMap.takeAll t.entryToConnection entryIds).1.map Prod.fst) := by
        rw [List.perm_ext_iff_of_nodup ((List.nodup_dedup _).filter _)
          (SortedMap.nodup_takeAll _ _)]
        intro id
        simp only [List.mem_filter, List.mem_dedup, decide_eq_true_eq, h.mem_liveIds,
          Option.isSome_iff_exists, List.mem_map, Prod.exists, SortedMap.mem_takeAll_iff]
        constructor
        · rintro ⟨hid, conn, hconn⟩
          exact ⟨id, conn, ⟨hid, hconn⟩, rfl⟩
        · rintro ⟨_, conn, ⟨hid, hconn⟩, rfl⟩
          exact ⟨hid, conn, hconn⟩
      have hlen := congrArg Multiset.card hR
      rw [Multiset.card_map, Multiset.coe_card, hids.length_eq, List.length_map] at hlen
      rw [hcount, hlen]
    dsimp only
    refine ⟨?_, by rw [hd.live_eq, Multiset.card_add, hcard], rfl⟩
    · rw [hremoved, howners]
      apply h.shrink hd
      · exact h.inverse.leaveAll ho.1 (fun x hx => ho.2.2 _ (List.mem_map_of_mem hx))
          fun k o => SortedMap.mem_takeAll_iff
      · intro id
        rw [SortedMap.getElem?_eraseAll, hR, Multiset.mem_coe, List.mem_filter, List.mem_dedup,
          decide_eq_true_eq, h.mem_liveIds]
        by_cases hid : id ∈ entryIds
        · simp [hid]
        · simp [hid]

omit h in
/-- Cancelling timers of the wheel one after another takes all of them out. -/
theorem cancelEach_spec {ids : List TimerEntryId} (hp : Placed t.timingWheel) (hnd : ids.Nodup)
    (hin : ∀ id ∈ ids, id ∈ t.timingWheel.liveIds) :
    ∃ w R, Drops t.timingWheel w R ∧ R.map TimingWheel.TimerEntry.id = ↑ids ∧
      cancelEach t ids = (ids.length,
        { t with
          timingWheel := w
          entryToConnection := SortedMap.eraseAll t.entryToConnection ids
          cancelledTimers := t.cancelledTimers + ids.length }) := by
  induction ids generalizing t with
  | nil => exact ⟨t.timingWheel, 0, .refl hp, rfl, rfl⟩
  | cons id ids ih =>
    rw [List.nodup_cons] at hnd
    rw [List.forall_mem_cons] at hin
    rcases TimingWheel.cancelTimer_drops hp id with ⟨hn, -⟩ | ⟨e, w, rfl, hd, hc⟩
    · exact absurd hin.1 hn
    · obtain ⟨w', R, hd', hR, hc'⟩ := ih
        (t := { t with
          timingWheel := w
          entryToConnection := t.entryToConnection.erase e.id
          cancelledTimers := t.cancelledTimers + 1 }) hd.placed hnd.2 (by
          intro id hid
          rw [hd.mem_liveIds hp, Multiset.map_singleton, Multiset.mem_singleton]
          exact ⟨hin.2 id hid, ne_of_mem_of_not_mem hid hnd.1⟩)
      refine ⟨w', {e} + R, hd.trans hd', ?_, ?_⟩
      · rw [Multiset.map_add, hR, Multiset.map_singleton, Multiset.singleton_add,
          Multiset.cons_coe]
      · rw [cancelEach, hc]
        dsimp only
        rw [if_pos rfl, hc', List.length_cons]
        dsimp only
        rw [Nat.add_right_comm, Nat.add_assoc]
        rfl

theorem clearConnectionTimers {connectionId : ConnectionId} {order : List TimerEntryId}
    (ho : ↑order = (Groups.members t.connectionTimers connectionId).val) :
    Cancels t (t.clearConnectionTimers connectionId order).1
      (t.clearConnectionTimers connectionId order).2 := by
  rw [GlobalTimerTask.clearConnectionTimers]
  split
  · have hnd : order.Nodup := by
      rw [← Multiset.coe_nodup, ho]
      exact Finset.nodup _
    have hmem (id : TimerEntryId) :
        id ∈ order ↔ id ∈ Groups.members t.connectionTimers connectionId := by
      rw [← Multiset.mem_coe, ho, Finset.mem_val]
    obtain ⟨w, R, hd, hR, hc⟩ := cancelEach_spec
      (t := { t with connectionTimers := t.connectionTimers.erase connectionId }) h.placed
      hnd (by
        intro id hid
        have hconn := (h.inverse.mem_iff id connectionId).mp ((hmem id).mp hid)
        exact (h.mem_liveIds id).mpr (by rw [hconn]; rfl))
    have hcard : R.card = order.length := by
      rw [← Multiset.card_map TimingWheel.TimerEntry.id, hR, Multiset.coe_card]
    rw [hc]
    refine ⟨?_, ?_, rfl⟩
    · apply h.shrink hd (h.inverse.dissolve hmem)
      intro id
      rw [SortedMap.getElem?_eraseAll, hR, Multiset.mem_coe]
      by_cases hid : id ∈ order
      · simp [hid]
      · simp [hid]
    · have hl := hd.live_eq
      dsimp only at hl ⊢
      rw [hl, Multiset.card_add, hcard]
  · exact .refl h

theorem advanceTimingWheel {now : Instant} {order : List ConnectionId}
    (ho : IsOrder order
      ((t.expiredByConnection (t.timingWheel.advance now).1).map (·.2))) :
    Consistent (t.advanceTimingWheel now order).2 ∧
      (t.advanceTimingWheel now order).2.cancelledTimers = t.cancelledTimers := by
  have hd := TimingWheel.advance_drops h.placed now
  have hids :
      (↑(t.timingWheel.advance now).1 : Multiset (TimingWheel.TimerEntry (TimerEvent E))).map
      TimingWheel.TimerEntry.id =
        ↑((t.timingWheel.advance now).1.map TimingWheel.TimerEntry.id) := rfl
  rw [GlobalTimerTask.advanceTimingWheel]
  dsimp only
  split
  · rename_i hnil
    rw [List.isEmpty_iff.mp hnil] at hd
    refine ⟨?_, rfl⟩
    apply h.shrink hd h.inverse
    intro id
    simp
  · refine ⟨?_, rfl⟩
    apply h.shrink hd
    · apply h.inverse.leaveAll ho.1 fun x hx => ho.2.2 _ (List.mem_map_of_mem hx)
      intro id conn
      simp only [expiredByConnection, List.mem_filterMap, Option.map_eq_some_iff, List.mem_map,
        Prod.mk.injEq]
      constructor
      · rintro ⟨e, he, c, hc, rfl, rfl⟩
        exact ⟨⟨e, he, rfl⟩, hc⟩
      · rintro ⟨⟨e, he, rfl⟩, hc⟩
        exact ⟨e, he, conn, hc, rfl, rfl⟩
    · intro id
      rw [SortedMap.getElem?_eraseAll, hids, Multiset.mem_coe]
      by_cases hid : id ∈ (t.timingWheel.advance now).1.map TimingWheel.TimerEntry.id
      · simp [hid]
      · simp [hid]

theorem getNextWakeupTime (now : Instant) :
    Consistent (t.getNextWakeupTime now).2 ∧
      (t.getNextWakeupTime now).2.cancelledTimers = t.cancelledTimers := by
  obtain ⟨c, heq⟩ := t.getNextWakeupTime_cached now
  rw [heq]
  exact ⟨{ h with placed := h.placed.cached c }, rfl⟩

end Consistent

end GlobalTimerTask

/-- A batch to cancel repeats a timer only where that is harmless. -/
def TaskOp.RepeatsHarmlessly {E : Type} (t : GlobalTimerTask E) : TaskOp E → Prop
  | .batchCancelTimers entryIds _ _ => t.timingWheel.Harmless entryIds
  | _ => True

instance {E : Type} (t : GlobalTimerTask E) :
    DecidablePred (TaskOp.RepeatsHarmlessly t)
  | .batchCancelTimers .. => inferInstanceAs (Decidable (TimingWheel.Harmless _ _))
  | .registerTimer .. | .batchRegisterTimers .. | .cancelTimer _ | .clearConnectionTimers ..
  | .advanceTimingWheel .. | .getNextWakeupTime _ => .isTrue trivial

namespace TaskRun

variable {E : Type} {r : TaskRun E}

/-- The timers in the wheel, in its map and in the reverse mapping are the same; each is in the set
of its connection and in no other, no set is empty, and what was reported as cancelled, to the
callers and in the statistics, is what left the wheel by cancellation. -/
structure TablesAgree (r : TaskRun E) : Prop where
  live_iff : ∀ id : TimerEntryId, (∃ entry ∈ r.task.timingWheel.live, entry.id = id) ↔
    ∃ connectionId, r.task.entryToConnection[id]? = some connectionId
  timerMap_iff : ∀ id : TimerEntryId, (∃ place, r.task.timingWheel.timerMap[id]? = some place) ↔
    ∃ connectionId, r.task.entryToConnection[id]? = some connectionId
  mem_iff : ∀ (id : TimerEntryId) (connectionId : ConnectionId),
    (∃ ids, r.task.connectionTimers[connectionId]? = some ids ∧ id ∈ ids) ↔
      r.task.entryToConnection[id]? = some connectionId
  nonempty : ∀ (connectionId : ConnectionId) (ids : Finset TimerEntryId),
    r.task.connectionTimers[connectionId]? = some ids → ids.Nonempty
  reported_eq : r.reported = r.cancelled
  cancelledTimers_eq : r.task.cancelledTimers = r.cancelled

/-- The tables are consistent and the counters agree. -/
structure Sound (r : TaskRun E) : Prop where
  consistent : r.task.Consistent
  reported_eq : r.reported = r.cancelled
  cancelledTimers_eq : r.task.cancelledTimers = r.cancelled

theorem Sound.tablesAgree (h : Sound r) : TablesAgree r where
  live_iff id := by
    rw [← Option.isSome_iff_exists, ← h.consistent.mem_liveIds, TimingWheel.liveIds,
      Multiset.mem_map]
  timerMap_iff id := by
    rw [← Option.isSome_iff_exists, ← Option.isSome_iff_exists, ← h.consistent.mem_liveIds,
      h.consistent.placed.mem_liveIds]
  mem_iff id connectionId := by
    rw [← h.consistent.inverse.mem_iff, Groups.members]
    cases r.task.connectionTimers[connectionId]? with
    | none => simp
    | some ids => simp
  nonempty connectionId ids hids := by
    rw [Finset.nonempty_iff_ne_empty]
    rintro rfl
    exact h.consistent.inverse.noneEmpty connectionId hids
  reported_eq := h.reported_eq
  cancelledTimers_eq := h.cancelledTimers_eq

theorem Sound.afterCancel (h : Sound r) {reported : ℕ} {t : GlobalTimerTask E}
    (hc : r.task.Cancels reported t) : Sound (r.afterCancel reported t) := by
  have hleft : r.task.timingWheel.live.card - t.timingWheel.live.card = reported := by
    rw [hc.card_live, Nat.add_sub_cancel]
  refine ⟨hc.consistent, ?_, ?_⟩
  · rw [TaskRun.afterCancel, hleft, h.reported_eq]
  · rw [TaskRun.afterCancel, hleft, hc.cancelledTimers_eq, h.cancelledTimers_eq]

theorem Sound.apply (h : Sound r) {op : TaskOp E} (ha : r.Admissible op)
    (hr : op.RepeatsHarmlessly r.task) : Sound (r.apply op) := by
  -- an operation that cancels nothing
  have hother {r' : TaskRun E}
      (hc : r'.task.Consistent ∧ r'.task.cancelledTimers = r.task.cancelledTimers)
      (hrep : r'.reported = r.reported) (hcan : r'.cancelled = r.cancelled) : Sound r' :=
    ⟨hc.1, by rw [hrep, hcan, h.reported_eq], by rw [hc.2, hcan, h.cancelledTimers_eq]⟩
  cases op with
  | registerTimer now registration => exact hother (h.consistent.registerTimer registration) rfl rfl
  | batchRegisterTimers now registrations order =>
    exact hother (h.consistent.batchRegisterTimers ha.2) rfl rfl
  | cancelTimer entryId => exact h.afterCancel (h.consistent.cancelTimer entryId)
  | batchCancelTimers entryIds slotOrder order =>
    exact h.afterCancel (h.consistent.batchCancelTimers hr ha.1 ha.2)
  | clearConnectionTimers connectionId order =>
    exact h.afterCancel (h.consistent.clearConnectionTimers ha)
  | advanceTimingWheel now order => exact hother (h.consistent.advanceTimingWheel ha.2) rfl rfl
  | getNextWakeupTime now => exact hother (h.consistent.getNextWakeupTime now) rfl rfl

/-- In every run in which batches repeat a timer only where that is harmless, the tables agree. -/
theorem tables_agree
    (h : ((system E).restrict fun r op _ => op.RepeatsHarmlessly r.task).Reachable r) :
    TablesAgree r := by
  have hinv : ((system E).restrict fun r op _ => op.RepeatsHarmlessly r.task).Invariant Sound :=
    { init := by
        rintro r ⟨now, t, hnew, rfl⟩
        have hzero : t.cancelledTimers = 0 := by
          obtain ⟨w, -, rfl⟩ := Option.map_eq_some_iff.mp hnew
          rfl
        exact ⟨GlobalTimerTask.consistent_new hnew, rfl, hzero⟩
      step := by
        rintro r op r' - hr ⟨hs, hl⟩
        obtain ⟨hop, he⟩ := Option.ite_none_right_eq_some.mp hs
        cases he
        exact hr.apply hop hl }
  exact (hinv.holds h).tablesAgree

section Sample

def sampleRegistration (delay : Duration) : TimerRegistration Unit := ⟨7, delay, (), 0⟩

/-- Of two timers in one slot the last is cancelled twice in one batch; the other one expires. -/
theorem tables_agree_sample : ∃ r : TaskRun Unit,
    (r.reported = 1 ∧ r.expired = [(1, 20)]) ∧ TablesAgree r := by
  have hrun : ∃ r, ((system Unit).restrict fun r op _ => op.RepeatsHarmlessly r.task).Run
      [.registerTimer 0 (sampleRegistration 5), .registerTimer 0 (sampleRegistration 6),
        .batchCancelTimers [2, 2] [0] [7], .advanceTimingWheel 20 [7]] r ∧
        (r.reported = 1 ∧ r.expired = [(1, 20)]) :=
    TransitionSystem.exists_restrict_run_of_foldlM _ sampleTask_init (by decide +kernel)
  obtain ⟨r, hr, hp⟩ := hrun
  exact ⟨r, hp, tables_agree hr.reachable⟩

/-- Of two timers in one slot the first is cancelled twice in one batch, which takes out both. -/
theorem tables_disagree : ∃ r : TaskRun Unit, (system Unit).Reachable r ∧ ¬ TablesAgree r := by
  have hrun : ∃ r, (system Unit).Run
      [.registerTimer 0 (sampleRegistration 5), .registerTimer 0 (sampleRegistration 6),
        .batchCancelTimers [1, 1] [0] [7]] r ∧ (r.reported = 1 ∧ r.cancelled = 2) :=
    TransitionSystem.exists_run_of_foldlM _ sampleTask_init (by decide +kernel)
  obtain ⟨r, hr, hrep, hcan⟩ := hrun
  refine ⟨r, hr.reachable, ?_⟩
  intro h
  have hne := h.reported_eq
  rw [hrep, hcan] at hne
  exact absurd hne (by decide)

end Sample

end TaskRun

end Kestrel
