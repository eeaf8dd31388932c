import Kestrel.Endpoint.TimerService

/-! # The timers of a connection among those of others

Whatever the connections do that share the timer task, each of them has the timers that it would
have alone, and its events come when their time has passed.
-/

namespace Kestrel

open TimingWheel (TimerEntryId IsOrder)

namespace TimerClient

variable {held held' : Multiset (TimingWheel.TimerEntry (TimerEvent TimeoutEvent))}
  {entry : TimingWheel.TimerEntry (TimerEvent TimeoutEvent)} {id : TimerEntryId}

theorem removed_of_cons (hnd : (held.map (·.id)).Nodup) (h : held = entry ::ₘ held') :
    Removed held held' entry.id := by
  rw [h, Multiset.map_cons, Multiset.nodup_cons] at hnd
  intro other
  rw [h, Multiset.mem_cons]
  constructor
  · intro ho
    exact ⟨Or.inr ho, fun hid => hnd.1 (hid ▸ Multiset.mem_map_of_mem _ ho)⟩
  · rintro ⟨rfl | ho, hid⟩
    · exact absurd rfl hid
    · exact ho

theorem removed_self (h : id ∉ held.map (·.id)) : Removed held held id := by
  intro other
  exact ⟨fun ho => ⟨ho, fun hid => h (hid ▸ Multiset.mem_map_of_mem _ ho)⟩, fun ho => ho.1⟩

end TimerClient

open TimerClient (Removed removed_of_cons removed_self)

namespace GlobalTimerTask

variable {t : GlobalTimerTask TimeoutEvent}

theorem live_new {now : Instant} (h : new now = some t) : t.timingWheel.live = 0 := by
  obtain ⟨w, hw, rfl⟩ := Option.map_eq_some_iff.mp h
  obtain ⟨-, -, hlive, -⟩ := TimingWheel.new_spec (by decide) (by decide) hw
  exact hlive

theorem registerTimer_spec (h : t.Consistent) (registration : TimerRegistration TimeoutEvent) :
    ∃ entry : TimingWheel.TimerEntry (TimerEvent TimeoutEvent),
      entry.id = t.timingWheel.nextEntryId ∧
        entry.expiryTime = t.timingWheel.currentTime + registration.delay ∧
        entry.event = registration.event t.nextEventId ∧
        (t.registerTimer registration).1 = ⟨t.timingWheel.nextEntryId⟩ ∧
        (t.registerTimer registration).2.timingWheel.live = entry ::ₘ t.timingWheel.live ∧
        (t.registerTimer registration).2.timingWheel.nextEntryId =
          t.timingWheel.nextEntryId + 1 := by
  obtain ⟨entry, hid, htime, hevent, hret, -, hlive, -⟩ := TimingWheel.addTimer_spec h.placed
    registration.delay (registration.event t.nextEventId)
  exact ⟨entry, hid, htime, hevent, congrArg TimerHandle.mk (hret.trans hid), hlive, rfl⟩

theorem cancelTimer_removed (h : t.Consistent) (hnd : (t.timingWheel.live.map (·.id)).Nodup)
    (id : TimerEntryId) :
    Removed t.timingWheel.live (t.cancelTimer id).2.timingWheel.live id ∧
      (t.cancelTimer id).2.timingWheel.live ≤ t.timingWheel.live ∧
        (t.cancelTimer id).2.timingWheel.nextEntryId = t.timingWheel.nextEntryId := by
  have hwheel : (t.cancelTimer id).2.timingWheel = (t.timingWheel.cancelTimer id).2 := by
    rw [cancelTimer]
    dsimp only
    split
    · split <;> rfl
    · rfl
  rw [hwheel]
  rcases TimingWheel.cancelTimer_drops h.placed id with ⟨hnot, hc⟩ | ⟨entry, w, rfl, hd, hc⟩
  · rw [hc]
    exact ⟨removed_self hnot, le_rfl, rfl⟩
  · rw [hc]
    exact ⟨removed_of_cons hnd hd.live_eq, hd.live_eq ▸ Multiset.le_add_left _ _,
      hd.nextEntryId_eq⟩

theorem advanceTimingWheel_spec (h : t.Consistent) (now : Instant) (order : List ConnectionId) :
    t.timingWheel.live = ↑(t.timingWheel.advance now).1 +
        (t.advanceTimingWheel now order).2.timingWheel.live ∧
      (t.advanceTimingWheel now order).2.timingWheel.nextEntryId = t.timingWheel.nextEntryId ∧
      ∀ entry ∈ (t.timingWheel.advance now).1, entry.expiryTime ≤ now := by
  have hd := TimingWheel.advance_drops h.placed now
  rw [t.timingWheel_advanceTimingWheel]
  exact ⟨hd.live_eq, hd.nextEntryId_eq,
    fun entry he => ((TimingWheel.expires_advance now).expired entry he).2⟩

theorem getNextWakeupTime_spec (now : Instant) :
    (t.getNextWakeupTime now).2.timingWheel.live = t.timingWheel.live ∧
      (t.getNextWakeupTime now).2.timingWheel.nextEntryId = t.timingWheel.nextEntryId := by
  obtain ⟨c, heq⟩ := t.getNextWakeupTime_cached now
  rw [heq]
  exact ⟨rfl, rfl⟩

end GlobalTimerTask

namespace TimerService

variable {s s' : TimerService} {i : ℕ} {c c' : TimerClient} {id : TimerEntryId}

/-- The task is in order, the timers that it holds have identifiers and channels of their own, and
each client is served. -/
structure Sound (s : TimerService) : Prop where
  consistent : s.task.Consistent
  nodup_ids : (s.held.map (·.id)).Nodup
  id_lt : ∀ entry ∈ s.held, entry.id < s.task.timingWheel.nextEntryId
  callback_lt : ∀ entry ∈ s.held, entry.event.callbackTx < s.clients.length
  expired : ∀ entry ∈ s.sending, entry.expiryTime ≤ s.now
  served : ∀ (i : ℕ) (c : TimerClient), s.clients[i]? = some c →
    c.Served i s.task.timingWheel.nextEntryId s.held

/-- A step that changes nothing in the timers which the task holds. -/
theorem Sound.keeps (h : s.Sound) (hconsistent : s'.task.Consistent)
    (hnext : s'.task.timingWheel.nextEntryId = s.task.timingWheel.nextEntryId)
    (hheld : s'.held = s.held) (hlen : s.clients.length ≤ s'.clients.length)
    (hexpired : ∀ entry ∈ s'.sending, entry.expiryTime ≤ s'.now)
    (hserved : ∀ (i : ℕ) (c : TimerClient), s'.clients[i]? = some c →
      c.Served i s.task.timingWheel.nextEntryId s.held) : s'.Sound where
  consistent := hconsistent
  nodup_ids := hheld ▸ h.nodup_ids
  id_lt := by
    rw [hheld, hnext]
    exact h.id_lt
  callback_lt entry he := (h.callback_lt entry (hheld ▸ he)).trans_le hlen
  expired := hexpired
  served i c hc := by
    rw [hheld, hnext]
    exact hserved i c hc

theorem getElem?_set_cases {clients : List TimerClient} {j : ℕ} {d : TimerClient}
    (h : (clients.set i c')[j]? = some d) :
    j = i ∧ d = c' ∨ j ≠ i ∧ clients[j]? = some d := by
  rw [List.getElem?_set] at h
  split at h
  · rename_i hij
    split at h
    · cases h
      exact Or.inl ⟨hij.symm, rfl⟩
    · cases h
  · rename_i hij
    exact Or.inr ⟨Ne.symm hij, h⟩

theorem Sound.setClient (h : s.Sound) (hc' : c'.Served i s.task.timingWheel.nextEntryId s.held) :
    (s.setClient i c').Sound := by
  refine h.keeps h.consistent rfl rfl (List.length_set ..).ge h.expired ?_
  intro j d hd
  rcases getElem?_set_cases hd with ⟨rfl, rfl⟩ | ⟨-, hd⟩
  · exact hc'
  · exact h.served j d hd

/-- A step that gives the task a timer on behalf of a client. -/
theorem Sound.adds (h : s.Sound) (hc : s.clients[i]? = some c)
    {entry : TimingWheel.TimerEntry (TimerEvent TimeoutEvent)}
    (hid : entry.id = s.task.timingWheel.nextEntryId) (hi : entry.event.callbackTx = i)
    (hconsistent : s'.task.Consistent)
    (hnext : s'.task.timingWheel.nextEntryId = s.task.timingWheel.nextEntryId + 1)
    (hheld : s'.held = entry ::ₘ s.held) (hclients : s'.clients = s.clients.set i c')
    (hexpired : ∀ entry ∈ s'.sending, entry.expiryTime ≤ s'.now)
    (hc' : c'.Served i (s.task.timingWheel.nextEntryId + 1) (entry ::ₘ s.held)) : s'.Sound where
  consistent := hconsistent
  nodup_ids := by
    rw [hheld, Multiset.map_cons, Multiset.nodup_cons]
    refine ⟨fun hmem => ?_, h.nodup_ids⟩
    obtain ⟨other, ho, heq⟩ := Multiset.mem_map.mp hmem
    exact (h.id_lt other ho).ne (heq.trans hid)
  id_lt := by
    rw [hheld, hnext]
    intro other ho
    rcases Multiset.mem_cons.mp ho with rfl | hold
    · exact hid ▸ Nat.lt_succ_self _
    · exact (h.id_lt other hold).trans (Nat.lt_succ_self _)
  callback_lt := by
    rw [hheld, hclients, List.length_set]
    intro other ho
    rcases Multiset.mem_cons.mp ho with rfl | hold
    · exact hi ▸ (List.getElem?_eq_some_iff.mp hc).1
    · exact h.callback_lt other hold
  expired := hexpired
  served j d hd := by
    rw [hheld, hnext]
    rw [hclients] at hd
    rcases getElem?_set_cases hd with ⟨rfl, rfl⟩ | ⟨hj, hd⟩
    · exact hc'
    · apply (h.served j d hd).frame (Nat.le_succ _)
      · intro other ho
        rcases Multiset.mem_cons.mp ho with rfl | hold
        · exact Or.inr hid.ge
        · exact Or.inl hold
      · intro other ho
        rw [Multiset.mem_cons, or_iff_right]
        rintro rfl
        exact hj (ho.symm.trans hi)

/-- A step that takes a timer out of the task on behalf of its client. -/
theorem Sound.removes (h : s.Sound) (hc : s.clients[i]? = some c) (handle : TimerHandle)
    (hin : handle.entryId ∈ c.entries) (hconsistent : s'.task.Consistent)
    (hnext : s'.task.timingWheel.nextEntryId = s.task.timingWheel.nextEntryId)
    (hr : Removed s.held s'.held handle.entryId) (hle : s'.held ≤ s.held)
    (hclients : s'.clients = s.clients.set i c')
    (hexpired : ∀ entry ∈ s'.sending, entry.expiryTime ≤ s'.now)
    (hc' : c'.Served i s.task.timingWheel.nextEntryId s'.held) : s'.Sound where
  consistent := hconsistent
  nodup_ids := Multiset.nodup_of_le (Multiset.map_le_map hle) h.nodup_ids
  id_lt entry he := hnext ▸ h.id_lt entry (Multiset.mem_of_le hle he)
  callback_lt entry he := by
    rw [hclients, List.length_set]
    exact h.callback_lt entry (Multiset.mem_of_le hle he)
  expired := hexpired
  served j d hd := by
    rw [hnext]
    rw [hclients] at hd
    rcases getElem?_set_cases hd with ⟨rfl, rfl⟩ | ⟨hj, hd⟩
    · exact hc'
    · apply hr.frame (h.served j d hd)
      -- the timer that goes is on no other channel
      intro entry he hcallback hid
      have hi := ((h.served i c hc).mem_entries_iff entry he).mp (hid ▸ hin)
      exact hj (hcallback.symm.trans hi)

section Step

variable {event : TimeoutEvent} {handle : TimerHandle}

theorem sound_init {t : GlobalTimerTask TimeoutEvent} {now : Instant}
    (h : GlobalTimerTask.new now = some t) : Sound ⟨t, [], [], now⟩ := by
  have hheld : TimerService.held ⟨t, [], [], now⟩ = 0 := by
    rw [held, GlobalTimerTask.live_new h]
    rfl
  constructor
  · exact GlobalTimerTask.consistent_new h
  · rw [hheld]
    exact Multiset.nodup_zero
  · rw [hheld]
    exact fun entry he => absurd he (Multiset.notMem_zero entry)
  · rw [hheld]
    exact fun entry he => absurd he (Multiset.notMem_zero entry)
  · exact fun entry he => absurd he List.not_mem_nil
  · intro i c hc
    cases hc

theorem Sound.connect (h : s.Sound) (connectionId : ConnectionId) :
    Sound { s with clients := s.clients ++ [.new connectionId] } := by
  refine h.keeps h.consistent rfl rfl ?_ h.expired ?_
  · rw [List.length_append]
    exact Nat.le_add_right _ _
  · intro i c hc
    change (s.clients ++ [TimerClient.new connectionId])[i]? = some c at hc
    rcases lt_or_ge i s.clients.length with hlt | hge
    · rw [List.getElem?_append_left hlt] at hc
      exact h.served i c hc
    · rw [List.getElem?_append_right hge, List.getElem?_singleton] at hc
      split at hc
      · cases hc
        exact TimerClient.served_new fun entry he => ((h.callback_lt entry he).trans_le hge).ne
      · cases hc

theorem Sound.registerTimer (h : s.Sound) (hc : s.clients[i]? = some c) (delay : Duration) :
    ({ s with task := (s.task.registerTimer ⟨c.connectionId, delay, event, i⟩).2 }.setClient i
      (c.registered event delay s.task.timingWheel.currentTime
        (s.task.registerTimer ⟨c.connectionId, delay, event, i⟩).1)).Sound := by
  obtain ⟨entry, hid, htime, hevent, hhandle, hlive, hnext⟩ :=
    GlobalTimerTask.registerTimer_spec h.consistent ⟨c.connectionId, delay, event, i⟩
  have hi : entry.event.callbackTx = i := by
    rw [hevent]
    rfl
  refine h.adds hc hid hi (h.consistent.registerTimer _).1 hnext ?_ rfl h.expired ?_
  · exact (congrArg (· + ↑s.sending) hlive).trans (Multiset.cons_add _ _ _)
  · rw [hhandle]
    refine (h.served i c hc).registered h.id_lt hid htime hi ?_
    rw [hevent]
    rfl

theorem Sound.cancels (h : s.Sound) (hc : s.clients[i]? = some c) (hsending : s.sending = [])
    (hin : handle.entryId ∈ c.entries)
    (hc' : ∀ held', Removed s.held held' handle.entryId →
      c'.Served i s.task.timingWheel.nextEntryId held') :
    ({ s with task := (s.task.cancelTimer handle.entryId).2 }.setClient i c').Sound := by
  have hheld (t : GlobalTimerTask TimeoutEvent) (clients : List TimerClient) :
      TimerService.held ⟨t, clients, s.sending, s.now⟩ = t.timingWheel.live := by
    rw [held, hsending]
    exact add_zero _
  have hnd := h.nodup_ids
  rw [hheld s.task s.clients] at hnd
  obtain ⟨hr, hle, hnext⟩ :=
    GlobalTimerTask.cancelTimer_removed h.consistent hnd handle.entryId
  rw [← hheld s.task s.clients, ← hheld _ (s.clients.set i c')] at hr hle
  exact h.removes hc handle hin (h.consistent.cancelTimer _).consistent hnext hr hle rfl h.expired
    (hc' _ hr)

theorem Sound.drop (h : s.Sound) (hc : s.clients[i]? = some c) :
    (s.setClient i { c with dropped := true }).Sound := by
  have hserved := h.served i c hc
  exact h.setClient { hserved with
    mirrors := { hserved.mirrors with timeoutRx_eq := fun hd => by cases hd } }

theorem Sound.advanceTimingWheel (h : s.Sound) (hsending : s.sending = []) {now : Instant}
    {order : List ConnectionId}
    (ho : IsOrder order
      ((s.task.expiredByConnection (s.task.timingWheel.advance now).1).map (·.2))) :
    Sound { s with
      task := (s.task.advanceTimingWheel now order).2
      sending := (s.task.timingWheel.advance now).1
      now } := by
  obtain ⟨hlive, hnext, hexpired⟩ :=
    GlobalTimerTask.advanceTimingWheel_spec h.consistent now order
  refine h.keeps (h.consistent.advanceTimingWheel ho).1 hnext ?_ le_rfl hexpired h.served
  rw [held, held, hsending, hlive, add_comm]
  exact (add_zero _).symm

theorem Sound.send (h : s.Sound) {k : ℕ}
    {entry : TimingWheel.TimerEntry (TimerEvent TimeoutEvent)} (hk : s.sending[k]? = some entry)
    (hc : s.clients[entry.event.callbackTx]? = some c) :
    ({ s with sending := s.sending.eraseIdx k }.setClient entry.event.callbackTx
      (c.receive entry s.now)).Sound := by
  have hsending : (↑s.sending : Multiset (TimingWheel.TimerEntry (TimerEvent TimeoutEvent))) =
      entry ::ₘ ↑(s.sending.eraseIdx k) := by
    obtain ⟨hlt, rfl⟩ := List.getElem?_eq_some_iff.mp hk
    exact Multiset.coe_eq_coe.mpr (List.getElem_cons_eraseIdx_perm hlt).symm
  have hheld : s.held =
      entry ::ₘ (s.task.timingWheel.live + ↑(s.sending.eraseIdx k)) := by
    rw [held, hsending, Multiset.add_cons]
  have he : entry ∈ s.held := hheld ▸ Multiset.mem_cons_self _ _
  have hr := removed_of_cons h.nodup_ids hheld
  have hserved := h.served _ c hc
  refine h.removes hc ⟨entry.id⟩ ((hserved.mem_entries_iff entry he).mpr rfl)
    h.consistent rfl hr (hheld ▸ Multiset.le_cons_self _ _) rfl ?_ ?_
  · exact fun other ho => h.expired other (List.mem_of_mem_eraseIdx ho)
  · exact hserved.receive h.nodup_ids he rfl (h.expired entry (List.mem_of_getElem? hk)) hr

theorem Sound.getNextWakeupTime (h : s.Sound) (now : Instant) :
    Sound { s with task := (s.task.getNextWakeupTime now).2 } := by
  obtain ⟨hlive, hnext⟩ := GlobalTimerTask.getNextWakeupTime_spec (t := s.task) now
  refine h.keeps (h.consistent.getNextWakeupTime now).1 hnext ?_ le_rfl h.expired h.served
  rw [held, held, hlive]

theorem Sound.next (h : s.Sound) {ev : ServiceEvent} (hs : s.next ev = some s') : s'.Sound := by
  cases ev with
  | connect connectionId =>
    cases hs
    exact h.connect connectionId
  | registerTimer i event delay =>
    obtain ⟨c, hc, hs⟩ := Option.bind_eq_some_iff.mp hs
    obtain ⟨-, hs⟩ := Option.ite_none_right_eq_some.mp hs
    cases hs
    exact h.registerTimer hc delay
  | cancelTimer i event =>
    obtain ⟨c, hc, hs⟩ := Option.bind_eq_some_iff.mp hs
    have hserved := h.served i c hc
    cases hactive : c.activeTimers event with
    | some handle =>
      rw [hactive] at hs
      obtain ⟨⟨hsending, -⟩, hs⟩ := Option.ite_none_right_eq_some.mp hs
      cases hs
      exact h.cancels hc hsending (hserved.active_mem event handle hactive)
        fun held' hr => hserved.cancelled hactive hr
    | none =>
      rw [hactive] at hs
      obtain ⟨-, hs⟩ := Option.ite_none_right_eq_some.mp hs
      cases hs
      exact h.setClient (hserved.cancelled_none hactive)
  | checkTimerEvents i =>
    obtain ⟨c, hc, hs⟩ := Option.bind_eq_some_iff.mp hs
    obtain ⟨hd, hs⟩ := Option.ite_none_right_eq_some.mp hs
    cases hs
    exact h.setClient ((h.served i c hc).checkTimerEvents hd)
  | cancelReplaced i handle =>
    obtain ⟨c, hc, hs⟩ := Option.bind_eq_some_iff.mp hs
    obtain ⟨⟨hsending, hin⟩, hs⟩ := Option.ite_none_right_eq_some.mp hs
    cases hs
    have hserved := h.served i c hc
    exact h.cancels hc hsending (hserved.spawned_mem handle hin)
      fun held' hr => hserved.cancelDone hin hr
  | drop i =>
    obtain ⟨c, hc, hs⟩ := Option.bind_eq_some_iff.mp hs
    cases hs
    exact h.drop hc
  | advanceTimingWheel now order =>
    obtain ⟨⟨hsending, ho⟩, hs⟩ := Option.ite_none_right_eq_some.mp hs
    cases hs
    exact h.advanceTimingWheel hsending ho
  | send k =>
    obtain ⟨entry, hk, hs⟩ := Option.bind_eq_some_iff.mp hs
    obtain ⟨c, hc, hs⟩ := Option.bind_eq_some_iff.mp hs
    obtain ⟨-, hs⟩ := Option.ite_none_right_eq_some.mp hs
    cases hs
    exact h.send hk hc
  | getNextWakeupTime now =>
    obtain ⟨-, hs⟩ := Option.ite_none_right_eq_some.mp hs
    cases hs
    exact h.getNextWakeupTime now

theorem invariant_sound : system.Invariant Sound where
  init := by
    rintro s ⟨task, hnew, hs⟩
    rw [hs]
    exact sound_init hnew
  step _ _ _ _ h hs := h.next hs

/-- Whatever the connections do that share the task, the timers of each of them have gone through a
run of their own: what it was told is what that run reports, and its handles, its channel and the
timers that the task holds for it are those of the run. -/
theorem mirrors_own_timers (h : system.Reachable s) (hc : s.clients[i]? = some c) :
    ∃ x, TimerRun.system.Run c.log x ∧
      c.reported = TimerRun.reports ⟨.new, fun _ => none, [], [], []⟩ c.log ∧
      c.Mirrors i s.held x.manager := by
  have hserved := (invariant_sound.holds h).served i c hc
  exact ⟨_, TimerRun.run_replay c.log, hserved.reported_eq, hserved.mirrors⟩

end Step

section Sample

def sampleService : TimerService := ⟨(GlobalTimerTask.new 0).get rfl, [], [], 0⟩

/-- The first connection replaces its timer and the task drops the old one. Of the timers of both
that have expired only the one of the second connection is left to report. -/
theorem mirrors_own_timers_sample : ∃ (s : TimerService) (c : TimerClient),
    s.clients[1]? = some c ∧
    (s.clients.map (·.reported) = [[], [.idleTimeout]] ∧ s.held.card = 1) ∧
      ∃ x, TimerRun.system.Run c.log x ∧
        c.reported = TimerRun.reports ⟨.new, fun _ => none, [], [], []⟩ c.log ∧
        c.Mirrors 1 s.held x.manager := by
  have hinit : system.init sampleService := ⟨_, rfl, rfl⟩
  have hrun : ∃ s, system.Run
      [.connect 7, .connect 8, .registerTimer 0 .idleTimeout 5, .registerTimer 1 .idleTimeout 6,
        .registerTimer 0 .idleTimeout (Duration.fromSecs 1), .cancelReplaced 0 ⟨1⟩,
        .advanceTimingWheel 20 [8], .send 0, .checkTimerEvents 0, .checkTimerEvents 1] s ∧
        (s.clients.map (·.reported) = [[], [.idleTimeout]] ∧ s.held.card = 1) ∧
          (s.clients[1]?).isSome :=
    TransitionSystem.exists_run_of_foldlM _ hinit (by decide +kernel)
  obtain ⟨s, hr, hp⟩ := hrun
  obtain ⟨c, hc⟩ := Option.isSome_iff_exists.mp hp.2
  exact ⟨s, c, hc, hp.1, mirrors_own_timers hr.reachable hc⟩

end Sample

end TimerService

end Kestrel
