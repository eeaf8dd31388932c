import Kestrel.Lib.Relay
import Kestrel.Socket.Draining
import Kestrel.Socket.EarlyFrames

/-! # What the socket hands on

The router is a relay: a frame that is dispatched goes to a channel, into the cache, or nowhere, and
the cached frames of a key go to the channel of a new connection. So no frame is handed on more
often than it arrived, and a channel gets the frames of a key in the order of their arrival. The
frames that come with a SYN are put on the channel of the new endpoint before.
-/

namespace Kestrel

structure Arrival where
  frame : Frame
  remoteAddr : SocketAddr
  deriving DecidableEq, Repr

def PendingFrame.arrival (p : PendingFrame) : Arrival := ⟨p.frame, p.remoteAddr⟩

def Delivery.arrival (d : Delivery) : Arrival := ⟨d.frame, d.remoteAddr⟩

def Datagram.arrivals (d : Datagram) : List Arrival :=
  d.frames.map fun frame => ⟨frame, d.remoteAddr⟩

/-- The frames on an endpoint's channel from its start on. -/
def EndpointTask.arrivals (e : EndpointTask) : List Arrival :=
  e.zeroRtt.map fun frame => ⟨frame, e.remoteAddr⟩

namespace FrameRouter

variable {r r' : FrameRouter} {addrHash : SocketAddr → ℕ} {order : List SocketAddr} {now : Instant}
  {arrived : List Arrival} {cids : List ℕ} {cid : ℕ} {m : ConnectionMeta}

/-- The key under which a frame is cached if it comes early. -/
def arrivalKey (addrHash : SocketAddr → ℕ) (a : Arrival) : ℕ :=
  getCacheKey addrHash a.frame.destinationCid a.remoteAddr

/-- The router as a relay of what has arrived. -/
def relay (r : FrameRouter) (arrived : List Arrival) : Relay Arrival ℕ ℕ where
  arrived
  kept key := (r.cached key).map PendingFrame.arrival
  handed := r.delivered.map fun d => (d.sender, d.arrival)

/-- What a router does with frames, of which some arrive. -/
def Relays (addrHash : SocketAddr → ℕ) (arrived arrived' : List Arrival) (r r' : FrameRouter) :
    Prop :=
  Relation.ReflTransGen (Relay.Step (arrivalKey addrHash)) (r.relay arrived) (r'.relay arrived')

/-- Every connection has the channel of the endpoint with its CID, and so had those that frames were
delivered to. -/
structure Owned (cids : List ℕ) (r : FrameRouter) : Prop where
  active : ∀ (cid : ℕ) (m : ConnectionMeta), r.activeConnections[cid]? = some m →
    cids[m.sender]? = some cid
  delivered : ∀ d ∈ r.delivered, cids[d.sender]? = some d.cid

theorem relays_of_eq (hc : r'.cached = r.cached) (hd : r'.delivered = r.delivered) :
    Relays addrHash arrived arrived r r' := by
  unfold Relays relay
  rw [hc, hd]

theorem Owned.shrink (h : r.Owned cids) (hd : r'.delivered = r.delivered)
    (ha : ∀ (cid : ℕ) (m : ConnectionMeta), r'.activeConnections[cid]? = some m →
      r.activeConnections[cid]? = some m) : r'.Owned cids where
  active c m hm := h.active c m (ha c m hm)
  delivered := hd ▸ h.delivered

section Dispatching

variable {isOpen : Bool} {frame : Frame} {remoteAddr : SocketAddr}

/-- A frame that is cached belongs to no connection. -/
theorem lookup_of_frameCached
    (h : (r.dispatchFrame addrHash order now isOpen frame remoteAddr).1 = .frameCached) :
    r.lookup frame remoteAddr = none := by
  have hsend (c : ℕ) (m : ConnectionMeta) :
      (r.sendOrRemove order now isOpen c m frame remoteAddr).1 ≠ .frameCached := by
    unfold sendOrRemove
    split <;> simp
  have haddr (h : (r.dispatchByAddress addrHash order now isOpen frame remoteAddr).1 =
      .frameCached) : (r.addressRouting[remoteAddr]?.bind fun c =>
        r.activeConnections[c]?.map fun m => (c, m)) = none := by
    unfold dispatchByAddress at h
    cases ha : r.addressRouting[remoteAddr]? with
    | none => rfl
    | some c =>
      rw [ha] at h
      dsimp only at h
      cases hm : r.activeConnections[c]? with
      | none => simp [hm]
      | some m =>
        rw [hm] at h
        exact absurd h (hsend c m)
  unfold dispatchFrame at h
  unfold lookup
  split at h
  · rename_i hne
    rw [if_pos hne]
    cases hm : r.activeConnections[frame.destinationCid]? with
    | none =>
      rw [hm] at h
      exact haddr h
    | some m =>
      rw [hm] at h
      exact absurd h (hsend _ m)
  · rename_i hne
    rw [if_neg hne]
    exact haddr h

/-- A dispatch hands the frame on, keeps it or drops it. -/
theorem relays_dispatchFrame :
    Relays addrHash arrived (arrived ++ [⟨frame, remoteAddr⟩]) r
      (r.dispatchFrame addrHash order now isOpen frame remoteAddr).2 := by
  have hcached : r.CachesBy addrHash now frame remoteAddr
    (r.dispatchFrame addrHash order now isOpen frame remoteAddr) := cachesBy_dispatchFrame
  have hdelivered := r.dispatchFrame_delivered addrHash order now isOpen frame remoteAddr
  unfold CachesBy at hcached
  unfold Relays relay
  by_cases hc : (r.dispatchFrame addrHash order now isOpen frame remoteAddr).1 = .frameCached
  · rw [if_pos hc] at hcached
    rw [lookup_of_frameCached hc, List.append_nil] at hdelivered
    rw [hcached, hdelivered]
    have hstep : Relay.Step (arrivalKey addrHash) (r.relay arrived) _ := .keep ⟨frame, remoteAddr⟩
    refine .single (cast (congrArg _ ?_) hstep)
    simp only [relay, Relay.mk.injEq, true_and, and_true]
    ext1 key
    by_cases hkey : key = getCacheKey addrHash frame.destinationCid remoteAddr
    · subst hkey
      simp [arrivalKey, PendingFrame.arrival]
    · simp [arrivalKey, hkey]
  · rw [if_neg hc] at hcached
    rw [hcached, hdelivered]
    cases r.lookup frame remoteAddr with
    | none =>
      rw [List.append_nil]
      exact .single (.drop _)
    | some found =>
      dsimp only
      split
      · rw [List.map_append]
        exact .single (.hand _ _)
      · rw [List.append_nil]
        exact .single (.drop _)

theorem activeConnections_of_lookup (h : r.lookup frame remoteAddr = some (cid, m)) :
    r.activeConnections[cid]? = some m := by
  unfold lookup at h
  split at h
  · rename_i hm
    cases h
    exact (Option.ite_none_right_eq_some.mp hm).2
  · obtain ⟨c, -, h⟩ := Option.bind_eq_some_iff.mp h
    obtain ⟨m', hm, h⟩ := Option.map_eq_some_iff.mp h
    cases h
    exact hm

theorem Owned.dispatchFrame (h : r.Owned cids) :
    (r.dispatchFrame addrHash order now isOpen frame remoteAddr).2.Owned cids where
  active c m hm := h.active c m (retires_dispatchFrame.active_of c m hm)
  delivered d hd := by
    rw [dispatchFrame_delivered] at hd
    rcases List.mem_append.mp hd with hd | hd
    · exact h.delivered d hd
    · split at hd
      · rename_i c m hl
        split at hd
        · rw [List.mem_singleton.mp hd]
          exact h.active c m (activeConnections_of_lookup hl)
        · cases hd
      · cases hd

end Dispatching

section Forwarding

variable {sends key : ℕ} {remoteAddr : SocketAddr}

theorem forwardFrames_sublist (remoteAddr : SocketAddr) (sends : ℕ) (ps : List PendingFrame) :
    (forwardFrames remoteAddr sends ps).1.Sublist ps ∧
      (forwardFrames remoteAddr sends ps).2.1.Sublist ps := by
  induction ps generalizing sends with
  | nil => exact ⟨.slnil, .slnil⟩
  | cons p ps ih =>
    rw [forwardFrames.eq_def]
    dsimp only
    split
    · cases sends with
      | zero => exact ⟨List.nil_sublist _, List.nil_sublist _⟩
      | succ sends => exact ⟨(ih sends).1.cons_cons p, (ih sends).2.cons p⟩
    · exact ⟨(ih sends).1.cons p, (ih sends).2.cons_cons p⟩

theorem forwardFrames_subperm (remoteAddr : SocketAddr) (sends : ℕ) (ps : List PendingFrame) :
    ((forwardFrames remoteAddr sends ps).1 ++ (forwardFrames remoteAddr sends ps).2.1).Subperm
      ps := by
  induction ps generalizing sends with
  | nil => exact List.Subperm.refl _
  | cons p ps ih =>
    rw [forwardFrames.eq_def]
    dsimp only
    split
    · cases sends with
      | zero => exact List.nil_subperm
      | succ sends => exact (List.subperm_cons p).mpr (ih sends)
    · exact List.perm_middle.subperm.trans ((List.subperm_cons p).mpr (ih sends))

/-- What is forwarded under a key is flushed to a channel that has got nothing with the key. -/
theorem relays_forwardKey
    (hnew : ∀ d ∈ r.delivered, d.sender = m.sender →
      getCacheKey addrHash d.frame.destinationCid d.remoteAddr ≠ key) :
    Relays addrHash arrived arrived r (r.forwardKey cid m remoteAddr sends key).2 := by
  obtain ⟨-, hcached, hdelivered⟩ := r.forwardKey_spec cid m remoteAddr sends key
  obtain ⟨hout, hkept⟩ := forwardFrames_sublist remoteAddr sends (r.cached key)
  obtain ⟨l, hperm, hl⟩ := forwardFrames_subperm remoteAddr sends (r.cached key)
  unfold Relays relay
  rw [hcached, hdelivered]
  have hstep : Relay.Step (arrivalKey addrHash) (r.relay arrived) _ := .flush m.sender key _ _ ?_
    (hout.map PendingFrame.arrival) (hkept.map PendingFrame.arrival)
    ⟨l.map PendingFrame.arrival, by
      rw [← List.map_append]
      exact hperm.map _, hl.map _⟩
  · refine .single (cast (congrArg _ ?_) hstep)
    simp only [relay, Relay.mk.injEq, true_and, List.map_append, List.map_map, Function.comp_def]
    refine ⟨?_, rfl⟩
    ext1 k
    by_cases hk : k = key
    · subst hk
      simp
    · simp [hk]
  · intro p hp
    obtain ⟨d, hd, rfl⟩ := List.mem_map.mp hp
    exact hnew d hd

/-- A channel that has got nothing gets the frames of two keys, one key after the other. -/
theorem relays_forwardCachedFrames (hf : (r.relay arrived).Faithful (arrivalKey addrHash))
    (hcid : cid < u32Size) (hm : r.activeConnections[cid]? = some m)
    (hnew : ∀ d ∈ r.delivered, d.sender ≠ m.sender) :
    Relays addrHash arrived arrived r (r.forwardCachedFrames addrHash sends cid remoteAddr) := by
  have hnone (key : ℕ) : ∀ d ∈ r.delivered, d.sender = m.sender →
      getCacheKey addrHash d.frame.destinationCid d.remoteAddr ≠ key :=
    fun d hd heq => absurd heq (hnew d hd)
  unfold forwardCachedFrames
  rw [hm]
  dsimp only
  split
  · refine Relation.ReflTransGen.trans (relays_forwardKey (hnone cid)) (relays_forwardKey ?_)
    intro d hd heq hkey
    rw [(r.forwardKey_spec cid m remoteAddr sends cid).2.2] at hd
    rcases List.mem_append.mp hd with hd | hd
    · exact hnew d hd heq
    · -- what was forwarded under the CID has that for its key
      obtain ⟨p, hp, rfl⟩ := List.mem_map.mp hd
      have hmem := (forwardFrames_sublist remoteAddr sends (r.cached cid)).1.subset hp
      have hown := hf.key_of_mem (List.mem_map_of_mem hmem)
      have hle := u32Size_le_getCacheKey addrHash remoteAddr
      exact absurd hcid (not_lt.mpr (hown.symm.trans hkey ▸ hle))
  · exact relays_forwardKey (hnone _)

theorem relays_registerConnection (hf : (r.relay arrived).Faithful (arrivalKey addrHash))
    (hcid : cid < u32Size) (hnew : ∀ d ∈ r.delivered, d.sender ≠ m.sender) :
    Relays addrHash arrived arrived r
      (r.registerConnection addrHash order now sends cid remoteAddr m) := by
  obtain ⟨hdelivered, hpending, hactive⟩ := r.enroll_keeps order now cid remoteAddr m
  have hcached : (r.enroll order now cid remoteAddr m).cached = r.cached := by
    ext1 key
    rw [cached, hpending, cached]
  have hsame : (r.enroll order now cid remoteAddr m).relay arrived = r.relay arrived := by
    unfold relay
    rw [hcached, hdelivered]
  have hforward : Relays addrHash arrived arrived (r.enroll order now cid remoteAddr m)
      (r.registerConnection addrHash order now sends cid remoteAddr m) :=
    relays_forwardCachedFrames (hsame ▸ hf) hcid hactive (hdelivered ▸ hnew)
  unfold Relays at hforward
  rw [hsame] at hforward
  exact hforward

theorem Owned.registerConnection (h : r.Owned cids) (hm : m.sender = cids.length) :
    (r.registerConnection addrHash order now sends cid remoteAddr m).Owned (cids ++ [cid]) := by
  have hlast : (cids ++ [cid])[m.sender]? = some cid := by simp [hm]
  have hold {n c : ℕ} (hn : cids[n]? = some c) : (cids ++ [cid])[n]? = some c := by
    rw [List.getElem?_append_left (List.getElem?_eq_some_iff.mp hn).1]
    exact hn
  obtain ⟨r₀, hr, hactive, -⟩ := r.retires_registerConnection addrHash order now sends cid
    remoteAddr m
  refine ⟨fun c m' hc => ?_, fun d hd => ?_⟩
  · rw [hactive, SortedMap.getElem?_insert] at hc
    split at hc
    · rename_i heq
      cases hc
      exact heq ▸ hlast
    · exact hold (h.active c m' (hr.active_of c m' hc))
  · rw [(r.registerConnection_spec addrHash order now sends cid remoteAddr m).2] at hd
    rcases List.mem_append.mp hd with hd | hd
    · exact hold (h.delivered d hd)
    · obtain ⟨p, -, rfl⟩ := List.mem_map.mp hd
      exact hlast

theorem Owned.fresh (h : r.Owned cids) (hm : m.sender = cids.length) :
    ∀ d ∈ r.delivered, d.sender ≠ m.sender := by
  intro d hd heq
  have hlt := (List.getElem?_eq_some_iff.mp (h.delivered d hd)).1
  omega

end Forwarding

theorem relays_removeConnectionByCid (order : List SocketAddr) (now : Instant) (cid : ℕ) :
    Relays addrHash arrived arrived r (r.removeConnectionByCid order now cid) :=
  relays_of_eq (cached_removeConnectionByCid cid) (removeConnectionByCid_keeps order now cid).1

theorem Owned.removeConnectionByCid (h : r.Owned cids) :
    (r.removeConnectionByCid order now cid).Owned cids :=
  h.shrink (removeConnectionByCid_keeps order now cid).1
    (retires_removeConnectionByCid order now cid).1.active_of

theorem relays_cleanup (now : Instant) (maxAge : Duration) :
    Relays addrHash arrived arrived r
      ((r.cleanupDrainingPool now).cleanupExpiredFrames now maxAge) := by
  refine .single (.discard _ fun key => ?_)
  rw [cached_cleanupExpiredFrames]
  exact List.filter_sublist.map _

end FrameRouter

/-- The loop with the frames that arrived to be dispatched and those that arrived with a SYN. -/
structure FrameRun where
  loop : SocketEventLoop
  arrived : List Arrival
  opening : List Arrival

namespace FrameRun

open SocketEventLoop

variable {x x' : FrameRun} {addrHash : SocketAddr → ℕ} {ev : SocketEvent} {taken : List Arrival}

/-- The frames an event brings, those to be dispatched and those with a SYN. -/
def arrivals : SocketEvent → List Arrival × List Arrival
  | .recvFrames d _ => if startsWithSyn d.frames then ([], d.arrivals) else (d.arrivals, [])
  | _ => ([], [])

def next (x : FrameRun) (addrHash : SocketAddr → ℕ) (ev : SocketEvent) : Option FrameRun :=
  (x.loop.next addrHash ev).map fun loop =>
    ⟨loop, x.arrived ++ (arrivals ev).1, x.opening ++ (arrivals ev).2⟩

def system (addrHash : SocketAddr → ℕ) : TransitionSystem FrameRun SocketEvent :=
  .ofNext (fun x => ∃ config timeout, x = ⟨.new config (.new (.new timeout)), [], []⟩)
    fun x ev => x.next addrHash ev

/-- The frames that endpoints had on their channels from their start on. -/
def started (endpoints : List EndpointTask) : List Arrival :=
  endpoints.flatMap EndpointTask.arrivals

/-- What holds of the frames when some of them are already dispatched. -/
structure Conveys (addrHash : SocketAddr → ℕ) (x : FrameRun) (taken : List Arrival) : Prop where
  arrived_eq : x.arrived = taken ++ x.loop.datagram.arrivals
  faithful : (x.loop.frameRouter.relay taken).Faithful (FrameRouter.arrivalKey addrHash)
  owned : x.loop.frameRouter.Owned x.loop.cids
  initial : (started x.loop.endpoints).Sublist x.opening

theorem Conveys.relays (h : Conveys addrHash x taken) {r : FrameRouter}
    (hr : x.loop.frameRouter.Relays addrHash taken taken r) (ho : r.Owned x.loop.cids) :
    Conveys addrHash { x with loop := { x.loop with frameRouter := r } } taken :=
  ⟨h.arrived_eq, h.faithful.steps hr, ho, h.initial⟩

theorem Conveys.startEndpoint (h : Conveys addrHash x taken) {c : Creation} {e : EndpointTask}
    {s : SocketEventLoop} {early : List Arrival}
    (hs : x.loop.startEndpoint addrHash c e = some s)
    (hsender : e.sender = x.loop.endpoints.length)
    (hearly : e.arrivals.Sublist early) :
    Conveys addrHash ⟨s, x.arrived, x.opening ++ early⟩ taken := by
  obtain ⟨r, hr, rfl⟩ := Option.map_eq_some_iff.mp hs
  obtain ⟨⟨-, hcid⟩, hr⟩ := Option.ite_none_right_eq_some.mp hr
  cases hr
  have hlast : (⟨e.sender⟩ : ConnectionMeta).sender = x.loop.cids.length := by
    rw [cids, List.length_map]
    exact hsender
  refine ⟨h.arrived_eq, h.faithful.steps
    (FrameRouter.relays_registerConnection h.faithful hcid (h.owned.fresh hlast)), ?_, ?_⟩
  · rw [cids, List.map_append]
    exact h.owned.registerConnection hlast
  · have hinit := h.initial.append hearly
    simpa [started] using hinit

/-- A SYN makes at most one endpoint, with PUSH frames of its datagram. -/
theorem Conveys.handleNewConnection (h : Conveys addrHash x taken) {c : Creation} {d : Datagram}
    {s : SocketEventLoop}
    (hs : x.loop.handleNewConnection addrHash c d.frames d.remoteAddr = some s) :
    Conveys addrHash ⟨s, x.arrived, x.opening ++ d.arrivals⟩ taken := by
  have hstay : Conveys addrHash ⟨x.loop, x.arrived, x.opening ++ d.arrivals⟩ taken :=
    ⟨h.arrived_eq, h.faithful, h.owned, h.initial.trans (List.sublist_append_left _ _)⟩
  unfold SocketEventLoop.handleNewConnection at hs
  split at hs
  · rename_i header frames hframes
    split at hs
    · obtain ⟨-, hs⟩ := Option.ite_none_right_eq_some.mp hs
      split at hs
      · obtain ⟨s₁, h₁, hs⟩ := Option.bind_eq_some_iff.mp hs
        have hpushes : (handleZeroRttFrames frames).Sublist d.frames := by
          rw [hframes]
          exact ((List.take_sublist _ _).trans List.filter_sublist).trans
            (List.sublist_cons_self _ _)
        have hstart := h.startEndpoint h₁ rfl (hpushes.map _)
        unfold sendConnectionToUser at hs
        split at hs
        · cases hs
          exact ⟨hstart.arrived_eq, hstart.faithful, hstart.owned, hstart.initial⟩
        · obtain ⟨r, hr, rfl⟩ := Option.map_eq_some_iff.mp hs
          obtain ⟨-, hr⟩ := Option.ite_none_right_eq_some.mp hr
          cases hr
          exact hstart.relays (FrameRouter.relays_removeConnectionByCid ..)
            hstart.owned.removeConnectionByCid
      · cases hs
        exact hstay
    · cases hs
      exact hstay
  · cases hs
    exact hstay

theorem Conveys.next (h : Conveys addrHash x taken) (hx : x.next addrHash ev = some x') :
    ∃ taken', Conveys addrHash x' taken' := by
  obtain ⟨s, hs, rfl⟩ := Option.map_eq_some_iff.mp hx
  cases ev with
  | stop sender =>
    cases hs
    refine ⟨taken, by simpa [arrivals] using h.arrived_eq, h.faithful, ?_, ?_⟩
    · convert h.owned using 1
      rw [cids, cids, List.map_map]
      apply List.map_congr_left
      intro e _
      dsimp only [Function.comp_apply]
      split <;> rfl
    · convert h.initial using 1
      · rw [started, started, List.flatMap_map]
        refine List.flatMap_congr fun e _ => ?_
        split <;> rfl
      · exact List.append_nil _
  | dispatch order now =>
    change x.loop.dispatchFrame addrHash order now = some s at hs
    unfold dispatchFrame at hs
    split at hs
    · rename_i frame frames hframes
      obtain ⟨r, hr, rfl⟩ := Option.map_eq_some_iff.mp hs
      obtain ⟨-, hr⟩ := Option.ite_none_right_eq_some.mp hr
      cases hr
      let a : Arrival := ⟨frame, x.loop.datagram.remoteAddr⟩
      refine ⟨taken ++ [a], ?_, h.faithful.steps FrameRouter.relays_dispatchFrame,
        h.owned.dispatchFrame, ?_⟩
      · have ha := h.arrived_eq
        rw [Datagram.arrivals, hframes] at ha
        simpa [arrivals, Datagram.arrivals] using ha
      · simpa [arrivals] using h.initial
    · cases hs
  | connect c remoteAddr =>
    obtain ⟨-, hs⟩ := Option.ite_none_right_eq_some.mp hs
    obtain ⟨-, hs⟩ := Option.ite_none_right_eq_some.mp hs
    split at hs
    · have hstart := h.startEndpoint hs rfl (List.nil_sublist [])
      exact ⟨taken, by simpa [arrivals] using hstart⟩
    · cases hs
      exact ⟨taken, by simpa [arrivals] using h⟩
  | updateAddr order cid newAddr =>
    obtain ⟨-, hs⟩ := Option.ite_none_right_eq_some.mp hs
    obtain ⟨r, hr, rfl⟩ := Option.map_eq_some_iff.mp hs
    obtain ⟨-, hr⟩ := Option.ite_none_right_eq_some.mp hr
    cases hr
    have hkeep : (x.loop.frameRouter.updateConnectionAddress order cid newAddr).delivered =
        x.loop.frameRouter.delivered := (FrameRouter.forgetAddress_keeps order cid).1
    have hmove := h.relays
      (FrameRouter.relays_of_eq (FrameRouter.cached_updateConnectionAddress cid newAddr) hkeep)
      (h.owned.shrink hkeep fun c m hm => FrameRouter.activeConnections_forgetAddress ▸ hm)
    exact ⟨taken, by simpa [arrivals] using hmove⟩
  | removeConnection order now cid =>
    obtain ⟨-, hs⟩ := Option.ite_none_right_eq_some.mp hs
    obtain ⟨r, hr, rfl⟩ := Option.map_eq_some_iff.mp hs
    obtain ⟨-, hr⟩ := Option.ite_none_right_eq_some.mp hr
    cases hr
    have hmove := h.relays (FrameRouter.relays_removeConnectionByCid order now cid)
      h.owned.removeConnectionByCid
    exact ⟨taken, by simpa [arrivals] using hmove⟩
  | recvFrames d c =>
    obtain ⟨hidle, hs⟩ := Option.ite_none_right_eq_some.mp hs
    split at hs
    · rename_i hsyn
      exact ⟨taken, by simpa [arrivals, hsyn] using h.handleNewConnection hs⟩
    · rename_i hsyn
      cases hs
      refine ⟨taken, ?_, h.faithful, h.owned, by simpa [arrivals, hsyn] using h.initial⟩
      have ha := h.arrived_eq
      rw [Datagram.arrivals, hidle, List.map_nil, List.append_nil] at ha
      simp [arrivals, hsyn, ha]
  | cleanup now =>
    obtain ⟨-, hs⟩ := Option.ite_none_right_eq_some.mp hs
    cases hs
    have hmove := h.relays (FrameRouter.relays_cleanup now (Duration.fromSecs 5))
      (h.owned.shrink rfl fun _ _ hm => hm)
    exact ⟨taken, by simpa [arrivals] using hmove⟩

theorem conveys_of_reachable (h : (system addrHash).Reachable x) :
    ∃ taken, Conveys addrHash x taken := by
  induction h with
  | init h =>
    obtain ⟨config, timeout, rfl⟩ := h
    exact ⟨[], rfl, Relay.faithful_empty rfl fun key => by simp [FrameRouter.relay,
      FrameRouter.cached, SocketEventLoop.new, FrameRouter.new],
      ⟨by simp [SocketEventLoop.new, FrameRouter.new], by
        simp [SocketEventLoop.new, FrameRouter.new]⟩, List.Sublist.refl _⟩
  | step _ hs ih =>
    obtain ⟨taken, h⟩ := ih
    exact h.next hs

/-- No frame that arrived is put on channels, kept and awaiting dispatch more often than it arrived;
a channel gets the frames of a key in the order of their arrival; it is that of the endpoint with
the CID in question; and what endpoints start with came with SYNs. -/
structure Conveyed (addrHash : SocketAddr → ℕ) (x : FrameRun) : Prop where
  once : ∀ a : Arrival,
    (x.loop.frameRouter.delivered.map Delivery.arrival).count a +
        ((x.loop.frameRouter.cached (FrameRouter.arrivalKey addrHash a)).map
          PendingFrame.arrival).count a +
        x.loop.datagram.arrivals.count a ≤ x.arrived.count a
  inOrder : ∀ sender key : ℕ,
    (((x.loop.frameRouter.delivered.filter (·.sender = sender)).map Delivery.arrival).filter
      (FrameRouter.arrivalKey addrHash · = key)).Sublist
        (x.arrived.filter (FrameRouter.arrivalKey addrHash · = key))
  owned : ∀ d ∈ x.loop.frameRouter.delivered,
    ∃ e, x.loop.endpoints[d.sender]? = some e ∧ e.localCid = d.cid
  initial : (started x.loop.endpoints).Sublist x.opening

theorem Conveys.conveyed (h : Conveys addrHash x taken) : Conveyed addrHash x where
  once a := by
    have ha := h.faithful.once a
    rw [FrameRouter.relay, List.map_map] at ha
    rw [h.arrived_eq, List.count_append]
    exact Nat.add_le_add_right ha _
  inOrder sender key := by
    have hgot : Relay.got (x.loop.frameRouter.relay taken).handed sender =
        (x.loop.frameRouter.delivered.filter (·.sender = sender)).map Delivery.arrival := by
      rw [Relay.got, FrameRouter.relay, List.filter_map, List.map_map]
      rfl
    rw [← hgot]
    refine (h.faithful.inOrder sender key).trans ?_
    rw [h.arrived_eq]
    exact (List.sublist_append_left _ _).filter _
  owned d hd := by
    have hcid := h.owned.delivered d hd
    rw [cids, List.getElem?_map] at hcid
    exact Option.map_eq_some_iff.mp hcid
  initial := h.initial

/-- Whatever the loop does with connections and their addresses, it neither invents, repeats nor
reorders frames. -/
theorem frames_conveyed (addrHash : SocketAddr → ℕ) :
    ∀ x, (system addrHash).Reachable x → Conveyed addrHash x := by
  intro x hx
  obtain ⟨taken, h⟩ := conveys_of_reachable hx
  exact h.conveyed

section Sample

/-- A PUSH frame with its sequence number, from address 80 to the connection with the CID 9. -/
def conveyedPush (sequence : ℕ) : Frame := .newPush 9 0 sequence 0 0 [1]

/-- Two frames come early and go to a new connection, a third one comes after that. -/
def conveyance : List SocketEvent :=
  [.recvFrames ⟨[conveyedPush 0, conveyedPush 1], 80⟩ ⟨0, false, false, [], [], 0, 0⟩,
    .dispatch [] 1, .dispatch [] 2, .connect ⟨9, true, true, [], [], 3, 2⟩ 80,
    .recvFrames ⟨[conveyedPush 2], 80⟩ ⟨0, false, false, [], [], 0, 0⟩, .dispatch [80] 4]

theorem frames_conveyed_sample : ∃ x : FrameRun, Conveyed id x ∧
    x.loop.frameRouter.delivered =
      [⟨9, 0, conveyedPush 0, 80⟩, ⟨9, 0, conveyedPush 1, 80⟩, ⟨9, 0, conveyedPush 2, 80⟩] := by
  obtain ⟨x, hx, hd⟩ : ∃ x, (system id).Run conveyance x ∧ x.loop.frameRouter.delivered =
      [⟨9, 0, conveyedPush 0, 80⟩, ⟨9, 0, conveyedPush 1, 80⟩, ⟨9, 0, conveyedPush 2, 80⟩] :=
    TransitionSystem.exists_run_of_foldlM _ ⟨{}, 3, rfl⟩ (by decide +kernel)
  exact ⟨x, frames_conveyed id x hx.reachable, hd⟩

end Sample

end FrameRun

end Kestrel
