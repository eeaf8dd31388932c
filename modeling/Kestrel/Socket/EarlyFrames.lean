import Kestrel.Socket.Isolation

/-! # Early frames

What waits under a key of the cache is told by the history of the router: frames that arrived, were
not too old at a cleanup, and were not forwarded to a connection. Registering a connection whose
endpoint takes all of them forwards the frames that wait under its keys and came from its address.
-/

namespace Kestrel

open Std (ExtTreeMap)

namespace FrameRouter

def cached (r : FrameRouter) (key : ℕ) : List PendingFrame := r.pendingFrames[key]?.getD []

/-- The keys under which frames for a connection may be cached. -/
def cacheKeys (addrHash : SocketAddr → ℕ) (cid : ℕ) (remoteAddr : SocketAddr) : List ℕ :=
  (if cid ≠ 0 then [cid] else []) ++ [getCacheKey addrHash 0 remoteAddr]

/-- The frames under some keys that came from an address. -/
def matching (waiting : ℕ → List PendingFrame) (keys : List ℕ) (remoteAddr : SocketAddr) :
    List PendingFrame :=
  keys.flatMap fun key => (waiting key).filter (·.remoteAddr = remoteAddr)

/-- Forwards what waits under one key after the other, as long as the endpoint takes frames. -/
def forwardAlong (remoteAddr : SocketAddr) :
    ℕ → List ℕ → (ℕ → List PendingFrame) → List PendingFrame × (ℕ → List PendingFrame)
  | _, [], waiting => ([], waiting)
  | sends, key :: keys, waiting =>
    let (forwarded, kept, sends) := forwardFrames remoteAddr sends (waiting key)
    let (more, waiting) := forwardAlong remoteAddr sends keys (Function.update waiting key kept)
    (forwarded ++ more, waiting)

/-- What happens to early frames. -/
inductive EarlyEvent where
  | arrived (key : ℕ) (p : PendingFrame)
  | cleaned (now : Instant) (maxAge : Duration)
  | registered (sends cid : ℕ) (remoteAddr : SocketAddr)
  deriving DecidableEq, Repr

/-- What waits after an event. -/
def waitingAfter (addrHash : SocketAddr → ℕ) (waiting : ℕ → List PendingFrame) :
    EarlyEvent → ℕ → List PendingFrame
  | .arrived key p => Function.update waiting key (waiting key ++ [p])
  | .cleaned now maxAge => fun key =>
    (waiting key).filter fun p => now - p.arrivalTime < maxAge
  | .registered sends cid remoteAddr =>
    (forwardAlong remoteAddr sends (cacheKeys addrHash cid remoteAddr) waiting).2

/-- What waits after a history. -/
def waiting (addrHash : SocketAddr → ℕ) (log : List EarlyEvent) : ℕ → List PendingFrame :=
  log.foldl (waitingAfter addrHash) fun _ => []

/-- The events of an operation. -/
def events (r : FrameRouter) (addrHash : SocketAddr → ℕ) : Op → List EarlyEvent
  | .register _ _ sends cid remoteAddr _ => [.registered sends cid remoteAddr]
  | .dispatch order now isOpen frame remoteAddr =>
    if (r.dispatchFrame addrHash order now isOpen frame remoteAddr).1 = .frameCached then
      [.arrived (getCacheKey addrHash frame.destinationCid remoteAddr) ⟨frame, remoteAddr, now⟩]
    else []
  | .cleanupExpired now maxAge => [.cleaned now maxAge]
  | .updateAddr .. | .remove .. | .cleanupDraining _ => []

section Forwarding

variable {remoteAddr : SocketAddr} {sends : ℕ}

theorem forwardFrames_of_le {ps : List PendingFrame}
    (h : (ps.filter (·.remoteAddr = remoteAddr)).length ≤ sends) :
    forwardFrames remoteAddr sends ps =
      (ps.filter (·.remoteAddr = remoteAddr), ps.filter (·.remoteAddr ≠ remoteAddr),
        sends - (ps.filter (·.remoteAddr = remoteAddr)).length) := by
  induction ps generalizing sends with
  | nil => rfl
  | cons p ps ih =>
    by_cases hp : p.remoteAddr = remoteAddr
    · simp only [hp, decide_true, List.filter_cons_of_pos, List.length_cons] at h
      obtain ⟨n, rfl⟩ : ∃ n, sends = n + 1 := ⟨sends - 1, by omega⟩
      rw [forwardFrames.eq_def]
      have hrest := @ih n (by simpa using h)
      simp [hp, hrest]
    · rw [forwardFrames.eq_def]
      simp only [hp, decide_false, Bool.false_eq_true, not_false_eq_true,
        List.filter_cons_of_neg] at h
      simp [hp, ih h]

theorem remoteAddr_of_mem_forwardFrames (sends : ℕ) {ps : List PendingFrame} {p : PendingFrame}
    (h : p ∈ (forwardFrames remoteAddr sends ps).1) : p.remoteAddr = remoteAddr := by
  induction ps generalizing sends with
  | nil => cases h
  | cons q ps ih =>
    rw [forwardFrames.eq_def] at h
    dsimp only at h
    split at h
    · rename_i hq
      split at h
      · cases h
      · rcases List.mem_cons.mp h with rfl | h
        · exact hq
        · exact ih _ h
    · exact ih _ h

theorem remoteAddr_of_mem_forwardAlong (sends : ℕ) {keys : List ℕ}
    {waiting : ℕ → List PendingFrame} {p : PendingFrame}
    (h : p ∈ (forwardAlong remoteAddr sends keys waiting).1) : p.remoteAddr = remoteAddr := by
  induction keys generalizing sends waiting with
  | nil => cases h
  | cons key keys ih =>
    rw [forwardAlong] at h
    rcases List.mem_append.mp h with h | h
    · exact remoteAddr_of_mem_forwardFrames sends h
    · exact ih _ h

theorem forwardAlong_of_le {keys : List ℕ} {waiting : ℕ → List PendingFrame} (hk : keys.Nodup)
    (h : (matching waiting keys remoteAddr).length ≤ sends) :
    forwardAlong remoteAddr sends keys waiting =
      (matching waiting keys remoteAddr, fun key =>
        if key ∈ keys then (waiting key).filter (·.remoteAddr ≠ remoteAddr) else waiting key) := by
  induction keys generalizing sends waiting with
  | nil => simp [forwardAlong, matching]
  | cons key keys ih =>
    obtain ⟨hnot, hk⟩ := List.nodup_cons.mp hk
    -- The other keys are looked up as before.
    have hother (kept : List PendingFrame) :
        matching (Function.update waiting key kept) keys remoteAddr =
          matching waiting keys remoteAddr := by
      refine List.flatMap_congr fun k hk' => ?_
      have hne : k ≠ key := by
        rintro rfl
        exact hnot hk'
      rw [Function.update_of_ne hne]
    have hcons : matching waiting (key :: keys) remoteAddr =
        (waiting key).filter (·.remoteAddr = remoteAddr) ++ matching waiting keys remoteAddr := rfl
    rw [hcons, List.length_append] at h
    rw [forwardAlong, forwardFrames_of_le (by omega)]
    dsimp only
    rw [ih hk (by rw [hother]; omega), hother, hcons]
    simp only [Prod.mk.injEq, true_and]
    ext k : 1
    by_cases hkey : k = key
    · subst hkey
      simp [hnot]
    · simp [hkey]

end Forwarding

variable {r : FrameRouter} {addrHash : SocketAddr → ℕ} {order : List SocketAddr} {now : Instant}
  {remoteAddr : SocketAddr}

theorem nodup_cacheKeys {cid : ℕ} (hcid : cid < u32Size) :
    (cacheKeys addrHash cid remoteAddr).Nodup := by
  have hle := u32Size_le_getCacheKey addrHash remoteAddr
  have hne : cid ≠ getCacheKey addrHash 0 remoteAddr := by
    rintro he
    exact absurd hcid (not_lt.mpr (he ▸ hle))
  unfold cacheKeys
  split <;> simp [hne]

theorem forwardKey_spec (r : FrameRouter) (cid : ℕ) (m : ConnectionMeta) (remoteAddr : SocketAddr)
    (sends key : ℕ) :
    (r.forwardKey cid m remoteAddr sends key).1 =
        (forwardFrames remoteAddr sends (r.cached key)).2.2 ∧
      (r.forwardKey cid m remoteAddr sends key).2.cached =
        Function.update r.cached key (forwardFrames remoteAddr sends (r.cached key)).2.1 ∧
      (r.forwardKey cid m remoteAddr sends key).2.delivered = r.delivered ++
        (forwardFrames remoteAddr sends (r.cached key)).1.map
          fun p => ⟨cid, m.sender, p.frame, p.remoteAddr⟩ := by
  unfold forwardKey
  cases hk : r.pendingFrames[key]? with
  | none =>
    have hnil : r.cached key = [] := by simp [cached, hk]
    simp [hnil, forwardFrames]
  | some frames =>
    have hc : r.cached key = frames := by simp [cached, hk]
    rw [hc]
    refine ⟨rfl, ?_, rfl⟩
    ext k : 1
    by_cases hkey : k = key
    · subst hkey
      simp only [cached, Function.update_self]
      split
      · rename_i he
        simp [List.isEmpty_iff.mp he]
      · simp
    · simp only [cached, Function.update_of_ne hkey]
      split
      · simp [SortedMap.getElem?_erase, Ne.symm hkey]
      · simp [SortedMap.getElem?_insert, Ne.symm hkey]

theorem forwardCachedFrames_spec (addrHash : SocketAddr → ℕ) {cid : ℕ} {m : ConnectionMeta}
    (hm : r.activeConnections[cid]? = some m) (sends : ℕ) (remoteAddr : SocketAddr) :
    (r.forwardCachedFrames addrHash sends cid remoteAddr).cached =
        (forwardAlong remoteAddr sends (cacheKeys addrHash cid remoteAddr) r.cached).2 ∧
      (r.forwardCachedFrames addrHash sends cid remoteAddr).delivered = r.delivered ++
        (forwardAlong remoteAddr sends (cacheKeys addrHash cid remoteAddr) r.cached).1.map
          fun p => ⟨cid, m.sender, p.frame, p.remoteAddr⟩ := by
  unfold forwardCachedFrames
  rw [hm]
  dsimp only
  by_cases hcid : cid = 0
  · obtain ⟨-, hc, hd⟩ := r.forwardKey_spec cid m remoteAddr sends
      (getCacheKey addrHash 0 remoteAddr)
    simp [hcid, cacheKeys, forwardAlong] at hc hd ⊢
    exact ⟨hc, hd⟩
  · obtain ⟨hs₁, hc₁, hd₁⟩ := r.forwardKey_spec cid m remoteAddr sends cid
    obtain ⟨-, hc₂, hd₂⟩ := (r.forwardKey cid m remoteAddr sends cid).2.forwardKey_spec cid m
      remoteAddr (r.forwardKey cid m remoteAddr sends cid).1 (getCacheKey addrHash 0 remoteAddr)
    rw [hs₁, hc₁] at hc₂ hd₂
    rw [hd₁] at hd₂
    simp [hcid, cacheKeys, forwardAlong, hs₁] at hc₂ hd₂ ⊢
    exact ⟨hc₂, hd₂⟩

/-- The router with a connection registered, before anything is forwarded. -/
def enroll (r : FrameRouter) (order : List SocketAddr) (now : Instant) (cid : ℕ)
    (remoteAddr : SocketAddr) (m : ConnectionMeta) : FrameRouter :=
  let r := match r.addressRouting[remoteAddr]? with
    | some oldCid => if oldCid ≠ cid then r.removeConnectionByCid order now oldCid else r
    | none => r
  { r with
    activeConnections := r.activeConnections.insert cid m
    addressRouting := r.addressRouting.insert remoteAddr cid }

theorem enroll_keeps (r : FrameRouter) (order : List SocketAddr) (now : Instant) (cid : ℕ)
    (remoteAddr : SocketAddr) (m : ConnectionMeta) :
    (r.enroll order now cid remoteAddr m).delivered = r.delivered ∧
      (r.enroll order now cid remoteAddr m).pendingFrames = r.pendingFrames ∧
      (r.enroll order now cid remoteAddr m).activeConnections[cid]? = some m := by
  unfold enroll
  dsimp only
  split
  · split
    · obtain ⟨hd, hp⟩ := removeConnectionByCid_keeps (r := r) order now _
      exact ⟨hd, hp, by simp⟩
    · exact ⟨rfl, rfl, by simp⟩
  · exact ⟨rfl, rfl, by simp⟩

theorem registerConnection_spec (r : FrameRouter) (addrHash : SocketAddr → ℕ)
    (order : List SocketAddr) (now : Instant) (sends cid : ℕ) (remoteAddr : SocketAddr)
    (m : ConnectionMeta) :
    (r.registerConnection addrHash order now sends cid remoteAddr m).cached =
        (forwardAlong remoteAddr sends (cacheKeys addrHash cid remoteAddr) r.cached).2 ∧
      (r.registerConnection addrHash order now sends cid remoteAddr m).delivered = r.delivered ++
        (forwardAlong remoteAddr sends (cacheKeys addrHash cid remoteAddr) r.cached).1.map
          fun p => ⟨cid, m.sender, p.frame, p.remoteAddr⟩ := by
  obtain ⟨hdelivered, hpending, hactive⟩ := r.enroll_keeps order now cid remoteAddr m
  have hcached : (r.enroll order now cid remoteAddr m).cached = r.cached := by
    ext1 key
    rw [cached, hpending, cached]
  have hspec := forwardCachedFrames_spec addrHash hactive sends remoteAddr
  rw [hcached, hdelivered] at hspec
  exact hspec

theorem cached_cleanupExpiredFrames (now : Instant) (maxAge : Duration) (key : ℕ) :
    (r.cleanupExpiredFrames now maxAge).cached key =
      (r.cached key).filter fun p => now - p.arrivalTime < maxAge := by
  simp only [cached, cleanupExpiredFrames, ExtTreeMap.getElem?_filterMap']
  cases r.pendingFrames[key]? with
  | none => rfl
  | some frames =>
    simp only [Option.bind_some, Option.getD_some]
    split
    · rename_i he
      exact (List.isEmpty_iff.mp he).symm
    · rfl

theorem cached_cacheEarlyFrame (cid : ℕ) (frame : Frame) :
    (r.cacheEarlyFrame addrHash now cid frame remoteAddr).cached =
      Function.update r.cached (getCacheKey addrHash cid remoteAddr)
        (r.cached (getCacheKey addrHash cid remoteAddr) ++ [⟨frame, remoteAddr, now⟩]) := by
  ext k : 1
  by_cases hkey : k = getCacheKey addrHash cid remoteAddr
  · subst hkey
    simp [cached, cacheEarlyFrame]
  · simp [cached, cacheEarlyFrame, SortedMap.getElem?_insert, Ne.symm hkey, hkey]

theorem cached_removeConnectionByCid (cid : ℕ) :
    (r.removeConnectionByCid order now cid).cached = r.cached := by
  ext1 key
  rw [cached, (removeConnectionByCid_keeps order now cid).2, cached]

theorem cached_updateConnectionAddress (cid : ℕ) (newAddr : SocketAddr) :
    (r.updateConnectionAddress order cid newAddr).cached = r.cached := by
  ext1 key
  rw [cached, updateConnectionAddress]
  dsimp only
  rw [(forgetAddress_keeps order cid).2, cached]

section Dispatching

variable {isOpen : Bool} {frame : Frame}

/-- A result and a router with the cache that belongs to it. -/
def CachesBy (r : FrameRouter) (addrHash : SocketAddr → ℕ) (now : Instant) (frame : Frame)
    (remoteAddr : SocketAddr) (result : RoutingResult × FrameRouter) : Prop :=
  result.2.cached =
    if result.1 = .frameCached then
      Function.update r.cached (getCacheKey addrHash frame.destinationCid remoteAddr)
        (r.cached (getCacheKey addrHash frame.destinationCid remoteAddr) ++
          [⟨frame, remoteAddr, now⟩])
    else r.cached

theorem cachesBy_dispatchUnroutable :
    r.CachesBy addrHash now frame remoteAddr
      (r.dispatchUnroutable addrHash now frame remoteAddr) := by
  unfold dispatchUnroutable CachesBy
  split
  · rfl
  · split
    · exact cached_cacheEarlyFrame _ _
    · rfl

theorem cachesBy_sendOrRemove (cid : ℕ) (m : ConnectionMeta) :
    r.CachesBy addrHash now frame remoteAddr
      (r.sendOrRemove order now isOpen cid m frame remoteAddr) := by
  unfold sendOrRemove CachesBy
  split
  · rfl
  · exact cached_removeConnectionByCid cid

theorem cachesBy_dispatchByAddress :
    r.CachesBy addrHash now frame remoteAddr
      (r.dispatchByAddress addrHash order now isOpen frame remoteAddr) := by
  unfold dispatchByAddress
  split
  · split
    · exact cachesBy_sendOrRemove _ _
    · exact cachesBy_dispatchUnroutable (r := { r with addressRouting := _ })
  · exact cachesBy_dispatchUnroutable

theorem cachesBy_dispatchFrame :
    r.CachesBy addrHash now frame remoteAddr
      (r.dispatchFrame addrHash order now isOpen frame remoteAddr) := by
  unfold dispatchFrame
  split
  · split
    · exact cachesBy_sendOrRemove _ _
    · exact cachesBy_dispatchByAddress
  · exact cachesBy_dispatchByAddress

end Dispatching

/-- What an operation does to the cache is what its events do to what waits. -/
theorem cached_next {op : Op} {r' : FrameRouter} (h : r.next addrHash op = some r') :
    r'.cached = (r.events addrHash op).foldl (waitingAfter addrHash) r.cached := by
  cases op with
  | register order now sends cid remoteAddr m =>
    rw [next] at h
    split at h
    · cases h
      exact (registerConnection_spec r addrHash order now sends cid remoteAddr m).1
    · cases h
  | updateAddr order cid newAddr =>
    rw [next] at h
    split at h
    · cases h
      exact cached_updateConnectionAddress cid newAddr
    · cases h
  | remove order now cid =>
    rw [next] at h
    split at h
    · cases h
      exact cached_removeConnectionByCid cid
    · cases h
  | dispatch order now isOpen frame remoteAddr =>
    rw [next] at h
    split at h
    · cases h
      have hc : r.CachesBy addrHash now frame remoteAddr
        (r.dispatchFrame addrHash order now isOpen frame remoteAddr) := cachesBy_dispatchFrame
      rw [CachesBy] at hc
      rw [hc, events]
      split <;> rfl
    · cases h
  | cleanupDraining now =>
    cases h
    rfl
  | cleanupExpired now maxAge =>
    cases h
    ext1 key
    exact cached_cleanupExpiredFrames now maxAge key

end FrameRouter

/-- A router with the history of its early frames. -/
structure EarlyRun where
  router : FrameRouter
  log : List FrameRouter.EarlyEvent

namespace EarlyRun

open FrameRouter

variable {addrHash : SocketAddr → ℕ} {w w' : EarlyRun}

def system (addrHash : SocketAddr → ℕ) : TransitionSystem EarlyRun Op where
  init w := (∃ timeout, w.router = new (.new timeout)) ∧ w.log = []
  step w op w' := w.router.next addrHash op = some w'.router ∧
    w'.log = w.log ++ w.router.events addrHash op

/-- The cache holds what waits after the history. -/
theorem cached_eq_waiting (h : (system addrHash).Reachable w) :
    w.router.cached = waiting addrHash w.log := by
  have hinv : (system addrHash).Invariant fun w => w.router.cached = waiting addrHash w.log :=
    { init := by
        rintro w ⟨⟨timeout, hr⟩, hl⟩
        ext1 key
        simp [hr, hl, waiting, cached, new]
      step := by
        rintro w op w' - hw ⟨hnext, hlog⟩
        rw [cached_next hnext, hw, hlog, waiting, waiting, List.foldl_append] }
  exact hinv.holds h

/-- Registering a connection whose endpoint takes all frames that match forwards exactly these, one
key after the other and each key's in the order of arrival, and leaves the others where they are.
Whatever the endpoint takes, only frames from the connection's address are forwarded. -/
theorem early_frames_exact (h : (system addrHash).Reachable w) {order : List SocketAddr}
    {now : Instant} {sends cid : ℕ} {remoteAddr : SocketAddr} {m : ConnectionMeta}
    (hstep : (system addrHash).step w (.register order now sends cid remoteAddr m) w') :
    (∃ forwarded : List PendingFrame, w'.router.delivered = w.router.delivered ++
      forwarded.map (fun p => ⟨cid, m.sender, p.frame, p.remoteAddr⟩) ∧
        ∀ p ∈ forwarded, p.remoteAddr = remoteAddr) ∧
    ((matching (waiting addrHash w.log) (cacheKeys addrHash cid remoteAddr) remoteAddr).length ≤
        sends →
      w'.router.delivered = w.router.delivered ++
        (matching (waiting addrHash w.log) (cacheKeys addrHash cid remoteAddr) remoteAddr).map
          (fun p => ⟨cid, m.sender, p.frame, p.remoteAddr⟩) ∧
      ∀ key, w'.router.cached key =
        if key ∈ cacheKeys addrHash cid remoteAddr then
          (waiting addrHash w.log key).filter (·.remoteAddr ≠ remoteAddr)
        else waiting addrHash w.log key) := by
  obtain ⟨hnext, -⟩ := hstep
  rw [next] at hnext
  split at hnext
  · rename_i hcid
    obtain ⟨hcached, hdelivered⟩ := w.router.registerConnection_spec addrHash order now sends
      cid remoteAddr m
    rw [Option.some.inj hnext, cached_eq_waiting h] at hcached hdelivered
    refine ⟨⟨_, hdelivered, fun p hp => remoteAddr_of_mem_forwardAlong sends hp⟩, fun hopen => ?_⟩
    rw [forwardAlong_of_le (nodup_cacheKeys hcid.2) hopen] at hcached hdelivered
    exact ⟨hdelivered, fun key => congrFun hcached key⟩
  · cases hnext

section Sample

/-- A PUSH without a CID. -/
def earlyPush : Frame := .newPush 0 0 0 0 0 [7]

/-- The PUSH has come from an address that has no connection. -/
def earlyFirst : EarlyRun :=
  let r := new (.new 0)
  ⟨(r.dispatchFrame id [] 3 true earlyPush 80).2,
    [] ++ r.events id (.dispatch [] 3 true earlyPush 80)⟩

/-- It has also come from another address. -/
def earlySecond : EarlyRun :=
  ⟨(earlyFirst.router.dispatchFrame id [] 4 true earlyPush 81).2,
    earlyFirst.log ++ earlyFirst.router.events id (.dispatch [] 4 true earlyPush 81)⟩

/-- The first address has got its connection. -/
def earlyRegistered : EarlyRun :=
  ⟨earlySecond.router.registerConnection id [] 5 1 9 80 ⟨2⟩,
    earlySecond.log ++ [.registered 1 9 80]⟩

theorem earlyFirst_step : (system id).step ⟨new (.new 0), []⟩ (.dispatch [] 3 true earlyPush 80)
    earlyFirst := by
  refine ⟨?_, rfl⟩
  rw [next, if_pos (by decide)]
  rfl

theorem earlySecond_step : (system id).step earlyFirst (.dispatch [] 4 true earlyPush 81)
    earlySecond := by
  refine ⟨?_, rfl⟩
  rw [next, if_pos (by decide)]
  rfl

theorem earlyRegistered_step : (system id).step earlySecond (.register [] 5 1 9 80 ⟨2⟩)
    earlyRegistered := by
  refine ⟨?_, rfl⟩
  rw [next, if_pos (by decide)]
  rfl

theorem earlySecond_reachable : (system id).Reachable earlySecond :=
  .step (.step (.init ⟨⟨0, rfl⟩, rfl⟩) earlyFirst_step) earlySecond_step

/-- The connection gets the frame from its address, and the other one waits. -/
theorem early_frames_exact_sample :
    (earlyRegistered.router.delivered = earlySecond.router.delivered ++
      (matching (waiting id earlySecond.log) (cacheKeys id 9 80) 80).map
        (fun p => ⟨9, 2, p.frame, p.remoteAddr⟩) ∧
    ∀ key, earlyRegistered.router.cached key =
      if key ∈ cacheKeys id 9 80 then
        (waiting id earlySecond.log key).filter (·.remoteAddr ≠ 80)
      else waiting id earlySecond.log key) ∧
    matching (waiting id earlySecond.log) (cacheKeys id 9 80) 80 = [⟨earlyPush, 80, 3⟩] ∧
    waiting id earlySecond.log (getCacheKey id 0 81) = [⟨earlyPush, 81, 4⟩] :=
  ⟨(early_frames_exact earlySecond_reachable earlyRegistered_step).2 (by decide), by decide,
    by decide⟩

end Sample

end EarlyRun

end Kestrel
