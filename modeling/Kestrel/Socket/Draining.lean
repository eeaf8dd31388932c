import Kestrel.Socket.EventLoop
import Kestrel.Socket.Tables
import Mathlib.Data.Fintype.EquivFin

/-! # CIDs of new connections

A new connection gets a CID that is neither active nor draining. A CID that was taken out of the
active ones is put into the draining pool at once and stays there until a cleanup finds that its
time is over, so it is not given out again before. The CID zero is given out like any other,
although frames that carry it are not looked up by it.
-/

namespace Kestrel

open Std (ExtTreeMap)

namespace FrameRouter

variable {r r' : FrameRouter} {order : List SocketAddr} {now : Instant} {cid : ℕ}

/-- Some connections were removed at a time, and their CIDs are draining since then. -/
structure Retires (now : Instant) (r r' : FrameRouter) : Prop where
  active_of : ∀ (cid : ℕ) (m : ConnectionMeta), r'.activeConnections[cid]? = some m →
    r.activeConnections[cid]? = some m
  draining_eq : ∀ cid, r'.drainingPool.cids[cid]? =
    if r.connectionExists cid = true ∧ r'.connectionExists cid = false then some now
    else r.drainingPool.cids[cid]?
  timeout_eq : r'.drainingPool.timeout = r.drainingPool.timeout

theorem Retires.of_eq (ha : r'.activeConnections = r.activeConnections)
    (hd : r'.drainingPool = r.drainingPool) : Retires now r r' where
  active_of cid m h := ha ▸ h
  draining_eq cid := by
    rw [hd, connectionExists, connectionExists, ha, if_neg]
    rintro ⟨h, h'⟩
    rw [h] at h'
    cases h'
  timeout_eq := by rw [hd]

theorem Retires.exists_of (h : Retires now r r') (hc : r'.connectionExists cid = true) :
    r.connectionExists cid = true := by
  obtain ⟨m, hm⟩ := connectionExists_iff.mp hc
  exact connectionExists_iff.mpr ⟨m, h.active_of cid m hm⟩

theorem isDraining_iff :
    r.isDraining cid = true ↔ ∃ start, r.drainingPool.cids[cid]? = some start := by
  rw [isDraining, DrainingPool.contains, ExtTreeMap.contains_eq_isSome_getElem?,
    Option.isSome_iff_exists]

theorem isDraining_eq_false_iff :
    r.isDraining cid = false ↔ r.drainingPool.cids[cid]? = none := by
  rw [isDraining, DrainingPool.contains, ExtTreeMap.contains_eq_isSome_getElem?,
    Option.isSome_eq_false_iff, Option.isNone_iff_eq_none]

theorem forgetAddress_pool (order : List SocketAddr) (cid : ℕ) :
    (r.forgetAddress order cid).drainingPool = r.drainingPool := by
  unfold forgetAddress
  split <;> rfl

theorem connectionExists_eq (cid : ℕ) :
    r.connectionExists cid = r.activeConnections[cid]?.isSome :=
  ExtTreeMap.contains_eq_isSome_getElem?

theorem retires_removeConnectionByCid (order : List SocketAddr) (now : Instant) (cid : ℕ) :
    Retires now r (r.removeConnectionByCid order now cid) ∧
      (r.removeConnectionByCid order now cid).connectionExists cid = false := by
  unfold removeConnectionByCid
  split
  · rename_i hc
    have hold : r.connectionExists cid = true := hc
    let r₁ := forgetAddress { r with activeConnections := r.activeConnections.erase cid } order cid
    let r₂ := { r₁ with drainingPool := r₁.drainingPool.insert cid now }
    have hact : r₂.activeConnections = r.activeConnections.erase cid :=
      activeConnections_forgetAddress
    have hpool : r₂.drainingPool = r.drainingPool.insert cid now :=
      congrArg (fun p : DrainingPool => p.insert cid now) (forgetAddress_pool order cid)
    have hget (c : ℕ) : r₂.activeConnections[c]? =
        if cid = c then none else r.activeConnections[c]? := by
      rw [hact]
      exact SortedMap.getElem?_erase ..
    have hexists (c : ℕ) :
        r₂.connectionExists c = if cid = c then false else r.connectionExists c := by
      rw [connectionExists_eq, hget, connectionExists_eq]
      split <;> rfl
    change Retires now r r₂ ∧ r₂.connectionExists cid = false
    refine ⟨⟨?_, ?_, ?_⟩, ?_⟩
    · intro c m h
      rw [hget] at h
      split at h
      · cases h
      · exact h
    · intro c
      rw [hpool, DrainingPool.insert, SortedMap.getElem?_insert, hexists]
      by_cases h : cid = c
      · subst h
        simp [hold]
      · simp [h]
    · rw [hpool]
      rfl
    · rw [hexists, if_pos rfl]
  · rename_i hc
    exact ⟨.of_eq rfl rfl, Bool.eq_false_of_not_eq_true hc⟩

variable {isOpen : Bool} {frame : Frame} {remoteAddr : SocketAddr} {addrHash : SocketAddr → ℕ}
  {m : ConnectionMeta} {sends : ℕ}

theorem dispatchUnroutable_pool :
    (r.dispatchUnroutable addrHash now frame remoteAddr).2.drainingPool = r.drainingPool := by
  unfold dispatchUnroutable
  split
  · rfl
  · split <;> rfl

theorem retires_dispatchFrame :
    Retires now r (r.dispatchFrame addrHash order now isOpen frame remoteAddr).2 := by
  have hsend (c : ℕ) (m : ConnectionMeta) :
      Retires now r (r.sendOrRemove order now isOpen c m frame remoteAddr).2 := by
    unfold sendOrRemove
    split
    · exact .of_eq rfl rfl
    · exact (retires_removeConnectionByCid order now c).1
  have haddr :
      Retires now r (r.dispatchByAddress addrHash order now isOpen frame remoteAddr).2 := by
    unfold dispatchByAddress
    split
    · split
      · exact hsend _ _
      · exact .of_eq dispatchUnroutable_tables.1 dispatchUnroutable_pool
    · exact .of_eq dispatchUnroutable_tables.1 dispatchUnroutable_pool
  unfold dispatchFrame
  split
  · split
    · exact hsend _ _
    · exact haddr
  · exact haddr

theorem forwardKey_pool (cid : ℕ) (m : ConnectionMeta) (remoteAddr : SocketAddr)
    (sends key : ℕ) :
    (r.forwardKey cid m remoteAddr sends key).2.drainingPool = r.drainingPool := by
  unfold forwardKey
  split <;> rfl

theorem forwardCachedFrames_pool :
    (r.forwardCachedFrames addrHash sends cid remoteAddr).drainingPool = r.drainingPool := by
  unfold forwardCachedFrames
  split
  · rename_i m _
    split
    rename_i sends' r' heq
    have hfirst : r'.drainingPool = r.drainingPool := by
      split at heq
      · have hk := forwardKey_pool (r := r) cid m remoteAddr sends cid
        rw [heq] at hk
        exact hk
      · cases heq
        rfl
    exact (forwardKey_pool ..).trans hfirst
  · rfl

theorem retires_registerConnection (r : FrameRouter) (addrHash : SocketAddr → ℕ)
    (order : List SocketAddr) (now : Instant) (sends cid : ℕ) (remoteAddr : SocketAddr)
    (m : ConnectionMeta) :
    ∃ r₀, Retires now r r₀ ∧
      (r.registerConnection addrHash order now sends cid remoteAddr m).activeConnections =
        r₀.activeConnections.insert cid m ∧
      (r.registerConnection addrHash order now sends cid remoteAddr m).drainingPool =
        r₀.drainingPool := by
  have hreg (r₀ : FrameRouter) : (forwardCachedFrames
        { r₀ with
          activeConnections := r₀.activeConnections.insert cid m
          addressRouting := r₀.addressRouting.insert remoteAddr cid } addrHash sends cid
        remoteAddr).activeConnections = r₀.activeConnections.insert cid m ∧
      (forwardCachedFrames
        { r₀ with
          activeConnections := r₀.activeConnections.insert cid m
          addressRouting := r₀.addressRouting.insert remoteAddr cid } addrHash sends cid
        remoteAddr).drainingPool = r₀.drainingPool :=
    ⟨(forwardCachedFrames_tables ..).1, forwardCachedFrames_pool⟩
  unfold registerConnection
  split
  · split
    · exact ⟨_, (retires_removeConnectionByCid order now _).1, hreg _⟩
    · exact ⟨r, .of_eq rfl rfl, hreg _⟩
  · exact ⟨r, .of_eq rfl rfl, hreg _⟩

end FrameRouter

theorem DrainingPool.getElem?_cleanup (p : DrainingPool) (now : Instant) (cid : ℕ) :
    (p.cleanup now).cids[cid]? = p.cids[cid]?.filter fun start => now - start < p.timeout := by
  rw [cleanup, ExtTreeMap.getElem?_filter']

/-- The time an event takes place at, if it looks at the clock. -/
def SocketEvent.time : SocketEvent → Option Instant
  | .connect c _ | .recvFrames _ c => some c.now
  | .removeConnection _ now _ | .dispatch _ now | .cleanup now => some now
  | .updateAddr .. | .stop _ => none

namespace SocketEventLoop

variable {s s' : SocketEventLoop} {addrHash : SocketAddr → ℕ} {now : Instant} {ev : SocketEvent}
  {cid : ℕ}

/-- The CIDs that were given to connections, in order. -/
def cids (s : SocketEventLoop) : List ℕ := s.endpoints.map (·.localCid)

/-- What an event does to the CIDs: connections are removed, draining CIDs become free, or a
connection is made with a free CID. -/
inductive Moves (now : Instant) (s s' : SocketEventLoop) : Prop where
  | retire (hcids : s'.cids = s.cids) (h : s.frameRouter.Retires now s'.frameRouter)
  | free (hcids : s'.cids = s.cids)
    (hactive : s'.frameRouter.activeConnections = s.frameRouter.activeConnections)
    (hpool : s'.frameRouter.drainingPool = s.frameRouter.drainingPool.cleanup now)
  | create (e : EndpointTask) (hendpoints : s'.endpoints = s.endpoints ++ [e])
    (hunique : s.uniqueConnectionId e.localCid = true) (r₀ r₁ : FrameRouter)
    (h₀ : s.frameRouter.Retires now r₀)
    (hactive : r₁.activeConnections = r₀.activeConnections.insert e.localCid ⟨e.sender⟩)
    (hpool : r₁.drainingPool = r₀.drainingPool) (h₁ : r₁.Retires now s'.frameRouter)

theorem Moves.of_router (hcids : s'.cids = s.cids)
    (ha : s'.frameRouter.activeConnections = s.frameRouter.activeConnections)
    (hd : s'.frameRouter.drainingPool = s.frameRouter.drainingPool) : Moves now s s' :=
  .retire hcids (.of_eq ha hd)

theorem moves_startEndpoint {s₁ : SocketEventLoop} {c : Creation} {e : EndpointTask}
    (hunique : s.uniqueConnectionId e.localCid = true)
    (hs : s.startEndpoint addrHash c e = some s₁)
    (hafter : s'.endpoints = s₁.endpoints ∧ s'.config = s₁.config ∧
      s₁.frameRouter.Retires c.now s'.frameRouter) :
    Moves c.now s s' ∧ s'.config = s.config := by
  obtain ⟨r, hr, rfl⟩ := Option.map_eq_some_iff.mp hs
  obtain ⟨-, hr⟩ := Option.ite_none_right_eq_some.mp hr
  cases hr
  obtain ⟨hendpoints, hconfig, hretires⟩ := hafter
  obtain ⟨r₀, h₀, hactive, hpool⟩ := s.frameRouter.retires_registerConnection addrHash c.order
    c.now c.sends e.localCid e.remoteAddr ⟨e.sender⟩
  exact ⟨.create e hendpoints hunique r₀ _ h₀ hactive hpool hretires, hconfig⟩

theorem moves_next (now : Instant) (hs : s.next addrHash ev = some s') :
    Moves (ev.time.getD now) s s' ∧ s'.config = s.config := by
  cases ev with
  | stop sender =>
    cases hs
    refine ⟨.of_router ?_ rfl rfl, rfl⟩
    rw [cids, cids, List.map_map]
    apply List.map_congr_left
    intro e _
    dsimp only [Function.comp_apply]
    split <;> rfl
  | dispatch order now =>
    change s.dispatchFrame addrHash order now = some s' at hs
    unfold dispatchFrame at hs
    split at hs
    · obtain ⟨r, hr, rfl⟩ := Option.map_eq_some_iff.mp hs
      obtain ⟨-, hr⟩ := Option.ite_none_right_eq_some.mp hr
      cases hr
      exact ⟨.retire rfl FrameRouter.retires_dispatchFrame, rfl⟩
    · cases hs
  | connect c remoteAddr =>
    obtain ⟨-, hs⟩ := Option.ite_none_right_eq_some.mp hs
    obtain ⟨hunique, hs⟩ := Option.ite_none_right_eq_some.mp hs
    split at hs
    · exact moves_startEndpoint hunique hs ⟨rfl, rfl, .of_eq rfl rfl⟩
    · cases hs
      exact ⟨.of_router rfl rfl rfl, rfl⟩
  | updateAddr order cid newAddr =>
    obtain ⟨-, hs⟩ := Option.ite_none_right_eq_some.mp hs
    obtain ⟨r, hr, rfl⟩ := Option.map_eq_some_iff.mp hs
    obtain ⟨-, hr⟩ := Option.ite_none_right_eq_some.mp hr
    cases hr
    exact ⟨.of_router rfl FrameRouter.activeConnections_forgetAddress
      (FrameRouter.forgetAddress_pool ..), rfl⟩
  | removeConnection order now cid =>
    obtain ⟨-, hs⟩ := Option.ite_none_right_eq_some.mp hs
    obtain ⟨r, hr, rfl⟩ := Option.map_eq_some_iff.mp hs
    obtain ⟨-, hr⟩ := Option.ite_none_right_eq_some.mp hr
    cases hr
    exact ⟨.retire rfl (FrameRouter.retires_removeConnectionByCid ..).1, rfl⟩
  | recvFrames datagram c =>
    obtain ⟨-, hs⟩ := Option.ite_none_right_eq_some.mp hs
    split at hs
    · unfold handleNewConnection at hs
      split at hs
      · split at hs
        · obtain ⟨hunique, hs⟩ := Option.ite_none_right_eq_some.mp hs
          split at hs
          · obtain ⟨s₁, h₁, hs⟩ := Option.bind_eq_some_iff.mp hs
            apply moves_startEndpoint hunique h₁
            unfold sendConnectionToUser at hs
            split at hs
            · cases hs
              exact ⟨rfl, rfl, .of_eq rfl rfl⟩
            · obtain ⟨r, hr, rfl⟩ := Option.map_eq_some_iff.mp hs
              obtain ⟨-, hr⟩ := Option.ite_none_right_eq_some.mp hr
              cases hr
              exact ⟨rfl, rfl, (FrameRouter.retires_removeConnectionByCid ..).1⟩
          · cases hs
            exact ⟨.of_router rfl rfl rfl, rfl⟩
        · cases hs
          exact ⟨.of_router rfl rfl rfl, rfl⟩
      · cases hs
        exact ⟨.of_router rfl rfl rfl, rfl⟩
    · cases hs
      exact ⟨.of_router rfl rfl rfl, rfl⟩
  | cleanup now =>
    obtain ⟨-, hs⟩ := Option.ite_none_right_eq_some.mp hs
    cases hs
    exact ⟨.free rfl rfl rfl, rfl⟩

theorem uniqueConnectionId_iff : s.uniqueConnectionId cid = true ↔
    s.frameRouter.connectionExists cid = false ∧ s.frameRouter.isDraining cid = false := by
  simp [uniqueConnectionId]

/-- No CID is active and draining. -/
def Apart (r : FrameRouter) : Prop :=
  ∀ cid, r.connectionExists cid = true → r.drainingPool.cids[cid]? = none

theorem Apart.retires {r r' : FrameRouter} (h : Apart r) (hr : r.Retires now r') : Apart r' := by
  intro cid hc
  rw [hr.draining_eq, if_neg (by simp [hc])]
  exact h cid (hr.exists_of hc)

theorem Apart.moves (h : Apart s.frameRouter) (hm : Moves now s s') : Apart s'.frameRouter := by
  cases hm with
  | retire _ hr => exact h.retires hr
  | free _ hactive hpool =>
    intro cid hc
    rw [FrameRouter.connectionExists, hactive] at hc
    rw [hpool, DrainingPool.getElem?_cleanup, h cid hc]
    rfl
  | create e _ hunique r₀ r₁ h₀ hactive hpool h₁ =>
    refine Apart.retires ?_ h₁
    intro cid hc
    rw [hpool]
    rw [FrameRouter.connectionExists_eq, hactive, SortedMap.getElem?_insert] at hc
    obtain ⟨hfree, hidle⟩ := uniqueConnectionId_iff.mp hunique
    split at hc
    · subst cid
      rw [h₀.draining_eq, if_neg (by simp [hfree])]
      exact FrameRouter.isDraining_eq_false_iff.mp hidle
    · rw [← FrameRouter.connectionExists_eq] at hc
      exact h.retires h₀ cid hc

/-- A CID is not active, and it has been draining since some time. -/
structure Drains (cid : ℕ) (t : Instant) (r : FrameRouter) : Prop where
  inactive : r.connectionExists cid = false
  draining : r.drainingPool.cids[cid]? = some t

theorem Drains.retires {r r' : FrameRouter} {t : Instant} (h : Drains cid t r)
    (hr : r.Retires now r') : Drains cid t r' where
  inactive := by
    by_contra hc
    have hold := hr.exists_of (Bool.eq_true_of_not_eq_false hc)
    rw [h.inactive] at hold
    cases hold
  draining := by
    rw [hr.draining_eq, if_neg (by simp [h.inactive])]
    exact h.draining

theorem drains_of_retires {r r' : FrameRouter} (hr : r.Retires now r')
    (hc : r.connectionExists cid = true) (hc' : r'.connectionExists cid = false) :
    Drains cid now r' :=
  ⟨hc', by rw [hr.draining_eq, if_pos ⟨hc, hc'⟩]⟩

/-- A CID that is draining stays so as long as its time is not over, and it is not given out. -/
theorem Drains.moves {t : Instant} (h : Drains cid t s.frameRouter) (hm : Moves now s s')
    (hnow : now - t < s.frameRouter.drainingPool.timeout) :
    Drains cid t s'.frameRouter ∧ ∃ new, s'.cids = s.cids ++ new ∧ cid ∉ new := by
  have hnone {l : List ℕ} (hl : l = s.cids) : ∃ new, l = s.cids ++ new ∧ cid ∉ new :=
    ⟨[], by simp [hl]⟩
  cases hm with
  | retire hcids hr => exact ⟨h.retires hr, hnone hcids⟩
  | free hcids hactive hpool =>
    refine ⟨⟨?_, ?_⟩, hnone hcids⟩
    · rw [FrameRouter.connectionExists, hactive]
      exact h.inactive
    · rw [hpool, DrainingPool.getElem?_cleanup, h.draining, Option.filter_some,
        if_pos (decide_eq_true hnow)]
  | create e hendpoints hunique r₀ r₁ h₀ hactive hpool h₁ =>
    have hne : e.localCid ≠ cid := by
      rintro rfl
      have hidle := (uniqueConnectionId_iff.mp hunique).2
      rw [FrameRouter.isDraining_iff.mpr ⟨t, h.draining⟩] at hidle
      cases hidle
    constructor
    · refine Drains.retires ⟨?_, ?_⟩ h₁
      · rw [FrameRouter.connectionExists_eq, hactive, SortedMap.getElem?_insert, if_neg hne,
          ← FrameRouter.connectionExists_eq]
        exact (h.retires h₀).inactive
      · rw [hpool]
        exact (h.retires h₀).draining
    · exact ⟨[e.localCid], by simp [cids, hendpoints, hne.symm]⟩

/-- A CID that was active, or was given to a connection just now, is not active any more. -/
def Removed (s s' : SocketEventLoop) (cid : ℕ) : Prop :=
  (s.frameRouter.connectionExists cid = true ∨ cid ∈ s'.cids.drop s.cids.length) ∧
    s'.frameRouter.connectionExists cid = false

theorem Removed.drains (h : Removed s s' cid) (hm : Moves now s s') :
    Drains cid now s'.frameRouter := by
  obtain ⟨hold, hgone⟩ := h
  cases hm with
  | retire hcids hr =>
    rcases hold with hold | hnew
    · exact drains_of_retires hr hold hgone
    · simp [hcids] at hnew
  | free hcids hactive hpool =>
    rcases hold with hold | hnew
    · rw [FrameRouter.connectionExists, hactive] at hgone
      rw [FrameRouter.connectionExists, hgone] at hold
      cases hold
    · simp [hcids] at hnew
  | create e hendpoints hunique r₀ r₁ h₀ hactive hpool h₁ =>
    have hexists : r₁.connectionExists cid =
        if e.localCid = cid then true else r₀.connectionExists cid := by
      rw [FrameRouter.connectionExists_eq, hactive, SortedMap.getElem?_insert,
        FrameRouter.connectionExists_eq]
      split <;> rfl
    by_cases he : e.localCid = cid
    · rw [if_pos he] at hexists
      exact drains_of_retires h₁ hexists hgone
    · rw [if_neg he] at hexists
      have hold : s.frameRouter.connectionExists cid = true := by
        rcases hold with hold | hnew
        · exact hold
        · simp [cids, hendpoints, Ne.symm he] at hnew
      cases hc : r₀.connectionExists cid with
      | true => exact drains_of_retires h₁ (hexists.trans hc) hgone
      | false =>
        have hd := drains_of_retires h₀ hold hc
        exact Drains.retires ⟨hexists.trans hc, by rw [hpool, hd.draining]⟩ h₁

theorem Moves.timeout_eq (hm : Moves now s s') :
    s'.frameRouter.drainingPool.timeout = s.frameRouter.drainingPool.timeout := by
  cases hm with
  | retire _ hr => exact hr.timeout_eq
  | free _ _ hpool =>
    rw [hpool]
    rfl
  | create _ _ _ r₀ r₁ h₀ _ hpool h₁ => rw [h₁.timeout_eq, hpool, h₀.timeout_eq]

end SocketEventLoop

/-- The loop with the time of the latest event that looked at the clock. -/
structure ClockedLoop where
  loop : SocketEventLoop
  clock : Instant

namespace ClockedLoop

variable {x x' y : ClockedLoop} {addrHash : SocketAddr → ℕ} {ev : SocketEvent} {cid : ℕ}

/-- The clock does not go back. -/
def next (x : ClockedLoop) (addrHash : SocketAddr → ℕ) (ev : SocketEvent) : Option ClockedLoop :=
  if x.clock ≤ ev.time.getD x.clock then
    (x.loop.next addrHash ev).map fun loop => ⟨loop, ev.time.getD x.clock⟩
  else none

/-- The socket starts its loop with a draining pool for the drain timeout of its configuration. -/
def system (addrHash : SocketAddr → ℕ) : TransitionSystem ClockedLoop SocketEvent :=
  .ofNext (fun x => ∃ (config : Config) (now : Instant),
      x = ⟨.new config (.new (.new config.connection.drainTimeout)), now⟩)
    fun x ev => x.next addrHash ev

theorem next_eq_some (hs : x.next addrHash ev = some x') :
    x.clock ≤ x'.clock ∧ x.loop.Moves x'.clock x'.loop ∧ x'.loop.config = x.loop.config := by
  obtain ⟨hle, hs⟩ := Option.ite_none_right_eq_some.mp hs
  obtain ⟨s, h₁, rfl⟩ := Option.map_eq_some_iff.mp hs
  obtain ⟨hm, hconfig⟩ := SocketEventLoop.moves_next x.clock h₁
  exact ⟨hle, hm, hconfig⟩

/-- No CID is active and draining, and the pool keeps to the configuration. -/
structure Timed (x : ClockedLoop) : Prop where
  apart : SocketEventLoop.Apart x.loop.frameRouter
  timeout_eq : x.loop.frameRouter.drainingPool.timeout = x.loop.config.connection.drainTimeout

theorem timed_of_reachable (hx : (system addrHash).Reachable x) : Timed x := by
  have hinv : (system addrHash).Invariant Timed :=
    { init := by
        rintro x ⟨config, now, rfl⟩
        refine ⟨?_, rfl⟩
        intro cid hc
        simp [SocketEventLoop.new, FrameRouter.new, FrameRouter.connectionExists] at hc
      step := by
        intro x ev x' _ h hs
        obtain ⟨-, hm, hconfig⟩ := next_eq_some hs
        exact ⟨h.apart.moves hm, by rw [hm.timeout_eq, hconfig, h.timeout_eq]⟩ }
  exact hinv.holds hx

theorem clock_le_of_foldlM (evs : List SocketEvent)
    (hs : evs.foldlM (next · addrHash ·) x = some y) : x.clock ≤ y.clock := by
  induction evs generalizing x with
  | nil =>
    cases hs
    exact le_refl _
  | cons ev evs ih =>
    rw [List.foldlM_cons] at hs
    obtain ⟨x₁, h₁, hs⟩ := Option.bind_eq_some_iff.mp hs
    exact (next_eq_some h₁).1.trans (ih hs)

/-- A CID that is draining is not given out until its time is over. -/
theorem drains_of_foldlM (evs : List SocketEvent) {t : Instant}
    (h : SocketEventLoop.Drains cid t x.loop.frameRouter) (hx : Timed x) (ht : t ≤ x.clock)
    (hs : evs.foldlM (next · addrHash ·) x = some y)
    (hy : y.clock < t + x.loop.config.connection.drainTimeout) :
    SocketEventLoop.Drains cid t y.loop.frameRouter ∧
      ∃ new, y.loop.cids = x.loop.cids ++ new ∧ cid ∉ new := by
  induction evs generalizing x with
  | nil =>
    cases hs
    exact ⟨h, [], by simp⟩
  | cons ev evs ih =>
    rw [List.foldlM_cons] at hs
    obtain ⟨x₁, h₁, hs⟩ := Option.bind_eq_some_iff.mp hs
    obtain ⟨hle, hm, hconfig⟩ := next_eq_some h₁
    have hend : x₁.clock ≤ y.clock := clock_le_of_foldlM evs hs
    -- a cleanup at this time does not free the CID
    have hnow : x₁.clock - t < x.loop.frameRouter.drainingPool.timeout := by
      rw [hx.timeout_eq]
      exact Nat.sub_lt_left_of_lt_add (ht.trans hle) (hend.trans_lt hy)
    obtain ⟨hd, new₁, hcids₁, hnew₁⟩ := h.moves hm hnow
    have hx₁ : Timed x₁ := ⟨hx.apart.moves hm, by rw [hm.timeout_eq, hconfig, hx.timeout_eq]⟩
    obtain ⟨hdy, new, hcids, hnew⟩ := ih hd hx₁ (ht.trans hle) hs (by rwa [hconfig])
    refine ⟨hdy, new₁ ++ new, ?_, by simp [hnew₁, hnew]⟩
    rw [hcids, hcids₁, List.append_assoc]

/-- No CID is active and draining. A CID that is removed is not active again before its drain
timeout is over, and no connection gets it before. -/
theorem drained_cid_unused (addrHash : SocketAddr → ℕ) :
    (∀ x, (system addrHash).Reachable x → ∀ cid,
      ¬ (x.loop.frameRouter.connectionExists cid = true ∧
        x.loop.frameRouter.isDraining cid = true)) ∧
    ∀ x ev x' cid, (system addrHash).Reachable x → x.next addrHash ev = some x' →
      x.loop.Removed x'.loop cid →
      ∀ (evs : List SocketEvent) (y : ClockedLoop), evs.foldlM (next · addrHash ·) x' = some y →
        y.clock < x'.clock + x'.loop.config.connection.drainTimeout →
          y.loop.frameRouter.connectionExists cid = false ∧
            cid ∉ y.loop.cids.drop x'.loop.cids.length := by
  constructor
  · rintro x hx cid ⟨hactive, hdraining⟩
    obtain ⟨start, hstart⟩ := FrameRouter.isDraining_iff.mp hdraining
    rw [(timed_of_reachable hx).apart cid hactive] at hstart
    cases hstart
  · intro x ev x' cid hx hs hr evs y hy hclock
    obtain ⟨-, hm, -⟩ := next_eq_some hs
    have hx' : Timed x' := timed_of_reachable (.step hx hs)
    obtain ⟨hd, new, hcids, hnew⟩ :=
      drains_of_foldlM evs (hr.drains hm) hx' (le_refl _) hy hclock
    exact ⟨hd.inactive, by simpa [hcids] using hnew⟩

section Sample

/-- After the removal the pool is cleaned up and another connection is made. -/
def drainingRun : List SocketEvent :=
  [.cleanup 30, .connect ⟨6, true, true, [], [], 40, 10⟩ 80]

theorem drained_cid_unused_sample : ∃ x x' y : ClockedLoop,
    x.loop.Removed x'.loop 5 ∧ drainingRun.foldlM (next · id ·) x' = some y ∧
      y.loop.frameRouter.connectionExists 5 = false := by
  obtain ⟨x, x', hr, hs, hrem, hy⟩ : ∃ x x' : ClockedLoop, (system id).Run
      [.connect ⟨5, true, true, [], [], 10, 10⟩ 80] x ∧
      x.next id (.removeConnection [80] 20 5) = some x' ∧
      (x.loop.frameRouter.connectionExists 5 = true ∧
        x'.loop.frameRouter.connectionExists 5 = false) ∧
      (drainingRun.foldlM (next · id ·) x').map
        (fun y => decide (y.clock < x'.clock + x'.loop.config.connection.drainTimeout)) =
          some true :=
    TransitionSystem.exists_step_of_foldlM _ _ ⟨{}, 0, rfl⟩ (by decide +kernel)
  obtain ⟨y, hy, hclock⟩ := Option.map_eq_some_iff.mp hy
  have hremoved : x.loop.Removed x'.loop 5 := ⟨Or.inl hrem.1, hrem.2⟩
  exact ⟨x, x', y, hremoved, hy, ((drained_cid_unused id).2 x _ x' 5 hr.reachable hs hremoved
    drainingRun y hy (of_decide_eq_true hclock)).1⟩

end Sample

end ClockedLoop

namespace SocketEventLoop

variable {s s' : SocketEventLoop} {addrHash : SocketAddr → ℕ} {now : Instant} {e : EndpointTask}
  {cid : ℕ} {m : ConnectionMeta}

/-- A frame with the CID of an endpoint as its destination goes to the connection of this endpoint,
wherever it comes from. -/
def Reaches (s : SocketEventLoop) (addrHash : SocketAddr → ℕ) (e : EndpointTask) : Prop :=
  ∀ (order : List SocketAddr) (now : Instant) (isOpen : Bool) (frame : Frame)
    (remoteAddr : SocketAddr), frame.destinationCid = e.localCid →
      s.frameRouter.dispatchFrame addrHash order now isOpen frame remoteAddr =
        s.frameRouter.sendOrRemove order now isOpen e.localCid ⟨e.sender⟩ frame remoteAddr

/-- The runs from a state on in which a CID stays active. -/
def whileActive (s : SocketEventLoop) (addrHash : SocketAddr → ℕ) (cid : ℕ) :
    TransitionSystem SocketEventLoop SocketEvent :=
  (TransitionSystem.ofNext (· = s) fun s ev => s.next addrHash ev).restrict
    fun _ _ s' => s'.frameRouter.connectionExists cid = true

/-- If its connection was registered, a new endpoint is reached by its CID as long as the CID stays
active. -/
def StaysReached (s' : SocketEventLoop) (addrHash : SocketAddr → ℕ) (e : EndpointTask) : Prop :=
  s'.frameRouter.connectionExists e.localCid = true →
    ∀ y, (s'.whileActive addrHash e.localCid).Reachable y → y.Reaches addrHash e

/-- A new endpoint has a CID of its own, and is reached by it. -/
structure OwnCid (addrHash : SocketAddr → ℕ) (s s' : SocketEventLoop) (e : EndpointTask) :
    Prop where
  ne_zero : e.localCid ≠ 0
  inactive : s.frameRouter.connectionExists e.localCid = false
  not_draining : s.frameRouter.isDraining e.localCid = false
  reached : s'.StaysReached addrHash e

theorem Moves.entry_eq (hm : Moves now s s') (hc : s.frameRouter.connectionExists cid = true)
    (h : s'.frameRouter.activeConnections[cid]? = some m) :
    s.frameRouter.activeConnections[cid]? = some m := by
  cases hm with
  | retire _ hr => exact hr.active_of cid m h
  | free _ hactive _ =>
    rw [hactive] at h
    exact h
  | create e' _ hunique r₀ r₁ h₀ hactive _ h₁ =>
    have hne : e'.localCid ≠ cid := by
      rintro rfl
      rw [(uniqueConnectionId_iff.mp hunique).1] at hc
      cases hc
    have hr₁ := h₁.active_of cid m h
    rw [hactive, SortedMap.getElem?_insert, if_neg hne] at hr₁
    exact h₀.active_of cid m hr₁

theorem Moves.created (hm : Moves now s s') (he : s'.endpoints = s.endpoints ++ [e]) :
    s.uniqueConnectionId e.localCid = true ∧
      ∀ m, s'.frameRouter.activeConnections[e.localCid]? = some m → m = ⟨e.sender⟩ := by
  have hcids : s'.cids ≠ s.cids := by
    intro hcids
    simp [cids, he] at hcids
  cases hm with
  | retire hcids' _ => exact absurd hcids' hcids
  | free hcids' _ _ => exact absurd hcids' hcids
  | create e' he' hunique r₀ r₁ h₀ hactive _ h₁ =>
    have hee : e' = e := by
      rw [he'] at he
      simpa using he
    subst hee
    refine ⟨hunique, ?_⟩
    intro m h
    have hr₁ := h₁.active_of e'.localCid m h
    rw [hactive, SortedMap.getElem?_insert, if_pos rfl] at hr₁
    exact (Option.some.inj hr₁).symm

theorem reaches_of_entry (hne : e.localCid ≠ 0)
    (h : s.frameRouter.activeConnections[e.localCid]? = some ⟨e.sender⟩) :
    s.Reaches addrHash e := by
  intro order now isOpen frame remoteAddr hd
  rw [FrameRouter.dispatchFrame, hd, if_pos hne, h]

theorem staysReached (hne : e.localCid ≠ 0)
    (hentry : ∀ m, s.frameRouter.activeConnections[e.localCid]? = some m → m = ⟨e.sender⟩) :
    s.StaysReached addrHash e := by
  intro hactive y hy
  obtain ⟨m, hm⟩ := FrameRouter.connectionExists_iff.mp hactive
  have hinv : (s.whileActive addrHash e.localCid).Invariant
      fun y => y.frameRouter.activeConnections[e.localCid]? = some ⟨e.sender⟩ :=
    { init := by
        rintro y rfl
        rw [hm, hentry m hm]
      step := by
        rintro y ev y' _ h ⟨hs, hc⟩
        obtain ⟨m', hm'⟩ := FrameRouter.connectionExists_iff.mp hc
        have hold : y.frameRouter.connectionExists e.localCid = true :=
          FrameRouter.connectionExists_iff.mpr ⟨_, h⟩
        have hm := (moves_next 0 hs).1.entry_eq hold hm'
        rw [h] at hm
        rw [hm', hm] }
  exact reaches_of_entry hne (hinv.holds hy)

theorem not_reaches_zero (hz : e.localCid = 0) : ¬ s.Reaches addrHash e := by
  intro h
  obtain ⟨a, ha⟩ := Infinite.exists_notMem_finset s.frameRouter.addressRouting.keys.toFinset
  have hroute : s.frameRouter.addressRouting[a]? = none := by
    rw [List.mem_toFinset, SortedMap.mem_keys] at ha
    exact Option.eq_none_iff_forall_ne_some.mpr fun cid hc => ha ⟨cid, hc⟩
  have heq := congrArg Prod.fst (h [] 0 true (.newPathResponse 0 0 0 0) a hz.symm)
  have hresult : (s.frameRouter.dispatchFrame addrHash [] 0 true (.newPathResponse 0 0 0 0) a).1 ≠
      .dispatched := by
    rw [FrameRouter.dispatchFrame, if_neg (by simp [Frame.newPathResponse, Frame.destinationCid]),
      FrameRouter.dispatchByAddress, hroute]
    dsimp only
    unfold FrameRouter.dispatchUnroutable
    split
    · simp
    · simp [Frame.newPathResponse]
  exact hresult heq

/-- A new connection has a CID of its own by which it is reached exactly if the CID is not 0; nor is
it reached otherwise. -/
theorem own_cid_iff (addrHash : SocketAddr → ℕ) (s : SocketEventLoop) (ev : SocketEvent)
    (s' : SocketEventLoop) (e : EndpointTask) (hs : s.next addrHash ev = some s')
    (he : s'.endpoints = s.endpoints ++ [e]) :
    (OwnCid addrHash s s' e ↔ e.localCid ≠ 0) ∧
      (s'.frameRouter.connectionExists e.localCid = true →
        (s'.StaysReached addrHash e ↔ e.localCid ≠ 0)) := by
  obtain ⟨hunique, hentry⟩ := (moves_next 0 hs).1.created he
  obtain ⟨hfree, hidle⟩ := uniqueConnectionId_iff.mp hunique
  constructor
  · exact ⟨fun h => h.ne_zero, fun hne => ⟨hne, hfree, hidle, staysReached hne hentry⟩⟩
  · intro hactive
    refine ⟨?_, fun hne => staysReached hne hentry⟩
    intro h hz
    exact not_reaches_zero hz (h hactive s' (.init rfl))

section Sample

/-- A connection with a CID is made at address 80. -/
def connectWith (localCid : ℕ) : SocketEvent := .connect ⟨localCid, true, true, [], [], 10, 10⟩ 80

def connectedTask (localCid : ℕ) : EndpointTask := ⟨0, localCid, 0, 80, [], true⟩

def firstState : SocketEventLoop := new {} (.new (.new 3))

def busyEvents : List SocketEvent :=
  [connectWith 5, .connect ⟨6, true, true, [80], [], 10, 10⟩ 81, .removeConnection [80, 81] 20 5]

/-- A third connection is made beside one that is active and one that is draining. -/
theorem own_cid_sample : ∃ s s' : SocketEventLoop,
    busyEvents.foldlM (next · id ·) firstState = some s ∧
      s.frameRouter.connectionExists 6 = true ∧ s.frameRouter.isDraining 5 = true ∧
      s.next id (.connect ⟨7, true, true, [81], [], 30, 10⟩ 82) = some s' ∧
        OwnCid id s s' ⟨2, 7, 0, 82, [], true⟩ := by
  obtain ⟨s, hs, hp⟩ := Option.map_eq_some_iff.mp (show
    (busyEvents.foldlM (next · id ·) firstState).map (fun s =>
      (decide (s.frameRouter.connectionExists 6 = true ∧ s.frameRouter.isDraining 5 = true),
        (s.next id (.connect ⟨7, true, true, [81], [], 30, 10⟩ 82)).map fun s' =>
          decide (s'.endpoints = s.endpoints ++ [⟨2, 7, 0, 82, [], true⟩]))) =
            some (true, some true) by decide)
  obtain ⟨hbusy, hnext⟩ := Prod.mk.inj hp
  obtain ⟨hactive, hdraining⟩ := of_decide_eq_true hbusy
  obtain ⟨s', hs', he⟩ := Option.map_eq_some_iff.mp hnext
  exact ⟨s, s', hs, hactive, hdraining, hs',
    (own_cid_iff id _ _ s' _ hs' (of_decide_eq_true he)).1.mpr (by decide)⟩

/-- A connection with the CID 0 is registered, and a PUSH for it from another address is not
dispatched. -/
theorem zero_cid_unreached : ∃ s' : SocketEventLoop,
    firstState.next id (connectWith 0) = some s' ∧
      s'.frameRouter.activeConnections[0]? = some ⟨(connectedTask 0).sender⟩ ∧
      (s'.frameRouter.dispatchFrame id [80] 20 true (.newPush 0 0 0 0 0 [1]) 81).1 = .frameCached ∧
      ¬ OwnCid id firstState s' (connectedTask 0) := by
  obtain ⟨s', hs, hp⟩ := Option.map_eq_some_iff.mp (show
    (firstState.next id (connectWith 0)).map (fun s' =>
      decide (s'.frameRouter.activeConnections[0]? = some ⟨(connectedTask 0).sender⟩ ∧
        (s'.frameRouter.dispatchFrame id [80] 20 true (.newPush 0 0 0 0 0 [1]) 81).1 =
          .frameCached)) = some true by decide)
  obtain ⟨hentry, hresult⟩ := of_decide_eq_true hp
  exact ⟨s', hs, hentry, hresult, fun h => h.ne_zero rfl⟩

end Sample

end SocketEventLoop

end Kestrel
