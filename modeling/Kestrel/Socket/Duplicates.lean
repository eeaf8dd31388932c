import Kestrel.Socket.EventLoop

/-! # Duplicated SYN frames

A SYN for a connection that is active already should change nothing. The router would see to that,
since it finds the connection by its address, but the loop does not ask the router about a datagram
that begins with a SYN.
-/

namespace Kestrel

open Std (ExtTreeMap)

namespace FrameRouter

variable {r : FrameRouter} {addrHash : SocketAddr → ℕ} {order : List SocketAddr} {now : Instant}
  {isOpen : Bool} {frame : Frame} {remoteAddr : SocketAddr} {cid : ℕ} {m : ConnectionMeta}

/-- A connection is active, and an address leads to it. -/
structure Leads (r : FrameRouter) (remoteAddr : SocketAddr) (cid : ℕ) (m : ConnectionMeta) :
    Prop where
  route : r.addressRouting[remoteAddr]? = some cid
  active : r.activeConnections[cid]? = some m

theorem Leads.removeConnectionByCid (h : r.Leads remoteAddr cid m) {c : ℕ} (hne : c ≠ cid)
    (order : List SocketAddr) (now : Instant) :
    (r.removeConnectionByCid order now c).Leads remoteAddr cid m := by
  unfold FrameRouter.removeConnectionByCid
  split
  · dsimp only
    unfold forgetAddress
    cases hf : findAddress { r with activeConnections := r.activeConnections.erase c } order c with
    | none =>
      refine ⟨h.route, ?_⟩
      dsimp only
      rw [SortedMap.getElem?_erase, if_neg hne]
      exact h.active
    | some a =>
      have ha : r.addressRouting[a]? = some c := by
        simpa using List.find?_some hf
      constructor
      · dsimp only
        rw [SortedMap.getElem?_erase, if_neg]
        · exact h.route
        · rintro rfl
          exact hne (Option.some.inj (ha.symm.trans h.route))
      · dsimp only
        rw [SortedMap.getElem?_erase, if_neg hne]
        exact h.active
  · exact h

theorem Leads.sendOrRemove (h : r.Leads remoteAddr cid m) {c : ℕ} (m' : ConnectionMeta)
    (hopen : c = cid → isOpen = true) (order : List SocketAddr) (now : Instant) (frame : Frame)
    (addr : SocketAddr) :
    (r.sendOrRemove order now isOpen c m' frame addr).2.Leads remoteAddr cid m ∧
      (r.sendOrRemove order now isOpen c m' frame addr).2.pendingFrames = r.pendingFrames := by
  unfold FrameRouter.sendOrRemove
  split
  · exact ⟨⟨h.route, h.active⟩, rfl⟩
  · rename_i hno
    have hne : c ≠ cid := fun he => hno (hopen he)
    exact ⟨h.removeConnectionByCid hne order now, (removeConnectionByCid_keeps order now c).2⟩

/-- A frame from the address is looked up, and if it belongs to the connection, the connection takes
it. -/
theorem Leads.dispatchFrame (h : r.Leads remoteAddr cid m) (addrHash : SocketAddr → ℕ)
    (order : List SocketAddr) (now : Instant)
    (hopen : r.lookup frame remoteAddr = some (cid, m) → isOpen = true) :
    (r.dispatchFrame addrHash order now isOpen frame remoteAddr).2.Leads remoteAddr cid m ∧
      (r.dispatchFrame addrHash order now isOpen frame remoteAddr).2.pendingFrames =
        r.pendingFrames := by
  have haddr (hl : r.lookup frame remoteAddr = some (cid, m)) :
      (r.dispatchByAddress addrHash order now isOpen frame remoteAddr).2.Leads remoteAddr cid m ∧
        (r.dispatchByAddress addrHash order now isOpen frame remoteAddr).2.pendingFrames =
          r.pendingFrames := by
    unfold dispatchByAddress
    rw [h.route]
    dsimp only
    rw [h.active]
    exact h.sendOrRemove m (fun _ => hopen hl) order now frame remoteAddr
  have hroute : r.addressRouting[remoteAddr]?.bind
      (fun c => r.activeConnections[c]?.map fun m => (c, m)) = some (cid, m) := by
    rw [h.route, Option.bind_some, h.active, Option.map_some]
  unfold FrameRouter.dispatchFrame
  by_cases hd : frame.destinationCid ≠ 0
  · rw [if_pos hd]
    cases hm : r.activeConnections[frame.destinationCid]? with
    | some m' =>
      have hl : r.lookup frame remoteAddr = some (frame.destinationCid, m') := by
        rw [lookup, if_pos hd, hm]
      refine h.sendOrRemove m' ?_ order now frame remoteAddr
      intro he
      have hmm : m' = m := Option.some.inj (hm.symm.trans (he ▸ h.active))
      exact hopen (by rw [hl, he, hmm])
    | none =>
      apply haddr
      rw [lookup, if_pos hd, hm]
      exact hroute
  · rw [if_neg hd]
    apply haddr
    rw [lookup, if_neg hd]
    exact hroute

end FrameRouter

namespace SocketEventLoop

variable {s s' : SocketEventLoop} {addrHash : SocketAddr → ℕ} {e : EndpointTask}
  {remoteAddr : SocketAddr} {ev : SocketEvent} {header : LongHeader} {sourceCid : ℕ}

/-- The connection of an address and a CID of the peer: its endpoint takes frames, and the tables
have it. -/
structure Active (s : SocketEventLoop) (e : EndpointTask) (remoteAddr : SocketAddr)
    (sourceCid : ℕ) : Prop where
  mem : e ∈ s.endpoints
  running : e.running = true
  peer : e.peerCid = sourceCid
  leads : s.frameRouter.Leads remoteAddr e.localCid ⟨e.sender⟩

/-- The SYN that an event is about, with the address it came from. A SYN that begins a datagram is
treated with it, any other one when it is dispatched. -/
def synHandled (s : SocketEventLoop) : SocketEvent → Option (LongHeader × SocketAddr)
  | .recvFrames ⟨.syn header :: _, remoteAddr⟩ _ => some (header, remoteAddr)
  | .dispatch _ _ =>
    match s.datagram.frames with
    | .syn header :: _ => some (header, s.datagram.remoteAddr)
    | _ => none
  | _ => none

/-- No endpoint is created, the connection stays registered under its CID and its address, and the
early frames stay as they are. -/
structure Idempotent (s s' : SocketEventLoop) (e : EndpointTask) (remoteAddr : SocketAddr) :
    Prop where
  endpoints_eq : s'.endpoints = s.endpoints
  leads : s'.frameRouter.Leads remoteAddr e.localCid ⟨e.sender⟩
  pendingFrames_eq : s'.frameRouter.pendingFrames = s.frameRouter.pendingFrames

/-- The datagram does not begin with a SYN, or its version is not the server's, or no endpoint can
be created. -/
def Declined (config : Config) : SocketEvent → Prop
  | .recvFrames ⟨.syn header :: _, _⟩ c =>
    header.protocolVersion ≠ config.protocolVersion ∨ c.created = false
  | _ => True

theorem Idempotent.refl (h : s.Active e remoteAddr sourceCid) : Idempotent s s e remoteAddr :=
  ⟨rfl, h.leads, rfl⟩

theorem Idempotent.congr (h : Idempotent s s' e remoteAddr) (datagram : Datagram) :
    Idempotent s { s' with datagram } e remoteAddr :=
  ⟨h.endpoints_eq, h.leads, h.pendingFrames_eq⟩

theorem Idempotent.active (h : Idempotent s s' e remoteAddr)
    (ha : s.Active e remoteAddr sourceCid) : s'.Active e remoteAddr sourceCid :=
  ⟨h.endpoints_eq ▸ ha.mem, ha.running, ha.peer, h.leads⟩

theorem Idempotent.trans {s₀ : SocketEventLoop} (h₀ : Idempotent s₀ s e remoteAddr)
    (h : Idempotent s s' e remoteAddr) : Idempotent s₀ s' e remoteAddr :=
  ⟨h.endpoints_eq.trans h₀.endpoints_eq, h.leads, h.pendingFrames_eq.trans h₀.pendingFrames_eq⟩

/-- Any frame of the connection's address may be dispatched. -/
theorem dispatchFrame_idempotent (ha : s.Active e s.datagram.remoteAddr sourceCid)
    {order : List SocketAddr} {now : Instant}
    (hs : s.dispatchFrame addrHash order now = some s') :
    Idempotent s s' e s.datagram.remoteAddr ∧
      s'.datagram.remoteAddr = s.datagram.remoteAddr ∧ s'.config = s.config := by
  unfold dispatchFrame at hs
  split at hs
  · rename_i frame frames _
    obtain ⟨r, hr, rfl⟩ := Option.map_eq_some_iff.mp hs
    obtain ⟨-, hr⟩ := Option.ite_none_right_eq_some.mp hr
    cases hr
    have hopen : s.frameRouter.lookup frame s.datagram.remoteAddr =
        some (e.localCid, ⟨e.sender⟩) → s.isOpen frame = true := by
      intro hl
      rw [isOpen, hl]
      dsimp only
      rw [List.any_eq_true]
      exact ⟨e, ha.mem, by simp [ha.running]⟩
    obtain ⟨hleads, hpending⟩ := ha.leads.dispatchFrame addrHash order now hopen
    exact ⟨⟨rfl, hleads, hpending⟩, rfl, rfl⟩
  · cases hs

/-- A SYN at the beginning of a datagram makes an endpoint, unless it is declined. -/
theorem handleNewConnection_spec {c : Creation} {frames : List Frame}
    (hs : s.handleNewConnection addrHash c (.syn header :: frames) remoteAddr = some s') :
    if header.protocolVersion ≠ s.config.protocolVersion ∨ c.created = false then s' = s
    else ∃ e', s'.endpoints = s.endpoints ++ [e'] := by
  unfold handleNewConnection at hs
  dsimp only at hs
  by_cases hv : header.protocolVersion = s.config.protocolVersion
  · rw [if_pos (by simpa [validateProtocolVersion] using hv)] at hs
    obtain ⟨-, hs⟩ := Option.ite_none_right_eq_some.mp hs
    by_cases hc : c.created = true
    · rw [if_neg (by simp [hv, hc])]
      rw [if_pos hc] at hs
      obtain ⟨s₁, h₁, hs⟩ := Option.bind_eq_some_iff.mp hs
      obtain ⟨r, -, rfl⟩ := Option.map_eq_some_iff.mp h₁
      refine ⟨s.createEndpoint c.localCid header.sourceCid remoteAddr
        (handleZeroRttFrames frames), ?_⟩
      unfold sendConnectionToUser at hs
      split at hs
      · cases hs
        rfl
      · obtain ⟨r', -, rfl⟩ := Option.map_eq_some_iff.mp hs
        rfl
    · rw [if_pos (Or.inr (Bool.eq_false_of_not_eq_true hc))]
      rw [if_neg hc] at hs
      exact (Option.some.inj hs).symm
  · rw [if_pos (Or.inl hv)]
    rw [if_neg (by simpa [validateProtocolVersion] using hv)] at hs
    exact (Option.some.inj hs).symm

/-- A datagram that begins with a SYN changes nothing exactly if it is declined. -/
theorem handleNewConnection_idempotent_iff (ha : s.Active e remoteAddr sourceCid) {c : Creation}
    {frames : List Frame} {addr : SocketAddr}
    (hs : s.handleNewConnection addrHash c (.syn header :: frames) addr = some s') :
    Idempotent s s' e remoteAddr ↔
      header.protocolVersion ≠ s.config.protocolVersion ∨ c.created = false := by
  have hspec := handleNewConnection_spec hs
  split at hspec
  · rename_i hd
    subst hspec
    exact iff_of_true (.refl ha) hd
  · rename_i hd
    refine iff_of_false ?_ hd
    intro hi
    obtain ⟨e', he'⟩ := hspec
    have hlen := congrArg List.length (he'.symm.trans hi.endpoints_eq)
    simp at hlen

/-- What comes from the connection's address without a SYN that makes an endpoint. -/
def FromPeer (config : Config) (remoteAddr : SocketAddr) (ev : SocketEvent) : Prop :=
  Declined config ev ∧
    match ev with
    | .recvFrames d _ => d.remoteAddr = remoteAddr
    | .dispatch _ _ => True
    | _ => False

theorem startsWithSyn_iff {frames : List Frame} :
    startsWithSyn frames = true ↔ ∃ header rest, frames = .syn header :: rest := by
  constructor
  · intro h
    unfold startsWithSyn at h
    split at h
    · exact ⟨_, _, rfl⟩
    · cases h
  · rintro ⟨header, rest, rfl⟩
    rfl

theorem fromPeer_idempotent (ha : s.Active e remoteAddr sourceCid)
    (hd : s.datagram.frames ≠ [] → s.datagram.remoteAddr = remoteAddr)
    (hp : FromPeer s.config remoteAddr ev) (hs : s.next addrHash ev = some s') :
    Idempotent s s' e remoteAddr ∧ s'.config = s.config ∧
      (s'.datagram.frames ≠ [] → s'.datagram.remoteAddr = remoteAddr) := by
  obtain ⟨hdecl, hfrom⟩ := hp
  cases ev with
  | recvFrames d c =>
    obtain ⟨he, hs⟩ := Option.ite_none_right_eq_some.mp hs
    by_cases hsyn : startsWithSyn d.frames = true
    · rw [if_pos hsyn] at hs
      obtain ⟨frames, addr⟩ := d
      obtain ⟨header, rest, rfl⟩ := startsWithSyn_iff.mp hsyn
      have hspec := handleNewConnection_spec hs
      have hdecl' : header.protocolVersion ≠ s.config.protocolVersion ∨ c.created = false := hdecl
      rw [if_pos hdecl'] at hspec
      subst hspec
      exact ⟨.refl ha, rfl, hd⟩
    · rw [if_neg hsyn] at hs
      cases hs
      exact ⟨(Idempotent.refl ha).congr d, rfl, fun _ => hfrom⟩
  | dispatch order now =>
    have hne : s.datagram.frames ≠ [] := by
      intro hnil
      change s.dispatchFrame addrHash order now = some s' at hs
      rw [dispatchFrame, hnil] at hs
      cases hs
    have haddr := hd hne
    subst haddr
    obtain ⟨hi, haddr, hconfig⟩ := dispatchFrame_idempotent ha hs
    exact ⟨hi, hconfig, fun _ => haddr⟩
  | connect | updateAddr | removeConnection | cleanup | stop => exact hfrom.elim

theorem fromPeer_run (evs : List SocketEvent) (ha : s.Active e remoteAddr sourceCid)
    (hd : s.datagram.frames ≠ [] → s.datagram.remoteAddr = remoteAddr)
    (hp : ∀ ev ∈ evs, FromPeer s.config remoteAddr ev)
    (hs : evs.foldlM (next · addrHash ·) s = some s') : Idempotent s s' e remoteAddr := by
  induction evs generalizing s with
  | nil =>
    cases hs
    exact .refl ha
  | cons ev evs ih =>
    rw [List.foldlM_cons] at hs
    obtain ⟨s₁, h₁, hs⟩ := Option.bind_eq_some_iff.mp hs
    obtain ⟨hi, hconfig, hd₁⟩ := fromPeer_idempotent ha hd (hp ev (by simp)) h₁
    refine hi.trans (ih (hi.active ha) hd₁ ?_ hs)
    intro ev' hev'
    rw [hconfig]
    exact hp ev' (by simp [hev'])

/-- A SYN for an active connection changes nothing exactly if it is declined or does not begin its
datagram; and no sequence of such SYN frames and of other frames of the connection does. -/
theorem syn_idempotent (addrHash : SocketAddr → ℕ) (s : SocketEventLoop)
    (_ : (system addrHash).Reachable s) (e : EndpointTask) (remoteAddr : SocketAddr)
    (sourceCid : ℕ) (ha : s.Active e remoteAddr sourceCid) :
    (∀ ev header s', s.next addrHash ev = some s' →
      s.synHandled ev = some (header, remoteAddr) → header.sourceCid = sourceCid →
        (Idempotent s s' e remoteAddr ↔ Declined s.config ev)) ∧
    ∀ (evs : List SocketEvent) (s' : SocketEventLoop),
      (s.datagram.frames ≠ [] → s.datagram.remoteAddr = remoteAddr) →
      (∀ ev ∈ evs, FromPeer s.config remoteAddr ev) →
      evs.foldlM (next · addrHash ·) s = some s' → Idempotent s s' e remoteAddr := by
  refine ⟨?_, fun evs s' hd hp hs => fromPeer_run evs ha hd hp hs⟩
  intro ev header s' hs hsyn _
  unfold synHandled at hsyn
  split at hsyn
  · obtain ⟨rfl, rfl⟩ := Prod.mk.inj (Option.some.inj hsyn)
    obtain ⟨-, hs⟩ := Option.ite_none_right_eq_some.mp hs
    exact handleNewConnection_idempotent_iff ha hs
  · split at hsyn
    · obtain ⟨rfl, rfl⟩ := Prod.mk.inj (Option.some.inj hsyn)
      exact iff_of_true (dispatchFrame_idempotent ha hs).1 trivial
    · cases hsyn
  · cases hsyn

section Sample

/-- A connection for a SYN from address 80 with the CID 7. -/
def acceptSyn (localCid : ℕ) (order : List SocketAddr) : SocketEvent :=
  .recvFrames ⟨[.newSyn 1 7 0], 80⟩ ⟨localCid, true, true, order, [], 0, 10⟩

def sampleTask (localCid : ℕ) : EndpointTask := ⟨0, localCid, 7, 80, [], true⟩

instance (s : SocketEventLoop) (e : EndpointTask) (remoteAddr : SocketAddr) (sourceCid : ℕ) :
    Decidable (s.Active e remoteAddr sourceCid) :=
  decidable_of_iff (e ∈ s.endpoints ∧ e.running = true ∧ e.peerCid = sourceCid ∧
      s.frameRouter.addressRouting[remoteAddr]? = some e.localCid ∧
        s.frameRouter.activeConnections[e.localCid]? = some ⟨e.sender⟩)
    ⟨fun h => ⟨h.1, h.2.1, h.2.2.1, h.2.2.2.1, h.2.2.2.2⟩,
      fun h => ⟨h.mem, h.running, h.peer, h.leads.route, h.leads.active⟩⟩

/-- The SYN comes again behind another frame. -/
theorem syn_idempotent_sample : ∃ s s' : SocketEventLoop,
    s.next id (.dispatch [80] 5) = some s' ∧ Idempotent s s' (sampleTask 1) 80 := by
  obtain ⟨s, s', hr, hs, ha, hsyn⟩ : ∃ s s' : SocketEventLoop, (system id).Run
      [acceptSyn 1 [], .recvFrames ⟨[.newPathResponse 1 0 0 0, .newSyn 1 7 0], 80⟩
          ⟨2, true, true, [80], [], 0, 10⟩, .dispatch [80] 5] s ∧
      s.next id (.dispatch [80] 5) = some s' ∧
      s.Active (sampleTask 1) 80 7 ∧
        s.synHandled (.dispatch [80] 5) = some (⟨.syn, 1, 0, 7⟩, 80) :=
    TransitionSystem.exists_step_of_foldlM _ _ ⟨{}, 3, rfl⟩ (by decide +kernel)
  have h := syn_idempotent id s hr.reachable (sampleTask 1) 80 7 ha
  exact ⟨s, s', hs, (h.1 _ _ s' hs hsyn rfl).mpr trivial⟩

/-- A duplicated SYN makes a second endpoint, which takes the place of the first. -/
theorem duplicate_syn_replaces : ∃ s s' : SocketEventLoop, (system id).Reachable s ∧
    s.next id (acceptSyn 2 [80]) = some s' ∧ s.Active (sampleTask 1) 80 7 ∧
      s'.frameRouter.connectionExists 1 = false ∧ ¬ Idempotent s s' (sampleTask 1) 80 := by
  obtain ⟨s, s', hr, hs, ha, hlen, hgone⟩ : ∃ s s' : SocketEventLoop, (system id).Run
      [acceptSyn 1 []] s ∧ s.next id (acceptSyn 2 [80]) = some s' ∧
      s.Active (sampleTask 1) 80 7 ∧ s'.endpoints.length ≠ s.endpoints.length ∧
        s'.frameRouter.connectionExists 1 = false :=
    TransitionSystem.exists_step_of_foldlM _ _ ⟨{}, 3, rfl⟩ (by decide +kernel)
  refine ⟨s, s', hr.reachable, hs, ha, hgone, ?_⟩
  intro h
  exact hlen (congrArg List.length h.endpoints_eq)

end Sample

end SocketEventLoop

end Kestrel
