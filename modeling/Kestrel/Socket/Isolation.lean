import Kestrel.Socket.Routing

/-! # Isolation of connections

A frame that names a connection should go to that one or nowhere. The lookup by address is also made
for a frame whose CID is not that of an active connection; as long as it finds nothing then, frames
reach only the connection they name, the cached ones included.
-/

namespace Kestrel.FrameRouter

open Std (ExtTreeMap)

variable {r r' : FrameRouter} {addrHash : SocketAddr → ℕ} {order : List SocketAddr} {now : Instant}
  {isOpen : Bool} {frame : Frame} {remoteAddr : SocketAddr} {op : Op}

/-- A frame that names a connection was delivered to that one. -/
def Isolated (r : FrameRouter) : Prop :=
  ∀ d ∈ r.delivered, d.frame.destinationCid ≠ 0 → d.cid = d.frame.destinationCid

/-- Every cached frame is kept under its own key. -/
def CacheKeyed (addrHash : SocketAddr → ℕ) (r : FrameRouter) : Prop :=
  ∀ key frames, r.pendingFrames[key]? = some frames → ∀ p ∈ frames,
    key = getCacheKey addrHash p.frame.destinationCid p.remoteAddr ∧
      p.frame.destinationCid < u32Size

theorem u32Size_le_getCacheKey (addrHash : SocketAddr → ℕ) (a : SocketAddr) :
    u32Size ≤ getCacheKey addrHash 0 a := by
  have hle : 2 ^ 63 ≤ addrHash a ||| 2 ^ 63 := Nat.right_le_or
  exact le_trans (by decide) hle

theorem forgetAddress_keeps (order : List SocketAddr) (cid : ℕ) :
    (r.forgetAddress order cid).delivered = r.delivered ∧
      (r.forgetAddress order cid).pendingFrames = r.pendingFrames := by
  unfold forgetAddress
  split <;> exact ⟨rfl, rfl⟩

theorem removeConnectionByCid_keeps (order : List SocketAddr) (now : Instant) (cid : ℕ) :
    (r.removeConnectionByCid order now cid).delivered = r.delivered ∧
      (r.removeConnectionByCid order now cid).pendingFrames = r.pendingFrames := by
  unfold removeConnectionByCid
  split
  · exact forgetAddress_keeps order cid
  · exact ⟨rfl, rfl⟩

theorem forwardFrames_subset (remoteAddr : SocketAddr) (sends : ℕ) (frames : List PendingFrame) :
    (∀ p ∈ (forwardFrames remoteAddr sends frames).1, p ∈ frames) ∧
      ∀ p ∈ (forwardFrames remoteAddr sends frames).2.1, p ∈ frames := by
  induction frames generalizing sends with
  | nil => simp [forwardFrames]
  | cons p frames ih =>
    rw [forwardFrames.eq_def]
    dsimp only
    split
    · cases sends with
      | zero => simp
      | succ sends =>
        obtain ⟨hf, hk⟩ := ih sends
        constructor
        · intro q hq
          rcases List.mem_cons.mp hq with rfl | hq
          · exact List.mem_cons_self ..
          · exact List.mem_cons_of_mem _ (hf q hq)
        · exact fun q hq => List.mem_cons_of_mem _ (hk q hq)
    · obtain ⟨hf, hk⟩ := ih sends
      constructor
      · exact fun q hq => List.mem_cons_of_mem _ (hf q hq)
      · intro q hq
        rcases List.mem_cons.mp hq with rfl | hq
        · exact List.mem_cons_self ..
        · exact List.mem_cons_of_mem _ (hk q hq)

/-- Forwarding under the key of a connection reaches only frames for it or without a CID. -/
theorem forwardKey_isolated (hi : r.Isolated) (hc : r.CacheKeyed addrHash) {cid key : ℕ}
    (hkey : key = cid ∨ u32Size ≤ key) (m : ConnectionMeta) (remoteAddr : SocketAddr) (sends : ℕ) :
    (r.forwardKey cid m remoteAddr sends key).2.Isolated ∧
      (r.forwardKey cid m remoteAddr sends key).2.CacheKeyed addrHash := by
  unfold forwardKey
  split
  · rename_i frames hframes
    have hsub := forwardFrames_subset remoteAddr sends frames
    dsimp only
    constructor
    · intro d hd hne
      rcases List.mem_append.mp hd with hd | hd
      · exact hi d hd hne
      · obtain ⟨p, hp, rfl⟩ := List.mem_map.mp hd
        obtain ⟨hpk, hlt⟩ := hc key frames hframes p (hsub.1 p hp)
        have hne : p.frame.destinationCid ≠ 0 := hne
        rw [getCacheKey, if_pos hne] at hpk
        rcases hkey with hkey | hkey
        · exact hkey.symm.trans hpk
        · omega
    · intro k fs hk p hp
      dsimp only at hk
      split at hk
      · rw [SortedMap.getElem?_erase] at hk
        split at hk
        · cases hk
        · exact hc k fs hk p hp
      · rw [SortedMap.getElem?_insert] at hk
        split at hk
        · rename_i hkk
          cases hk
          subst hkk
          exact hc key frames hframes p (hsub.2 p hp)
        · exact hc k fs hk p hp
  · exact ⟨hi, hc⟩

theorem forwardCachedFrames_isolated (hi : r.Isolated) (hc : r.CacheKeyed addrHash)
    (sends cid : ℕ) :
    (r.forwardCachedFrames addrHash sends cid remoteAddr).Isolated ∧
      (r.forwardCachedFrames addrHash sends cid remoteAddr).CacheKeyed addrHash := by
  unfold forwardCachedFrames
  split
  · rename_i m _
    split
    rename_i sends' r' heq
    have hfirst : r'.Isolated ∧ r'.CacheKeyed addrHash := by
      split at heq
      · have hk := forwardKey_isolated hi hc (Or.inl (Eq.refl cid)) m remoteAddr sends
        rw [heq] at hk
        exact hk
      · cases heq
        exact ⟨hi, hc⟩
    exact forwardKey_isolated hfirst.1 hfirst.2 (Or.inr (u32Size_le_getCacheKey _ _)) m
      remoteAddr sends'
  · exact ⟨hi, hc⟩

theorem registerConnection_isolated (hi : r.Isolated) (hc : r.CacheKeyed addrHash)
    (order : List SocketAddr) (now : Instant) (sends cid : ℕ) (remoteAddr : SocketAddr)
    (m : ConnectionMeta) :
    (r.registerConnection addrHash order now sends cid remoteAddr m).Isolated ∧
      (r.registerConnection addrHash order now sends cid remoteAddr m).CacheKeyed addrHash := by
  unfold registerConnection
  apply forwardCachedFrames_isolated
  · dsimp only [Isolated]
    split
    · split
      · rw [(removeConnectionByCid_keeps order now _).1]
        exact hi
      · exact hi
    · exact hi
  · dsimp only [CacheKeyed]
    split
    · split
      · rw [(removeConnectionByCid_keeps order now _).2]
        exact hc
      · exact hc
    · exact hc

/-- The connection that a frame is looked up to belong to. -/
def lookup (r : FrameRouter) (frame : Frame) (remoteAddr : SocketAddr) :
    Option (ℕ × ConnectionMeta) :=
  match if frame.destinationCid ≠ 0 then r.activeConnections[frame.destinationCid]? else none with
  | some m => some (frame.destinationCid, m)
  | none => r.addressRouting[remoteAddr]?.bind fun c => r.activeConnections[c]?.map fun m => (c, m)

theorem dispatchUnroutable_delivered :
    (r.dispatchUnroutable addrHash now frame remoteAddr).2.delivered = r.delivered := by
  unfold dispatchUnroutable
  split
  · rfl
  · split <;> rfl

theorem dispatchUnroutable_cacheKeyed (hc : r.CacheKeyed addrHash)
    (hf : frame.destinationCid < u32Size) :
    (r.dispatchUnroutable addrHash now frame remoteAddr).2.CacheKeyed addrHash := by
  unfold dispatchUnroutable
  split
  · exact hc
  · split
    · intro key frames hk p hp
      dsimp only [cacheEarlyFrame] at hk
      rw [SortedMap.getElem?_insert] at hk
      split at hk
      · rename_i hkey
        cases hk
        subst hkey
        rcases List.mem_append.mp hp with hp | hp
        · cases hold : r.pendingFrames[getCacheKey addrHash (Frame.destinationCid _) remoteAddr]? with
          | none =>
            rw [hold] at hp
            cases hp
          | some old =>
            rw [hold] at hp
            exact hc _ old hold p hp
        · rw [List.mem_singleton.mp hp]
          exact ⟨rfl, hf⟩
      · exact hc key frames hk p hp
    · exact hc

theorem sendOrRemove_delivered (cid : ℕ) (m : ConnectionMeta) :
    (r.sendOrRemove order now isOpen cid m frame remoteAddr).2.delivered =
      r.delivered ++ if isOpen then [⟨cid, m.sender, frame, remoteAddr⟩] else [] := by
  unfold sendOrRemove
  split
  · rfl
  · rw [(removeConnectionByCid_keeps order now cid).1]
    exact (List.append_nil _).symm

theorem sendOrRemove_cacheKeyed (hc : r.CacheKeyed addrHash) (cid : ℕ) (m : ConnectionMeta) :
    (r.sendOrRemove order now isOpen cid m frame remoteAddr).2.CacheKeyed addrHash := by
  unfold sendOrRemove
  split
  · exact hc
  · dsimp only [CacheKeyed]
    rw [(removeConnectionByCid_keeps order now cid).2]
    exact hc

/-- Dispatching delivers a frame to the connection it is looked up to belong to, if that takes it.
-/
theorem dispatchFrame_delivered (addrHash : SocketAddr → ℕ) (order : List SocketAddr)
    (now : Instant) (isOpen : Bool) (frame : Frame) (remoteAddr : SocketAddr) :
    (r.dispatchFrame addrHash order now isOpen frame remoteAddr).2.delivered = r.delivered ++
      match r.lookup frame remoteAddr with
      | some (c, m) => if isOpen then [⟨c, m.sender, frame, remoteAddr⟩] else []
      | none => [] := by
  have haddr : (r.dispatchByAddress addrHash order now isOpen frame remoteAddr).2.delivered =
      r.delivered ++ match r.addressRouting[remoteAddr]?.bind fun c =>
          r.activeConnections[c]?.map fun m => (c, m) with
        | some (c, m) => if isOpen then [⟨c, m.sender, frame, remoteAddr⟩] else []
        | none => [] := by
    unfold dispatchByAddress
    cases ha : r.addressRouting[remoteAddr]? with
    | none =>
      dsimp only [Option.bind]
      rw [dispatchUnroutable_delivered, List.append_nil]
    | some c =>
      dsimp only [Option.bind]
      cases hm : r.activeConnections[c]? with
      | none =>
        dsimp only [Option.map]
        rw [dispatchUnroutable_delivered, List.append_nil]
      | some m => exact sendOrRemove_delivered c m
  unfold dispatchFrame lookup
  split
  · cases hm : r.activeConnections[frame.destinationCid]? with
    | none => exact haddr
    | some m => exact sendOrRemove_delivered _ m
  · exact haddr

theorem dispatchFrame_cacheKeyed (hc : r.CacheKeyed addrHash) (hf : frame.destinationCid < u32Size) :
    (r.dispatchFrame addrHash order now isOpen frame remoteAddr).2.CacheKeyed addrHash := by
  have haddr :
      (r.dispatchByAddress addrHash order now isOpen frame remoteAddr).2.CacheKeyed addrHash := by
    unfold dispatchByAddress
    split
    · split
      · exact sendOrRemove_cacheKeyed hc _ _
      · exact dispatchUnroutable_cacheKeyed hc hf
    · exact dispatchUnroutable_cacheKeyed hc hf
  unfold dispatchFrame
  split
  · split
    · exact sendOrRemove_cacheKeyed hc _ _
    · exact haddr
  · exact haddr

/-- A frame that names a connection names an active one, or the lookup by address finds none that
takes it. -/
def OwnRoute (r : FrameRouter) : Op → Prop
  | .dispatch _ _ isOpen frame remoteAddr => frame.destinationCid ≠ 0 →
    r.connectionExists frame.destinationCid = true ∨
      ¬ (isOpen = true ∧ ∃ c ∈ r.addressRouting[remoteAddr]?, r.connectionExists c = true)
  | _ => True

instance : Decidable (r.OwnRoute op) := by
  unfold OwnRoute
  split <;> infer_instance

/-- What was delivered since another state went to one connection only. -/
def DeliveredOnlyTo (r r' : FrameRouter) (cid : ℕ) : Prop :=
  ∀ d ∈ r'.delivered.drop r.delivered.length, d.cid = cid

instance (cid : ℕ) : Decidable (DeliveredOnlyTo r r' cid) :=
  inferInstanceAs (Decidable (∀ d ∈ r'.delivered.drop r.delivered.length, d.cid = cid))

/-- A frame that names a connection is delivered only to it exactly under that condition. -/
theorem deliveredOnlyTo_iff (hne : frame.destinationCid ≠ 0) :
    DeliveredOnlyTo r (r.dispatchFrame addrHash order now isOpen frame remoteAddr).2
      frame.destinationCid ↔ r.OwnRoute (.dispatch order now isOpen frame remoteAddr) := by
  have hexists (c : ℕ) : r.connectionExists c = r.activeConnections[c]?.isSome :=
    ExtTreeMap.contains_eq_isSome_getElem?
  rw [DeliveredOnlyTo, dispatchFrame_delivered, List.drop_left, OwnRoute, lookup, if_pos hne]
  simp only [hexists]
  cases hm : r.activeConnections[frame.destinationCid]? with
  | some m =>
    dsimp only
    constructor
    · exact fun _ _ => Or.inl rfl
    · intro _ d hd
      split at hd
      · rw [List.mem_singleton.mp hd]
      · cases hd
  | none =>
    cases ha : r.addressRouting[remoteAddr]? with
    | none => simp
    | some c =>
      cases hc : r.activeConnections[c]? with
      | none =>
        constructor
        · rintro _ _
          right
          rintro ⟨-, c', hc', hs⟩
          cases hc'
          rw [hc] at hs
          cases hs
        · intro _ d hd
          simp [hc] at hd
      | some m =>
        -- The connection found by the address is active, so it is another one.
        have hother : c ≠ frame.destinationCid := by
          rintro rfl
          rw [hm] at hc
          cases hc
        cases isOpen with
        | false => simp [hc]
        | true =>
          apply iff_of_false
          · intro hall
            exact hother (hall ⟨c, m.sender, frame, remoteAddr⟩ (by simp [hc]))
          · intro ho
            rcases ho hne with hs | hn
            · cases hs
            · exact hn ⟨rfl, c, rfl, by rw [hc]; rfl⟩

theorem isolated_step (hi : r.Isolated) (hc : r.CacheKeyed addrHash)
    (h : r.next addrHash op = some r') (ho : r.OwnRoute op) :
    r'.Isolated ∧ r'.CacheKeyed addrHash := by
  cases op with
  | register order now sends cid remoteAddr m =>
    simp only [next, Option.ite_none_right_eq_some, Option.some.injEq] at h
    rw [← h.2]
    exact registerConnection_isolated hi hc order now sends cid remoteAddr m
  | updateAddr order cid newAddr =>
    simp only [next, Option.ite_none_right_eq_some, Option.some.injEq] at h
    obtain ⟨-, rfl⟩ := h
    obtain ⟨hd, hp⟩ := forgetAddress_keeps (r := r) order cid
    dsimp only [updateConnectionAddress, Isolated, CacheKeyed]
    rw [hd, hp]
    exact ⟨hi, hc⟩
  | remove order now cid =>
    simp only [next, Option.ite_none_right_eq_some, Option.some.injEq] at h
    obtain ⟨-, rfl⟩ := h
    obtain ⟨hd, hp⟩ := removeConnectionByCid_keeps (r := r) order now cid
    rw [Isolated, CacheKeyed, hd, hp]
    exact ⟨hi, hc⟩
  | dispatch order now isOpen frame remoteAddr =>
    simp only [next, Option.ite_none_right_eq_some, Option.some.injEq] at h
    obtain ⟨⟨-, hlt⟩, rfl⟩ := h
    refine ⟨?_, dispatchFrame_cacheKeyed hc hlt⟩
    intro d hd hne
    have hsplit := dispatchFrame_delivered (r := r) addrHash order now isOpen frame remoteAddr
    rw [hsplit] at hd
    rcases List.mem_append.mp hd with hd | hd
    · exact hi d hd hne
    · have hframe : d.frame = frame := by
        split at hd
        · split at hd
          · rw [List.mem_singleton.mp hd]
          · cases hd
        · cases hd
      rw [hframe] at hne ⊢
      apply (deliveredOnlyTo_iff hne).mpr ho d
      rw [hsplit, List.drop_left]
      exact hd
  | cleanupDraining now =>
    cases h
    exact ⟨hi, hc⟩
  | cleanupExpired now maxAge =>
    cases h
    refine ⟨hi, fun key frames hk p hp => ?_⟩
    dsimp only [cleanupExpiredFrames] at hk
    rw [ExtTreeMap.getElem?_filterMap'] at hk
    obtain ⟨old, hold, hkept⟩ := Option.bind_eq_some_iff.mp hk
    split at hkept
    · cases hkept
    · cases hkept
      exact hc key old hold p (List.mem_filter.mp hp).1

theorem isolated (h : ((system addrHash).restrict fun r op _ => r.OwnRoute op).Reachable r) :
    r.Isolated := by
  have hinv : ((system addrHash).restrict fun r op _ => r.OwnRoute op).Invariant
      fun r => r.Isolated ∧ r.CacheKeyed addrHash :=
    { init := by
        rintro r ⟨timeout, rfl⟩
        exact ⟨fun d hd => (by cases hd), fun key frames hk => (by simp [new] at hk)⟩
      step := fun r op r' _ hr hs => isolated_step hr.1 hr.2 hs.1 hs.2 }
  exact (hinv.holds h).1

/-- In every run whose dispatches all meet the condition, frames reach only the connection they
name; and in every state a dispatch keeps to that exactly if it meets the condition. -/
theorem routing_isolation (addrHash : SocketAddr → ℕ) :
    (∀ r, ((system addrHash).restrict fun r op _ => r.OwnRoute op).Reachable r → r.Isolated) ∧
      ∀ r order now isOpen frame remoteAddr, frame.destinationCid ≠ 0 →
        (DeliveredOnlyTo r (r.dispatchFrame addrHash order now isOpen frame remoteAddr).2
          frame.destinationCid ↔ r.OwnRoute (.dispatch order now isOpen frame remoteAddr)) :=
  ⟨fun _ h => isolated h, fun _ _ _ _ _ _ hne => deliveredOnlyTo_iff hne⟩

section Sample

/-- A connection comes and goes, and another one is registered for the same address. -/
def reusedAddress : List Op :=
  [.register [] 0 10 1 80 ⟨0⟩, .remove [80] 5 1, .register [] 6 10 2 80 ⟨1⟩]

/-- The other connection gets its own frames. -/
theorem routing_isolation_sample : ∃ r : FrameRouter,
    r.delivered = [⟨2, 1, .newFin 2 0 0 0 0, 80⟩] ∧ r.Isolated := by
  obtain ⟨r, hr, hd⟩ : ∃ r, ((system id).restrict fun r op _ => r.OwnRoute op).Run
      (reusedAddress ++ [.dispatch [80] 7 true (.newFin 2 0 0 0 0) 80]) r ∧
      r.delivered = [⟨2, 1, .newFin 2 0 0 0 0, 80⟩] :=
    TransitionSystem.exists_restrict_run_of_foldlM _ ⟨3, rfl⟩ (by decide)
  exact ⟨r, hd, (routing_isolation id).1 r hr.reachable⟩

/-- A late frame of the connection that went, whose CID is draining, reaches the other one. -/
theorem draining_frame_misrouted : ∃ r : FrameRouter, (system id).Reachable r ∧
    r.isDraining 1 = true ∧ ¬ DeliveredOnlyTo r
      (r.dispatchFrame id [80] 7 true (.newFin 1 0 0 0 0) 80).2 1 := by
  obtain ⟨r, hr, hd⟩ : ∃ r, (system id).Run reusedAddress r ∧ r.isDraining 1 = true ∧
      ¬ DeliveredOnlyTo r (r.dispatchFrame id [80] 7 true (.newFin 1 0 0 0 0) 80).2 1 :=
    TransitionSystem.exists_run_of_foldlM _ ⟨3, rfl⟩ (by decide)
  exact ⟨r, hr.reachable, hd⟩

end Sample

end Kestrel.FrameRouter
