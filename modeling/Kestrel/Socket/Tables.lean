import Kestrel.Socket.Isolation

/-! # The tables of the router

Every address should lead to an active connection, and every active connection should have one
address, the latest that was registered or updated for it. An address update breaks this if it comes
after its connection was removed or takes the address of another one, and so does a registration of
an active connection under another address; nothing else does.
-/

namespace Kestrel

open Std (ExtTreeMap)

namespace FrameRouter

variable {r r' : FrameRouter} {addrHash : SocketAddr → ℕ} {order : List SocketAddr} {now : Instant}
  {isOpen : Bool} {frame : Frame} {remoteAddr : SocketAddr} {op : Op} {cid : ℕ}

/-- Every address leads to an active connection, and every active connection has one address. -/
structure Routed (r : FrameRouter) : Prop where
  active : ∀ (a : SocketAddr) (c : ℕ), r.addressRouting[a]? = some c →
    ∃ m, r.activeConnections[c]? = some m
  address : ∀ (c : ℕ) (m : ConnectionMeta), r.activeConnections[c]? = some m →
    ∃! a : SocketAddr, r.addressRouting[a]? = some c

/-- A connection is registered when it is not active, or again where it is; a new address is for an
active connection and is not that of another one. -/
def Orderly (r : FrameRouter) : Op → Prop
  | .register _ _ _ cid remoteAddr _ => r.connectionExists cid = true →
      r.addressRouting[remoteAddr]? = some cid
  | .updateAddr _ cid newAddr => r.connectionExists cid = true ∧
      ∀ c ∈ r.addressRouting[newAddr]?, c = cid
  | _ => True

instance : DecidablePred r.Orderly
  | .register .. => inferInstanceAs (Decidable (_ → _))
  | .updateAddr .. => inferInstanceAs (Decidable (_ ∧ _))
  | .remove .. | .dispatch .. | .cleanupDraining _ | .cleanupExpired .. => .isTrue trivial

theorem connectionExists_iff :
    r.connectionExists cid = true ↔ ∃ m, r.activeConnections[cid]? = some m := by
  rw [connectionExists, ExtTreeMap.contains_eq_isSome_getElem?, Option.isSome_iff_exists]

theorem Routed.unique (h : Routed r) {a b : SocketAddr} {c : ℕ}
    (ha : r.addressRouting[a]? = some c) (hb : r.addressRouting[b]? = some c) : a = b := by
  obtain ⟨m, hm⟩ := h.active a c ha
  exact (h.address c m hm).unique ha hb

theorem Routed.congr (h : Routed r) (ha : r'.activeConnections = r.activeConnections)
    (hr : r'.addressRouting = r.addressRouting) : Routed r' where
  active a c hac := by
    rw [ha]
    exact h.active a c (hr ▸ hac)
  address c m hm := by
    rw [hr]
    exact h.address c m (ha ▸ hm)

theorem addressRouting_forgetAddress (ho : r.Enumerates order)
    (hu : ∀ a b : SocketAddr, r.addressRouting[a]? = some cid → r.addressRouting[b]? = some cid →
      a = b) (a : SocketAddr) :
    (r.forgetAddress order cid).addressRouting[a]? =
      if r.addressRouting[a]? = some cid then none else r.addressRouting[a]? := by
  unfold forgetAddress
  cases hf : r.findAddress order cid with
  | some b =>
    rw [findAddress] at hf
    have hb : r.addressRouting[b]? = some cid := by simpa using List.find?_some hf
    dsimp only
    rw [SortedMap.getElem?_erase]
    by_cases hab : b = a
    · subst hab
      rw [if_pos rfl, if_pos hb]
    · rw [if_neg hab, if_neg]
      intro ha
      exact hab (hu b a hb ha)
  | none =>
    rw [if_neg]
    intro ha
    have hmem : a ∈ order := by
      rw [ho.mem_iff]
      exact SortedMap.mem_keys.mpr ⟨cid, ha⟩
    rw [findAddress] at hf
    have hn := List.find?_eq_none.mp hf a hmem
    exact hn (decide_eq_true ha)

theorem activeConnections_forgetAddress :
    (r.forgetAddress order cid).activeConnections = r.activeConnections := by
  unfold forgetAddress
  split <;> rfl

theorem Routed.remove_tables (h : Routed r) (ho : r.Enumerates order) (now : Instant) (cid : ℕ) :
    (∀ c : ℕ, (r.removeConnectionByCid order now cid).activeConnections[c]? =
        if cid = c then none else r.activeConnections[c]?) ∧
      ∀ a : SocketAddr, (r.removeConnectionByCid order now cid).addressRouting[a]? =
        if r.addressRouting[a]? = some cid then none else r.addressRouting[a]? := by
  unfold removeConnectionByCid
  split
  · constructor
    · intro c
      dsimp only
      rw [activeConnections_forgetAddress]
      exact SortedMap.getElem?_erase ..
    · exact addressRouting_forgetAddress
        (r := { r with activeConnections := r.activeConnections.erase cid }) ho
        fun a b ha hb => h.unique ha hb
  · rename_i hn
    have hnone (m : ConnectionMeta) : r.activeConnections[cid]? ≠ some m := by
      intro hm
      exact hn (connectionExists_iff.mpr ⟨m, hm⟩)
    constructor
    · intro c
      split
      · subst c
        exact Option.eq_none_iff_forall_ne_some.mpr hnone
      · rfl
    · intro a
      rw [if_neg]
      intro ha
      obtain ⟨m, hm⟩ := h.active a cid ha
      exact hnone m hm

theorem Routed.removeConnectionByCid (h : Routed r) (ho : r.Enumerates order) (now : Instant)
    (cid : ℕ) : Routed (r.removeConnectionByCid order now cid) := by
  obtain ⟨hact, hroute⟩ := h.remove_tables ho now cid
  constructor
  · intro a c hac
    rw [hroute] at hac
    split at hac
    · cases hac
    · rename_i hne
      obtain ⟨m, hm⟩ := h.active a c hac
      refine ⟨m, ?_⟩
      rw [hact, if_neg, hm]
      rintro rfl
      exact hne hac
  · intro c m hm
    rw [hact] at hm
    split at hm
    · cases hm
    · rename_i hne
      obtain ⟨a, ha, hu⟩ := h.address c m hm
      have hac : r.addressRouting[a]? ≠ some cid := by
        intro hac
        rw [ha] at hac
        exact hne (Option.some.inj hac).symm
      refine ⟨a, ?_, ?_⟩
      · dsimp only
        rw [hroute, if_neg hac]
        exact ha
      · intro b hb
        rw [hroute] at hb
        split at hb
        · cases hb
        · exact hu b hb

/-- An address update keeps the tables exactly if it is for an active connection and does not take
the address of another one. -/
theorem Routed.updateConnectionAddress_iff (h : Routed r) (ho : r.Enumerates order) (cid : ℕ)
    (newAddr : SocketAddr) : Routed (r.updateConnectionAddress order cid newAddr) ↔
      r.Orderly (.updateAddr order cid newAddr) := by
  have hact : (r.updateConnectionAddress order cid newAddr).activeConnections =
      r.activeConnections := activeConnections_forgetAddress
  have hroute (a : SocketAddr) :
      (r.updateConnectionAddress order cid newAddr).addressRouting[a]? =
        if newAddr = a then some cid
        else if r.addressRouting[a]? = some cid then none else r.addressRouting[a]? := by
    unfold updateConnectionAddress
    dsimp only
    rw [SortedMap.getElem?_insert, addressRouting_forgetAddress ho fun a b => h.unique]
  constructor
  · intro h'
    constructor
    · rw [connectionExists_iff, ← hact]
      exact h'.active newAddr cid (by rw [hroute, if_pos rfl])
    · intro c hc
      by_contra hne
      -- the other connection has no address left
      obtain ⟨m, hm⟩ := h.active newAddr c hc
      obtain ⟨a, ha, -⟩ := h'.address c m (by rw [hact, hm])
      rw [hroute] at ha
      split at ha
      · exact hne (Option.some.inj ha).symm
      · rename_i hna
        split at ha
        · cases ha
        · exact hna (h.unique hc ha)
  · rintro ⟨hex, hfree⟩
    constructor
    · intro a c hac
      rw [hact]
      rw [hroute] at hac
      split at hac
      · cases hac
        exact connectionExists_iff.mp hex
      · split at hac
        · cases hac
        · exact h.active a c hac
    · intro c m hm
      rw [hact] at hm
      by_cases hc : c = cid
      · subst hc
        refine ⟨newAddr, ?_, ?_⟩
        · dsimp only
          rw [hroute, if_pos rfl]
        · intro b hb
          rw [hroute] at hb
          split at hb
          · exact (‹newAddr = b›).symm
          · split at hb
            · cases hb
            · exact absurd hb ‹_›
      · obtain ⟨a, ha, hu⟩ := h.address c m hm
        have hna : newAddr ≠ a := by
          rintro rfl
          exact hc (hfree c ha)
        refine ⟨a, ?_, ?_⟩
        · dsimp only at ha ⊢
          rw [hroute, if_neg hna, if_neg, ha]
          rw [ha]
          exact fun he => hc (Option.some.inj he)
        · intro b hb
          rw [hroute] at hb
          split at hb
          · exact absurd (Option.some.inj hb).symm hc
          · split at hb
            · cases hb
            · exact hu b hb

theorem forwardKey_tables (cid : ℕ) (m : ConnectionMeta) (remoteAddr : SocketAddr)
    (sends key : ℕ) :
    (r.forwardKey cid m remoteAddr sends key).2.activeConnections = r.activeConnections ∧
      (r.forwardKey cid m remoteAddr sends key).2.addressRouting = r.addressRouting := by
  unfold forwardKey
  split <;> exact ⟨rfl, rfl⟩

theorem forwardCachedFrames_tables (addrHash : SocketAddr → ℕ) (sends cid : ℕ)
    (remoteAddr : SocketAddr) :
    (r.forwardCachedFrames addrHash sends cid remoteAddr).activeConnections =
        r.activeConnections ∧
      (r.forwardCachedFrames addrHash sends cid remoteAddr).addressRouting = r.addressRouting := by
  unfold forwardCachedFrames
  split
  · rename_i m _
    split
    rename_i sends' r' heq
    have hfirst : r'.activeConnections = r.activeConnections ∧
        r'.addressRouting = r.addressRouting := by
      split at heq
      · have hk := forwardKey_tables (r := r) cid m remoteAddr sends cid
        rw [heq] at hk
        exact hk
      · cases heq
        exact ⟨rfl, rfl⟩
    obtain ⟨ha, hr⟩ := forwardKey_tables (r := r') cid m remoteAddr sends'
      (getCacheKey addrHash 0 remoteAddr)
    exact ⟨ha.trans hfirst.1, hr.trans hfirst.2⟩
  · exact ⟨rfl, rfl⟩

/-- What a registration does to the tables, once the connection that had the address is gone. -/
theorem Routed.registerConnection_tables (h : Routed r) (addrHash : SocketAddr → ℕ)
    (ho : r.Enumerates order) (now : Instant) (sends cid : ℕ) (remoteAddr : SocketAddr)
    (m : ConnectionMeta) :
    ∃ r₀ : FrameRouter, Routed r₀ ∧
      (∀ (a : SocketAddr) (c : ℕ), r₀.addressRouting[a]? = some c →
        r.addressRouting[a]? = some c) ∧
      (∀ c, r₀.addressRouting[remoteAddr]? = some c → c = cid) ∧
      (∀ a : SocketAddr, r₀.addressRouting[a]? = some cid ↔ r.addressRouting[a]? = some cid) ∧
      (r.registerConnection addrHash order now sends cid remoteAddr m).activeConnections =
        r₀.activeConnections.insert cid m ∧
      (r.registerConnection addrHash order now sends cid remoteAddr m).addressRouting =
        r₀.addressRouting.insert remoteAddr cid := by
  unfold registerConnection
  cases hold : r.addressRouting[remoteAddr]? with
  | none =>
    refine ⟨r, h, fun a c => id, ?_, fun a => Iff.rfl, forwardCachedFrames_tables ..⟩
    intro c hc
    rw [hold] at hc
    cases hc
  | some oldCid =>
    dsimp only
    by_cases hne : oldCid = cid
    · rw [if_neg (not_not.mpr hne)]
      refine ⟨r, h, fun a c => id, ?_, fun a => Iff.rfl, forwardCachedFrames_tables ..⟩
      intro c hc
      rw [hold] at hc
      cases hc
      exact hne
    · rw [if_pos hne]
      obtain ⟨-, hroute⟩ := h.remove_tables ho now oldCid
      refine ⟨_, h.removeConnectionByCid ho now oldCid, ?_, ?_, ?_, forwardCachedFrames_tables ..⟩
      · intro a c hac
        rw [hroute] at hac
        split at hac
        · cases hac
        · exact hac
      · intro c hc
        rw [hroute, if_pos hold] at hc
        cases hc
      · intro a
        rw [hroute]
        split
        · rename_i ha
          rw [ha, Option.some.injEq]
          exact iff_of_false (Option.some_ne_none cid ∘ Eq.symm) hne
        · rfl

/-- A registration keeps the tables exactly if its connection is not active under another
address. -/
theorem Routed.registerConnection_iff (h : Routed r) (addrHash : SocketAddr → ℕ)
    (ho : r.Enumerates order) (now : Instant) (sends cid : ℕ) (remoteAddr : SocketAddr)
    (m : ConnectionMeta) : Routed (r.registerConnection addrHash order now sends cid remoteAddr m) ↔
      r.Orderly (.register order now sends cid remoteAddr m) := by
  obtain ⟨r₀, h₀, -, hfree, hcid, hact, hroute⟩ :=
    h.registerConnection_tables addrHash ho now sends cid remoteAddr m
  have hget (a : SocketAddr) :
      (r.registerConnection addrHash order now sends cid remoteAddr m).addressRouting[a]? =
        if remoteAddr = a then some cid else r₀.addressRouting[a]? := by
    rw [hroute, SortedMap.getElem?_insert]
  have hmeta (c : ℕ) :
      (r.registerConnection addrHash order now sends cid remoteAddr m).activeConnections[c]? =
        if cid = c then some m else r₀.activeConnections[c]? := by
    rw [hact, SortedMap.getElem?_insert]
  constructor
  · intro h' hex
    obtain ⟨m', hm'⟩ := connectionExists_iff.mp hex
    obtain ⟨a, ha, -⟩ := h.address cid m' hm'
    -- the address that it had is still there
    have hsame : remoteAddr = a := by
      by_contra hne
      apply hne
      refine h'.unique (c := cid) ?_ ?_
      · rw [hget, if_pos rfl]
      · rw [hget, if_neg hne, hcid]
        exact ha
    rw [hsame]
    exact ha
  · intro hfresh
    constructor
    · intro a c hac
      rw [hget] at hac
      rw [hmeta]
      split at hac
      · cases hac
        exact ⟨m, if_pos rfl⟩
      · split
        · exact ⟨m, rfl⟩
        · exact h₀.active a c hac
    · intro c m' hm'
      rw [hmeta] at hm'
      split at hm'
      · subst c
        refine ⟨remoteAddr, ?_, ?_⟩
        · dsimp only
          rw [hget, if_pos rfl]
        · intro b hb
          rw [hget] at hb
          split at hb
          · exact (‹remoteAddr = b›).symm
          · have hb' := (hcid b).mp hb
            exact h.unique hb' (hfresh (connectionExists_iff.mpr (h.active b cid hb')))
      · rename_i hne
        obtain ⟨a, ha, hu⟩ := h₀.address c m' hm'
        have hna : remoteAddr ≠ a := by
          rintro rfl
          exact hne (hfree c ha).symm
        refine ⟨a, ?_, ?_⟩
        · dsimp only
          rw [hget, if_neg hna]
          exact ha
        · intro b hb
          rw [hget] at hb
          split at hb
          · exact absurd (Option.some.inj hb) hne
          · exact hu b hb

theorem dispatchUnroutable_tables :
    (r.dispatchUnroutable addrHash now frame remoteAddr).2.activeConnections =
        r.activeConnections ∧
      (r.dispatchUnroutable addrHash now frame remoteAddr).2.addressRouting = r.addressRouting := by
  unfold dispatchUnroutable
  split
  · exact ⟨rfl, rfl⟩
  · split <;> exact ⟨rfl, rfl⟩

/-- A dispatch removes a connection whose endpoint is gone or leaves the tables as they are; a
stale address is not found. -/
theorem Routed.dispatchFrame (h : Routed r) (addrHash : SocketAddr → ℕ) (order : List SocketAddr)
    (now : Instant) (isOpen : Bool) (frame : Frame) (remoteAddr : SocketAddr) :
    ∃ r₀ : FrameRouter, (r₀ = r ∨ ∃ c, r₀ = r.removeConnectionByCid order now c) ∧
      (r.dispatchFrame addrHash order now isOpen frame remoteAddr).2.activeConnections =
        r₀.activeConnections ∧
      (r.dispatchFrame addrHash order now isOpen frame remoteAddr).2.addressRouting =
        r₀.addressRouting := by
  have hsend (c : ℕ) (m : ConnectionMeta) : ∃ r₀ : FrameRouter,
      (r₀ = r ∨ ∃ c, r₀ = r.removeConnectionByCid order now c) ∧
      (r.sendOrRemove order now isOpen c m frame remoteAddr).2.activeConnections =
        r₀.activeConnections ∧
      (r.sendOrRemove order now isOpen c m frame remoteAddr).2.addressRouting =
        r₀.addressRouting := by
    unfold sendOrRemove
    split
    · exact ⟨r, Or.inl rfl, rfl, rfl⟩
    · exact ⟨_, Or.inr ⟨c, rfl⟩, rfl, rfl⟩
  have haddr : ∃ r₀ : FrameRouter, (r₀ = r ∨ ∃ c, r₀ = r.removeConnectionByCid order now c) ∧
      (r.dispatchByAddress addrHash order now isOpen frame remoteAddr).2.activeConnections =
        r₀.activeConnections ∧
      (r.dispatchByAddress addrHash order now isOpen frame remoteAddr).2.addressRouting =
        r₀.addressRouting := by
    unfold dispatchByAddress
    cases ha : r.addressRouting[remoteAddr]? with
    | none => exact ⟨r, Or.inl rfl, dispatchUnroutable_tables⟩
    | some c =>
      obtain ⟨m, hm⟩ := h.active remoteAddr c ha
      dsimp only
      rw [hm]
      exact hsend c m
  unfold FrameRouter.dispatchFrame
  split
  · split
    · exact hsend _ _
    · exact haddr
  · exact haddr

end FrameRouter

/-- A router with the address that was last registered or updated for each connection. -/
structure RouterRun where
  router : FrameRouter
  latest : ℕ → Option SocketAddr

namespace RouterRun

open FrameRouter

variable {x x' : RouterRun} {addrHash : SocketAddr → ℕ} {op : Op}

/-- The addresses that an operation is about. -/
def note (latest : ℕ → Option SocketAddr) : Op → ℕ → Option SocketAddr
  | .register _ _ _ cid addr _ | .updateAddr _ cid addr => Function.update latest cid (some addr)
  | _ => latest

def next (addrHash : SocketAddr → ℕ) (x : RouterRun) (op : Op) : Option RouterRun :=
  (x.router.next addrHash op).map fun router => ⟨router, note x.latest op⟩

def system (addrHash : SocketAddr → ℕ) : TransitionSystem RouterRun Op :=
  .ofNext (fun x => ∃ timeout, x = ⟨.new (.new timeout), fun _ => none⟩) (next addrHash)

/-- The tables agree, and the address of each connection is the latest. -/
structure TablesAgree (x : RouterRun) : Prop where
  routed : Routed x.router
  latest_eq : ∀ (a : SocketAddr) (c : ℕ), x.router.addressRouting[a]? = some c →
    x.latest c = some a

theorem TablesAgree.shrink (h : TablesAgree x) {r : FrameRouter} (hr : Routed r)
    (hsub : ∀ (a : SocketAddr) (c : ℕ), r.addressRouting[a]? = some c →
      x.router.addressRouting[a]? = some c) : TablesAgree ⟨r, x.latest⟩ :=
  ⟨hr, fun a c hac => h.latest_eq a c (hsub a c hac)⟩

theorem TablesAgree.grow (h : TablesAgree x) {r : FrameRouter} {cid : ℕ} {addr : SocketAddr}
    (hr : Routed r) (haddr : r.addressRouting[addr]? = some cid)
    (hsub : ∀ (a : SocketAddr) (c : ℕ), addr ≠ a → r.addressRouting[a]? = some c →
      x.router.addressRouting[a]? = some c) :
    TablesAgree ⟨r, Function.update x.latest cid (some addr)⟩ where
  routed := hr
  latest_eq a c hac := by
    dsimp only at hac ⊢
    by_cases ha : addr = a
    · subst ha
      rw [haddr] at hac
      cases hac
      exact Function.update_self ..
    · have hne : c ≠ cid := by
        rintro rfl
        exact ha (hr.unique haddr hac)
      rw [Function.update_of_ne hne]
      exact h.latest_eq a c (hsub a c ha hac)

/-- A step keeps the tables in agreement exactly if it is orderly. -/
theorem tablesAgree_step_iff (h : TablesAgree x) (hs : x.next addrHash op = some x') :
    TablesAgree x' ↔ x.router.Orderly op := by
  obtain ⟨r', hr', rfl⟩ := Option.map_eq_some_iff.mp hs
  cases op with
  | register order now sends cid addr m =>
    obtain ⟨⟨ho, -⟩, he⟩ := Option.ite_none_right_eq_some.mp hr'
    cases he
    have hiff := h.routed.registerConnection_iff addrHash ho now sends cid addr m
    refine ⟨fun h' => hiff.mp h'.routed, fun hop => ?_⟩
    obtain ⟨r₀, -, hsub, -, -, -, hroute⟩ :=
      h.routed.registerConnection_tables addrHash ho now sends cid addr m
    apply h.grow (hiff.mpr hop)
    · rw [hroute, SortedMap.getElem?_insert, if_pos rfl]
    · intro a c hne hac
      rw [hroute, SortedMap.getElem?_insert, if_neg hne] at hac
      exact hsub a c hac
  | updateAddr order cid addr =>
    obtain ⟨ho, he⟩ := Option.ite_none_right_eq_some.mp hr'
    cases he
    have hiff := h.routed.updateConnectionAddress_iff ho cid addr
    refine ⟨fun h' => hiff.mp h'.routed, fun hop => ?_⟩
    apply h.grow (hiff.mpr hop)
    · rw [updateConnectionAddress, SortedMap.getElem?_insert, if_pos rfl]
    · intro a c hne hac
      rw [updateConnectionAddress, SortedMap.getElem?_insert, if_neg hne,
        addressRouting_forgetAddress ho fun a b => h.routed.unique] at hac
      split at hac
      · cases hac
      · exact hac
  | remove order now cid =>
    obtain ⟨ho, he⟩ := Option.ite_none_right_eq_some.mp hr'
    cases he
    refine iff_of_true (h.shrink (h.routed.removeConnectionByCid ho now cid) ?_) trivial
    intro a c hac
    rw [(h.routed.remove_tables ho now cid).2] at hac
    split at hac
    · cases hac
    · exact hac
  | dispatch order now isOpen frame addr =>
    obtain ⟨⟨ho, -⟩, he⟩ := Option.ite_none_right_eq_some.mp hr'
    cases he
    obtain ⟨r₀, hr₀, hact, hroute⟩ :=
      h.routed.dispatchFrame addrHash order now isOpen frame addr
    have hkeep : Routed r₀ ∧ ∀ (a : SocketAddr) (c : ℕ), r₀.addressRouting[a]? = some c →
        x.router.addressRouting[a]? = some c := by
      rcases hr₀ with rfl | ⟨cid, rfl⟩
      · exact ⟨h.routed, fun a c => id⟩
      · refine ⟨h.routed.removeConnectionByCid ho now cid, ?_⟩
        intro a c hac
        rw [(h.routed.remove_tables ho now cid).2] at hac
        split at hac
        · cases hac
        · exact hac
    refine iff_of_true (h.shrink (hkeep.1.congr hact hroute) ?_) trivial
    intro a c hac
    rw [hroute] at hac
    exact hkeep.2 a c hac
  | cleanupDraining now =>
    cases hr'
    exact iff_of_true (h.shrink (h.routed.congr rfl rfl) fun a c => id) trivial
  | cleanupExpired now maxAge =>
    cases hr'
    exact iff_of_true (h.shrink (h.routed.congr rfl rfl) fun a c => id) trivial

/-- In every run of orderly steps the tables agree, and a step from tables that agree keeps them so
exactly if it is orderly. -/
theorem routes_agree (addrHash : SocketAddr → ℕ) :
    (∀ x, ((system addrHash).restrict fun x op _ => x.router.Orderly op).Reachable x →
      TablesAgree x) ∧
    ∀ x op x', TablesAgree x → x.next addrHash op = some x' →
      (TablesAgree x' ↔ x.router.Orderly op) := by
  refine ⟨?_, fun x op x' h hs => tablesAgree_step_iff h hs⟩
  have hinv : ((system addrHash).restrict fun x op _ => x.router.Orderly op).Invariant
      TablesAgree :=
    { init := by
        rintro x ⟨timeout, rfl⟩
        refine ⟨⟨?_, ?_⟩, ?_⟩
        · intro a c hac
          simp [FrameRouter.new] at hac
        · intro c m hm
          simp [FrameRouter.new] at hm
        · intro a c hac
          simp [FrameRouter.new] at hac
      step := fun x op x' _ hx hs => (tablesAgree_step_iff hx hs.1).mpr hs.2 }
  exact fun x hx => hinv.holds hx

section Sample

/-- A connection moves, and its old address is taken by another one. -/
theorem routes_agree_sample : ∃ x : RouterRun,
    (x.latest 1 = some 90 ∧ x.router.addressRouting[80]? = some 2) ∧ TablesAgree x := by
  obtain ⟨x, hx, hp⟩ : ∃ x, ((system id).restrict fun x op _ => x.router.Orderly op).Run
      [.register [] 0 10 1 80 ⟨0⟩, .updateAddr [80] 1 90, .register [90] 1 10 2 80 ⟨1⟩] x ∧
      (x.latest 1 = some 90 ∧ x.router.addressRouting[80]? = some 2) :=
    TransitionSystem.exists_restrict_run_of_foldlM _ ⟨3, rfl⟩ (by decide)
  exact ⟨x, hp, (routes_agree id).1 x hx.reachable⟩

/-- An update that comes after its connection was removed leaves a route to nowhere. -/
theorem late_update_dangles : ∃ x : RouterRun, (system id).Reachable x ∧ ¬ TablesAgree x := by
  obtain ⟨x, hx, hroute, hgone⟩ : ∃ x, (system id).Run
      [.register [] 0 10 1 80 ⟨0⟩, .remove [80] 5 1, .updateAddr [] 1 90] x ∧
      x.router.addressRouting[90]? = some 1 ∧ x.router.activeConnections[1]? = none :=
    TransitionSystem.exists_run_of_foldlM _ ⟨3, rfl⟩ (by decide)
  refine ⟨x, hx.reachable, ?_⟩
  intro h
  obtain ⟨m, hm⟩ := h.routed.active 90 1 hroute
  rw [hgone] at hm
  cases hm

end Sample

end RouterRun

end Kestrel
