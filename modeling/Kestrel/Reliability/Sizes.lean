import Kestrel.Lib.Packing
import Kestrel.Reliability.Packetizer
import Kestrel.Reliability.ReceiveBuffer
import Kestrel.Reliability.RetransmissionManager

/-! # Sizes

How long the frames of a connection are on the wire. Packets that are filled frame by frame stay
within their limit when every frame alone does; an ACK has eight bytes for each stretch of
consecutive numbers that is buffered.
-/

namespace Kestrel

def totalSize (fs : List Frame) : ℕ := (fs.map Frame.encodedSize).sum

@[simp] theorem totalSize_singleton (f : Frame) : totalSize [f] = f.encodedSize := by
  simp [totalSize]

@[simp] theorem totalSize_append (fs gs : List Frame) :
    totalSize (fs ++ gs) = totalSize fs + totalSize gs := by
  simp [totalSize]

/-- The size of a PUSH frame with a payload of the given length. -/
def pushSize (n : ℕ) : ℕ := 1 + ShortHeader.encodedSize + n

/-- The size of an ACK frame with the given number of ranges. -/
def ackSize (n : ℕ) : ℕ := 1 + ShortHeader.encodedSize + 8 * n

/-- The largest datagram can hold the largest PUSH frame. -/
def Config.AdmitsPush (config : Config) : Prop :=
  pushSize config.connection.maxPayloadSize ≤ config.connection.maxPacketSize

instance (config : Config) : Decidable config.AdmitsPush :=
  inferInstanceAs (Decidable (pushSize _ ≤ _))

namespace Frame

@[simp] theorem encodedSize_newPush (c q n w t : ℕ) (p : Bytes) :
    (newPush c q n w t p).encodedSize = pushSize p.length := rfl

@[simp] theorem encodedSize_newAck (c n w : ℕ) (rs : List SackRange) (t : ℕ) :
    (newAck c n w rs t).encodedSize = ackSize rs.length := by
  simp [newAck, encodedSize, ackSize]

theorem encodedSize_newFin_le (c q t n w k : ℕ) :
    (newFin c q t n w).encodedSize ≤ pushSize k := Nat.le_add_right _ k

theorem encodedSize_newSynAck_le (v s d k : ℕ) :
    (newSynAck v s d).encodedSize ≤ pushSize k := by
  change 10 ≤ 21 + k
  omega

end Frame

theorem encodedSize_le_of_mem_pushFrames {c : PacketizerContext} {counter : ℕ}
    {chunks : List Bytes} (h : ∀ p ∈ chunks, p.length ≤ c.maxPayloadSize) {f : Frame}
    (hf : f ∈ pushFrames c counter chunks) : f.encodedSize ≤ pushSize c.maxPayloadSize := by
  obtain ⟨n, p, hp, rfl⟩ := mem_pushFrames.mp hf
  have hlen := h p (List.mem_of_getElem? hp)
  rw [PacketizerContext.frame, Frame.encodedSize_newPush, pushSize, pushSize]
  omega

section Filling

variable {max : ℕ} {current fs : List Frame}

/-- Datagrams are filled greedily by the sizes of the frames. -/
theorem fillPackets_eq (hc : current ≠ []) : fillPackets max current (totalSize current) fs =
    Packing.fill Frame.encodedSize max current fs := by
  induction fs generalizing current with
  | nil => simp [fillPackets, Packing.fill, hc]
  | cons f fs ih =>
    rw [fillPackets, Packing.fill, ← totalSize_singleton f, ← totalSize_append, ih (by simp),
      ih (by simp)]
    simp [totalSize, Packing.total]

/-- Filling keeps to the limit if every frame alone does. -/
theorem totalSize_le_of_mem_fillPackets (hc : totalSize current ≤ max)
    (hfs : ∀ f ∈ fs, f.encodedSize ≤ max) {p : List Frame}
    (hp : p ∈ fillPackets max current (totalSize current) fs) : totalSize p ≤ max := by
  induction fs generalizing current with
  | nil =>
    rw [fillPackets] at hp
    split at hp
    · cases hp
    · rw [List.mem_singleton.mp hp]
      exact hc
  | cons f fs ih =>
    have hf := hfs f List.mem_cons_self
    have hrest : ∀ g ∈ fs, g.encodedSize ≤ max := fun g hg => hfs g (List.mem_cons_of_mem _ hg)
    rw [fillPackets] at hp
    split at hp
    · rename_i hle
      have hnew : totalSize (current ++ [f]) = totalSize current + f.encodedSize := by simp
      rw [← hnew] at hle hp
      exact ih hle hrest hp
    · rcases List.mem_cons.mp hp with rfl | hp
      · exact hc
      · rw [← totalSize_singleton f] at hp
        exact ih (by simpa using hf) hrest hp

theorem totalSize_le_of_mem_zeroRttPackets {s : Frame} {packets : List (List Frame)}
    (h : zeroRttPackets s max fs = some packets) (hs : s.encodedSize ≤ max)
    (hfs : ∀ f ∈ fs, f.encodedSize ≤ max) {p : List Frame} (hp : p ∈ packets) :
    totalSize p ≤ max := by
  have hs' : totalSize [s] ≤ max := by simpa using hs
  unfold zeroRttPackets at h
  split at h
  · cases h
    rw [List.mem_singleton.mp hp]
    exact hs'
  · cases h
    rw [← totalSize_singleton s] at hp
    exact totalSize_le_of_mem_fillPackets hs' hfs hp

end Filling

/-- What is kept of a PUSH frame with a payload of limited length, or of a FIN. -/
def RetransmissionFrameInfo.Small (max : ℕ) (i : RetransmissionFrameInfo) : Prop :=
  i.frameType = .push ∧ i.payload.length ≤ max ∨ i.frameType = .fin

theorem RetransmissionFrameInfo.Small.encodedSize_le {max : ℕ} {i : RetransmissionFrameInfo}
    (h : i.Small max) (c : RetransmissionContext) (now : Instant) :
    (i.reconstructFrame c now).encodedSize ≤ pushSize max := by
  unfold reconstructFrame
  rcases h with ⟨ht, hlen⟩ | ht
  · rw [ht]
    simp only [Frame.encodedSize_newPush, pushSize]
    omega
  · rw [ht]
    exact Frame.encodedSize_newFin_le ..

theorem small_of_mem_pushFrames {c : PacketizerContext} {counter : ℕ} {chunks : List Bytes}
    (h : ∀ p ∈ chunks, p.length ≤ c.maxPayloadSize) {f : Frame}
    (hf : f ∈ pushFrames c counter chunks) {i : RetransmissionFrameInfo}
    (hi : RetransmissionFrameInfo.fromFrame f = some i) : i.Small c.maxPayloadSize := by
  obtain ⟨n, p, hp, rfl⟩ := mem_pushFrames.mp hf
  cases hi
  exact Or.inl ⟨rfl, h p (List.mem_of_getElem? hp)⟩

/-- The number of stretches of consecutive numbers in a list: of those whose predecessor is not in
the list. -/
def stretches (qs : List ℕ) : ℕ := (qs.filter fun q => ∀ p ∈ qs, p < q → nextSeq p ≠ q).length

namespace ReceiveBuffer

theorem length_sackRangesOf_some (before : List ℕ) {ks : List ℕ} {r : SackRange}
    (hs : (before ++ r.end :: ks).Pairwise (· < ·)) :
    (sackRangesOf (some r) ks).length = 1 + (ks.filter fun q =>
      ∀ p ∈ before ++ r.end :: ks, p < q → nextSeq p ≠ q).length := by
  induction ks generalizing before r with
  | nil => rfl
  | cons k ks ih =>
    have hassoc (a : ℕ) : before ++ r.end :: a :: ks = (before ++ [r.end]) ++ a :: ks := by simp
    have hb : ∀ p ∈ before, p < r.end := fun p hp =>
      (List.pairwise_append.mp hs).2.2 p hp _ List.mem_cons_self
    have hk := List.pairwise_cons.mp (List.pairwise_append.mp hs).2.1
    have hks := List.pairwise_cons.mp hk.2
    rw [sackRangesOf]
    split
    · rename_i heq
      -- the number goes on with the open range
      have hnot : ¬ ∀ p ∈ before ++ r.end :: k :: ks, p < k → nextSeq p ≠ k := fun h =>
        h r.end (by simp) (hk.1 k List.mem_cons_self) heq.symm
      rw [List.filter_cons_of_neg (by simpa using hnot), hassoc]
      exact ih _ (r := ⟨r.start, k⟩) (hassoc k ▸ hs)
    · rename_i hne
      -- it opens a range of its own
      have hstart : ∀ p ∈ before ++ r.end :: k :: ks, p < k → nextSeq p ≠ k := by
        intro p hp hlt
        rcases List.mem_append.mp hp with hp | hp
        · have hlt := hb p hp
          have hk := hk.1 k List.mem_cons_self
          have hmod : nextSeq p ≤ p + 1 := Nat.mod_le _ _
          omega
        · rcases List.mem_cons.mp hp with rfl | hp
          · exact Ne.symm hne
          · rcases List.mem_cons.mp hp with rfl | hp
            · exact absurd hlt (lt_irrefl _)
            · exact absurd hlt (hks.1 p hp).asymm
      have hrest := ih _ (r := ⟨k, k⟩) (hassoc k ▸ hs)
      rw [List.filter_cons_of_pos (by simpa using hstart), hassoc, List.length_cons, hrest,
        List.length_cons]
      exact Nat.add_assoc 1 _ 1

theorem length_sackRangesOf {ks : List ℕ} (hs : ks.Pairwise (· < ·)) :
    (sackRangesOf none ks).length = stretches ks := by
  cases ks with
  | nil => rfl
  | cons k ks =>
    have hk := List.pairwise_cons.mp hs
    have hstart : ∀ p ∈ k :: ks, p < k → nextSeq p ≠ k := by
      intro p hp hlt
      rcases List.mem_cons.mp hp with rfl | hp
      · exact absurd hlt (lt_irrefl _)
      · exact absurd hlt (hk.1 p hp).asymm
    rw [sackRangesOf, length_sackRangesOf_some [] (r := ⟨k, k⟩) hs, stretches,
      List.filter_cons_of_pos (by simpa using hstart), List.length_cons]
    exact Nat.add_comm _ _

theorem length_getSackRanges (b : ReceiveBuffer) :
    b.getSackRanges.length = stretches b.received.keys :=
  length_sackRangesOf (SortedMap.keys_sorted _)

end ReceiveBuffer

end Kestrel
