import Kestrel.Reliability.Layer

/-! # Ranges

The counters of the reliability layer are machine integers. What the operations keep about them is
enough for each of their additions and subtractions to stay within its type.
-/

namespace SortedMap

open Std (ExtTreeMap)

variable {α β : Type*} [LinearOrder α]

theorem length_takeAll (m : ExtTreeMap α β) (ks : List α) :
    (takeAll m ks).1.length + (takeAll m ks).2.size = m.size := by
  induction ks generalizing m with
  | nil => simp [takeAll]
  | cons k ks ih =>
    rw [takeAll]
    cases hk : m[k]? with
    | none => exact ih m
    | some v =>
      have hmem : m.contains k = true := by
        rw [ExtTreeMap.contains_eq_isSome_getElem?, hk]
        rfl
      have hpos : m.size ≠ 0 := by
        intro hz
        rw [size_eq_zero_iff.mp hz k] at hk
        cases hk
      have hsize : (m.erase k).size = m.size - 1 := by
        rw [ExtTreeMap.size_erase, if_pos hmem]
      have hrec := ih (m.erase k)
      dsimp only
      rw [List.length_cons]
      omega

end SortedMap

namespace Kestrel

open Std (ExtTreeMap)

namespace SackManager

variable {m : SackManager}

/-- No kept packet has been skipped so often that it is due to be sent again. -/
structure InRange (m : SackManager) : Prop where
  threshold_lt : m.fastRetxThreshold < u16Size
  skipped : ∀ (q : ℕ) (p : SackInFlightPacket), m.inFlightPackets[q]? = some p →
    p.fastRetxCount < max 1 m.fastRetxThreshold

theorem InRange.addInFlightPacket (h : m.InRange) (f : Frame) (now : Instant) :
    (m.addInFlightPacket f now).InRange := by
  unfold SackManager.addInFlightPacket
  split
  · refine ⟨h.threshold_lt, ?_⟩
    intro q p hp
    dsimp only at hp ⊢
    rw [SortedMap.getElem?_insert] at hp
    split at hp
    · cases hp
      simp
    · exact h.skipped q p hp
  · exact h

theorem InRange.checkForRto (h : m.InRange) (rto : Duration) (now : Instant)
    (c : RetransmissionContext) : (m.checkForRto rto now c).2.InRange := by
  refine ⟨h.threshold_lt, ?_⟩
  intro q p hp
  simp only [SackManager.checkForRto, ExtTreeMap.getElem?_map, Option.map_eq_some_iff] at hp ⊢
  obtain ⟨p₀, hp₀, rfl⟩ := hp
  have hlt := h.skipped q p₀ hp₀
  split <;> exact hlt

theorem InRange.checkFastRetransmission (h : m.InRange) (acked : List ℕ) (now : Instant)
    (c : RetransmissionContext) : (m.checkFastRetransmission acked now c).2.InRange := by
  unfold SackManager.checkFastRetransmission
  split
  · exact h
  · refine ⟨h.threshold_lt, ?_⟩
    intro q p hp
    simp only [ExtTreeMap.getElem?_map, Option.map_eq_some_iff] at hp ⊢
    obtain ⟨p₀, hp₀, rfl⟩ := hp
    have hlt := h.skipped q p₀ hp₀
    split
    · split
      · simp
      · rename_i hlost
        simp only [ge_iff_le, decide_eq_true_eq, not_le] at hlost
        exact hlost.trans_le (le_max_right _ _)
    · exact hlt

theorem InRange.takeAll (h : m.InRange) (ks : List ℕ) :
    InRange { m with inFlightPackets := (SortedMap.takeAll m.inFlightPackets ks).2 } := by
  refine ⟨h.threshold_lt, ?_⟩
  intro q p hp
  rw [SortedMap.takeAll_snd] at hp
  exact h.skipped q p (SortedMap.eraseAll_eq_some hp).1

/-- The packets left after an acknowledgment has removed those it names. -/
def unnamed (m : SackManager) (recvNextSeq : ℕ) (sackRanges : List SackRange) : SackManager :=
  let rest := (SortedMap.takeAll m.inFlightPackets
    (m.inFlightPackets.keys.takeWhile (· < recvNextSeq))).2
  { m with inFlightPackets := (SortedMap.takeAll rest (sackRanges.flatMap SackRange.seqs)).2 }

theorem InRange.unnamed (h : m.InRange) (n : ℕ) (rs : List SackRange) : (m.unnamed n rs).InRange :=
  (h.takeAll _).takeAll _

theorem processAck_snd (n : ℕ) (rs : List SackRange) (now : Instant) (c : RetransmissionContext) :
    (m.processAck n rs now c).2 = m.unnamed n rs ∨
      ∃ acked, (m.processAck n rs now c).2 =
        ((m.unnamed n rs).checkFastRetransmission acked now c).2 := by
  unfold processAck
  dsimp only
  split
  · exact Or.inl rfl
  · exact Or.inr ⟨_, rfl⟩

theorem InRange.processAck (h : m.InRange) (n : ℕ) (rs : List SackRange) (now : Instant)
    (c : RetransmissionContext) : (m.processAck n rs now c).2.InRange := by
  rcases processAck_snd (m := m) n rs now c with he | ⟨acked, he⟩
  · rw [he]
    exact h.unnamed n rs
  · rw [he]
    exact (h.unnamed n rs).checkFastRetransmission acked now c

theorem inFlightCount_addInFlightPacket_le (f : Frame) (now : Instant) :
    (m.addInFlightPacket f now).inFlightCount ≤ m.inFlightCount + 1 := by
  unfold addInFlightPacket
  split
  · exact ExtTreeMap.size_insert_le
  · exact Nat.le_succ _

@[simp] theorem inFlightCount_checkForRto (rto : Duration) (now : Instant)
    (c : RetransmissionContext) :
    (m.checkForRto rto now c).2.inFlightCount = m.inFlightCount :=
  ExtTreeMap.size_map

@[simp] theorem inFlightCount_checkFastRetransmission (acked : List ℕ) (now : Instant)
    (c : RetransmissionContext) :
    (m.checkFastRetransmission acked now c).2.inFlightCount = m.inFlightCount := by
  unfold checkFastRetransmission
  split
  · rfl
  · exact ExtTreeMap.size_map

@[simp] theorem ackElicitingPacketsCount_addInFlightPacket (f : Frame) (now : Instant) :
    (m.addInFlightPacket f now).ackElicitingPacketsCount = m.ackElicitingPacketsCount := by
  unfold addInFlightPacket
  split <;> rfl

@[simp] theorem ackElicitingPacketsCount_processAck (n : ℕ) (rs : List SackRange) (now : Instant)
    (c : RetransmissionContext) :
    (m.processAck n rs now c).2.ackElicitingPacketsCount = m.ackElicitingPacketsCount := by
  have hfast (m : SackManager) (acked : List ℕ) :
      (m.checkFastRetransmission acked now c).2.ackElicitingPacketsCount =
        m.ackElicitingPacketsCount := by
    unfold checkFastRetransmission
    split <;> rfl
  rcases processAck_snd (m := m) n rs now c with he | ⟨acked, he⟩
  · rw [he]
    rfl
  · rw [he, hfast]
    rfl

theorem inFlightCount_processAck (n : ℕ) (rs : List SackRange) (now : Instant)
    (c : RetransmissionContext) :
    (m.processAck n rs now c).1.rttSamples.length + (m.processAck n rs now c).2.inFlightCount =
      m.inFlightCount := by
  have hcount : (m.processAck n rs now c).2.inFlightCount = (m.unnamed n rs).inFlightCount := by
    rcases processAck_snd (m := m) n rs now c with he | ⟨acked, he⟩
    · rw [he]
    · rw [he, inFlightCount_checkFastRetransmission]
  have h₁ := SortedMap.length_takeAll m.inFlightPackets
    (m.inFlightPackets.keys.takeWhile (· < n))
  have h₂ := SortedMap.length_takeAll (SortedMap.takeAll m.inFlightPackets
    (m.inFlightPackets.keys.takeWhile (· < n))).2 (rs.flatMap SackRange.seqs)
  rw [hcount]
  simp only [processAck, unnamed, inFlightCount, List.length_map, List.length_append]
  omega

end SackManager

namespace SimpleRetransmissionManager

variable {m : SimpleRetransmissionManager}

/-- The retries of every kept packet are counted in 8 bits. -/
def InRange (m : SimpleRetransmissionManager) : Prop :=
  ∀ (q : ℕ) (p : SimpleInFlightPacket), m.inFlightSimple[q]? = some p → p.maxRetries < u8Size

theorem InRange.addPacket (h : m.InRange) (f : Frame) (now : Instant) :
    (m.addPacket f now).InRange := by
  unfold SimpleRetransmissionManager.addPacket
  split
  · rename_i seq n interval i hs hm hi
    intro q p hp
    rw [SortedMap.getElem?_insert] at hp
    split at hp
    · cases hp
      have hn : n = 5 ∨ n = 3 := by
        cases f <;> simp [Frame.reliabilityMode] at hm <;> omega
      change n < u8Size
      rcases hn with rfl | rfl <;> decide
    · exact h q p hp
  · exact h

theorem InRange.eraseAll (h : m.InRange) (ks : List ℕ) :
    InRange ⟨SortedMap.eraseAll m.inFlightSimple ks⟩ := by
  intro q p hp
  exact h q p (SortedMap.eraseAll_eq_some hp).1

theorem InRange.acknowledgeUpTo (h : m.InRange) (n : ℕ) : (m.acknowledgeUpTo n).2.InRange := by
  have hr := h.eraseAll (m.inFlightSimple.keys.takeWhile (· < n))
  rw [← SortedMap.takeAll_snd] at hr
  exact hr

theorem InRange.acknowledgeSackRanges (h : m.InRange) (rs : List SackRange) :
    (m.acknowledgeSackRanges rs).2.InRange := by
  have hr := h.eraseAll (rs.flatMap SackRange.seqs)
  rw [← SortedMap.takeAll_snd] at hr
  exact hr

theorem InRange.checkForRetransmissions (h : m.InRange) (now : Instant)
    (c : RetransmissionContext) : (m.checkForRetransmissions now c).2.InRange := by
  refine InRange.eraseAll (m := ⟨m.inFlightSimple.map _⟩) ?_ _
  intro q p hp
  simp only [ExtTreeMap.getElem?_map, Option.map_eq_some_iff] at hp
  obtain ⟨p₀, hp₀, rfl⟩ := hp
  have hlt := h q p₀ hp₀
  split <;> exact hlt

end SimpleRetransmissionManager

namespace RetransmissionManager

variable {m : RetransmissionManager}

structure InRange (m : RetransmissionManager) : Prop where
  sack : m.sackManager.InRange
  simple : m.simpleRetxManager.InRange

theorem InRange.addInFlightPacket (h : m.InRange) (f : Frame) (now : Instant) :
    (m.addInFlightPacket f now).InRange := by
  unfold RetransmissionManager.addInFlightPacket
  split
  · exact ⟨h.sack.addInFlightPacket f now, h.simple⟩
  · exact ⟨h.sack, h.simple.addPacket f now⟩
  · exact h

theorem InRange.addAll (h : m.InRange) (fs : List Frame) (now : Instant) :
    (m.addAll fs now).InRange := by
  induction fs generalizing m with
  | nil => exact h
  | cons f fs ih => exact ih (h.addInFlightPacket f now)

theorem InRange.processAck (h : m.InRange) (n : ℕ) (rs : List SackRange) (now : Instant)
    (c : RetransmissionContext) : (m.processAck n rs now c).2.InRange :=
  ⟨h.sack.processAck n rs now c, (h.simple.acknowledgeUpTo n).acknowledgeSackRanges rs⟩

theorem InRange.checkForRetransmissions (h : m.InRange) (rto : Duration) (now : Instant)
    (c : RetransmissionContext) : (m.checkForRetransmissions rto now c).2.InRange :=
  ⟨h.sack.checkForRto rto now c, h.simple.checkForRetransmissions now c⟩

theorem InRange.clear (h : m.InRange) : m.clear.InRange where
  sack := ⟨h.sack.threshold_lt, by simp [RetransmissionManager.clear, SackManager.clear]⟩
  simple := by
    intro q p hp
    simp [RetransmissionManager.clear, SimpleRetransmissionManager.clear] at hp

theorem sackInFlightCount_addInFlightPacket_le (f : Frame) (now : Instant) :
    (m.addInFlightPacket f now).sackInFlightCount ≤ m.sackInFlightCount + 1 := by
  unfold addInFlightPacket
  split
  · exact SackManager.inFlightCount_addInFlightPacket_le f now
  · exact Nat.le_succ _
  · exact Nat.le_succ _

theorem sackInFlightCount_addAll_le (fs : List Frame) (now : Instant) :
    (m.addAll fs now).sackInFlightCount ≤ m.sackInFlightCount + fs.length := by
  induction fs generalizing m with
  | nil => exact le_rfl
  | cons f fs ih =>
    have hone := sackInFlightCount_addInFlightPacket_le (m := m) f now
    refine (ih (m := m.addInFlightPacket f now)).trans ?_
    rw [List.length_cons]
    omega

@[simp] theorem ackElicitingPacketsCount_addInFlightPacket (f : Frame) (now : Instant) :
    (m.addInFlightPacket f now).sackManager.ackElicitingPacketsCount =
      m.sackManager.ackElicitingPacketsCount := by
  unfold addInFlightPacket
  split
  · exact SackManager.ackElicitingPacketsCount_addInFlightPacket f now
  · rfl
  · rfl

@[simp] theorem ackElicitingPacketsCount_addAll (fs : List Frame) (now : Instant) :
    (m.addAll fs now).sackManager.ackElicitingPacketsCount =
      m.sackManager.ackElicitingPacketsCount := by
  induction fs generalizing m with
  | nil => rfl
  | cons f fs ih =>
    exact (ih (m := m.addInFlightPacket f now)).trans
      (ackElicitingPacketsCount_addInFlightPacket f now)

end RetransmissionManager

namespace Vegas

variable {v : Vegas}

/-- The window can grow by one, and shrink by one where it may. -/
def OnAckFits (v : Vegas) : Prop :=
  v.congestionWindow + 1 < u32Size ∧ (v.state = .congestionAvoidance → 0 < v.congestionWindow)

/-- Every change of the window that samples lead to fits. -/
def SamplesFit (v : Vegas) : List Duration → Prop
  | [] => True
  | s :: ss => v.OnAckFits ∧ (v.onAck s).SamplesFit ss

/-- The window, or the least one that a loss can leave. -/
def reach (v : Vegas) : ℕ := max v.congestionWindow v.config.congestionControl.minCwndPackets

/-- The parameters with which the window never vanishes, and never grows by a loss. -/
structure InRange (v : Vegas) : Prop where
  min_pos : 0 < v.config.congestionControl.minCwndPackets
  factor_le : v.config.congestionControl.vegasGentleDecreaseFactor ≤ 1
  avoiding : v.state = .congestionAvoidance → 0 < v.congestionWindow

theorem congestionWindow_le_reach : v.congestionWindow ≤ v.reach := le_max_left _ _

theorem InRange.onAck (h : v.InRange) (hr : v.reach + 1 < u32Size) (s : Duration) :
    (v.onAck s).InRange ∧ (v.onAck s).reach ≤ v.reach + 1 := by
  have hle := congestionWindow_le_reach (v := v)
  have hinc : (v.congestionWindow + 1) % u32Size = v.congestionWindow + 1 :=
    Nat.mod_eq_of_lt (by omega)
  unfold Vegas.onAck
  dsimp only
  cases hs : v.state with
  | slowStart =>
    dsimp only
    rw [hinc]
    refine ⟨⟨h.min_pos, h.factor_le, fun _ => Nat.succ_pos _⟩, ?_⟩
    simp only [reach]
    omega
  | congestionAvoidance =>
    have hpos := h.avoiding hs
    have hdec : (v.congestionWindow + (u32Size - 1)) % u32Size = v.congestionWindow - 1 := by
      have hsum : v.congestionWindow + (u32Size - 1) = v.congestionWindow - 1 + u32Size := by
        simp only [u32Size]
        omega
      rw [hsum, Nat.add_mod_right, Nat.mod_eq_of_lt (by omega)]
    dsimp only
    split
    · refine ⟨⟨h.min_pos, h.factor_le, fun _ => hpos⟩, ?_⟩
      simp only [reach]
      omega
    · split
      · rw [hinc]
        refine ⟨⟨h.min_pos, h.factor_le, fun _ => Nat.succ_pos _⟩, ?_⟩
        simp only [reach]
        omega
      · split
        · rw [hdec]
          refine ⟨⟨h.min_pos, h.factor_le, fun _ => ?_⟩, ?_⟩
          · exact lt_max_of_lt_right h.min_pos
          · simp only [reach]
            omega
        · refine ⟨⟨h.min_pos, h.factor_le, fun _ => hpos⟩, ?_⟩
          simp only [reach]
          omega

theorem InRange.onPacketLoss (h : v.InRange) :
    v.onPacketLoss.InRange ∧ v.onPacketLoss.reach ≤ v.reach := by
  unfold Vegas.onPacketLoss
  split
  · refine ⟨⟨h.min_pos, h.factor_le, fun hs => by cases hs⟩, ?_⟩
    simp only [reach]
    omega
  · refine ⟨⟨h.min_pos, h.factor_le, fun _ => lt_max_of_lt_right h.min_pos⟩, ?_⟩
    have hle : ((v.congestionWindow : ℚ) *
        v.config.congestionControl.vegasGentleDecreaseFactor) ≤ v.congestionWindow :=
      mul_le_of_le_one_right (Nat.cast_nonneg _) h.factor_le
    have hfloor : ⌊(v.congestionWindow : ℚ) *
        v.config.congestionControl.vegasGentleDecreaseFactor⌋.toNat ≤ v.congestionWindow := by
      have hint := (Int.floor_le_floor hle).trans (Int.floor_natCast _).le
      omega
    simp only [reach]
    omega

theorem InRange.samplesFit (h : v.InRange) (ss : List Duration)
    (hr : v.reach + ss.length < u32Size) :
    v.SamplesFit ss ∧ (ss.foldl Vegas.onAck v).InRange ∧
      (ss.foldl Vegas.onAck v).reach ≤ v.reach + ss.length := by
  induction ss generalizing v with
  | nil => exact ⟨trivial, h, le_rfl⟩
  | cons s ss ih =>
    rw [List.length_cons] at hr
    have hle := congestionWindow_le_reach (v := v)
    obtain ⟨hone, hreach⟩ := h.onAck (by omega) s
    obtain ⟨hfit, hrange, hend⟩ := ih hone (by omega)
    refine ⟨⟨⟨by omega, h.avoiding⟩, hfit⟩, hrange, ?_⟩
    rw [List.foldl_cons, List.length_cons]
    omega

end Vegas

namespace ReceiveBuffer

variable (b : ReceiveBuffer)

/-- The number of packets that reassembly takes out, with the FIN. -/
def popped : ℕ := (b.reassemble.1.getD []).length + if b.reassemble.2.1 then 1 else 0

variable {b}

/-- Where no data is buffered under a number, the loop takes no data out at it or beyond it. -/
theorem reassembleLoop_le {n q : ℕ} {data : List Bytes} {finSeen : Bool} {b' : ReceiveBuffer}
    (h : reassembleLoop n b = (data, finSeen, b')) (hle : b.nextSequence ≤ q) (hq : q < u32Size)
    (hdata : ∀ payload, b.received[q]? ≠ some (.push payload)) :
    b.nextSequence + data.length ≤ q ∧
      (finSeen = true → b.received[b.nextSequence + data.length]? = some .fin) := by
  induction n generalizing b data with
  | zero =>
    obtain ⟨rfl, rfl, rfl⟩ := h
    exact ⟨hle, by simp⟩
  | succ n ih =>
    rw [reassembleLoop] at h
    split at h
    · rename_i payload b₁ hp
      generalize hl : reassembleLoop n b₁ = r at h
      obtain ⟨data', finSeen', b''⟩ := r
      obtain ⟨rfl, rfl, rfl⟩ := h
      obtain ⟨hf, rfl⟩ := tryPopNextContiguous_eq_some.mp hp
      have hfirst := (SortedMap.first_eq_some_iff.mp hf).1
      have hne : b.nextSequence ≠ q := by
        rintro rfl
        exact hdata payload hfirst
      have hmod : (b.nextSequence + 1) % u32Size = b.nextSequence + 1 :=
        Nat.mod_eq_of_lt (by omega)
      have hkeep (k : ℕ) (hk : b.nextSequence ≠ k) :
          (b.received.erase b.nextSequence)[k]? = b.received[k]? := by
        rw [SortedMap.getElem?_erase, if_neg hk]
      rw [hmod] at hl
      obtain ⟨hlen, hfin⟩ := ih hl (by dsimp only; omega)
        (by dsimp only; rw [hkeep q hne]; exact hdata)
      dsimp only at hlen hfin
      rw [List.length_cons]
      refine ⟨by omega, fun hs => ?_⟩
      have hfin := hfin hs
      rw [hkeep _ (by omega), Nat.add_assoc, Nat.add_comm 1] at hfin
      exact hfin
    · rename_i b₁ hp
      obtain ⟨rfl, rfl, rfl⟩ := h
      have hf := (tryPopNextContiguous_eq_some.mp hp).1
      exact ⟨hle, fun _ => (SortedMap.first_eq_some_iff.mp hf).1⟩
    · obtain ⟨rfl, rfl, rfl⟩ := h
      exact ⟨hle, by simp⟩

/-- A number still expected has not come, or a FIN ends the stream before the last number. -/
def Ends (b : ReceiveBuffer) : Prop :=
  ∃ q < u32Size, b.nextSequence ≤ q ∧
    (b.received[q]? = none ∨ b.received[q]? = some .fin ∧ q + 1 < u32Size)

/-- Reassembly stops within 32 bits. -/
theorem Ends.popped (h : b.Ends) : b.nextSequence + b.popped < u32Size := by
  obtain ⟨q, hq, hle, hr⟩ := h
  have hdata : ∀ payload, b.received[q]? ≠ some (.push payload) := by
    rintro payload hp
    rcases hr with hr | ⟨hr, -⟩ <;> rw [hr] at hp <;> cases hp
  unfold ReceiveBuffer.popped reassemble
  split
  · simpa using lt_of_le_of_lt hle hq
  · generalize hl : reassembleLoop b.received.size b = r
    obtain ⟨data, finSeen, b'⟩ := r
    obtain ⟨hlen, hfin⟩ := reassembleLoop_le hl hle hq hdata
    have hsum : b.nextSequence + (data.length + if finSeen then 1 else 0) < u32Size := by
      cases finSeen with
      | false => simpa using lt_of_le_of_lt hlen hq
      | true =>
        have hfin := hfin rfl
        rcases hr with hr | ⟨-, hr⟩
        · have hne : b.nextSequence + data.length ≠ q := by
            rintro rfl
            rw [hr] at hfin
            cases hfin
          simp only [if_true]
          omega
        · simp only [if_true]
          omega
    dsimp only
    split
    · rename_i he
      rw [List.isEmpty_iff.mp he] at hsum
      exact hsum
    · exact hsum

/-- Every sequence number that is buffered has 32 bits. -/
def KeysFit (b : ReceiveBuffer) : Prop :=
  ∀ (q : ℕ) (p : PacketOrFin), b.received[q]? = some p → q < u32Size

theorem KeysFit.receive (h : b.KeysFit) {q : ℕ} (hq : q < u32Size) (p : PacketOrFin) :
    (b.receive q p).2.KeysFit := by
  intro k p' hk
  rcases receive_getElem? hk with hk | ⟨rfl, -, -⟩
  · exact h k p' hk
  · exact hq

theorem KeysFit.reassemble (h : b.KeysFit) : b.reassemble.2.2.KeysFit := by
  refine reassemble_rule ?_ ?_ h
  · intro c p c' hc hp
    obtain ⟨-, rfl⟩ := tryPopNextContiguous_eq_some.mp hp
    intro k p' hk
    rw [SortedMap.getElem?_erase] at hk
    split at hk
    · cases hk
    · exact hc k p' hk
  · intro c _ k p' hk
    simp at hk

/-- The number after an open range, wherever `sackRangesOf` compares with it, has 32 bits. -/
def RangesFit : Option SackRange → List ℕ → Prop
  | none, [] => True
  | some _, [] => True
  | none, q :: qs => RangesFit (some ⟨q, q⟩) qs
  | some r, q :: qs =>
    r.end + 1 < u32Size ∧ RangesFit (some (if q = r.end + 1 then ⟨r.start, q⟩ else ⟨q, q⟩)) qs

end ReceiveBuffer

namespace ReliabilityLayer

variable {l : ReliabilityLayer Vegas}

theorem congestionControl_takeSamples (samples : List Duration) :
    (l.takeSamples samples).congestionControl = samples.foldl Vegas.onAck l.congestionControl := by
  induction samples generalizing l with
  | nil => rfl
  | cons s samples ih =>
    exact ih (l := { l with
      rtoEstimator := l.rtoEstimator.update s l.config.reliability.minRto
      congestionControl := l.congestionControl.onAck s })

theorem congestionControl_handleAck (n : ℕ) (rs : List SackRange) (now : Instant)
    (c : RetransmissionContext) :
    let v := (l.retransmissionManager.sackManager.processAck n rs now c).1.rttSamples.foldl
      Vegas.onAck l.congestionControl
    (l.handleAck n rs now c).2.congestionControl = v ∨
      (l.handleAck n rs now c).2.congestionControl = v.onPacketLoss := by
  intro v
  have hv : (takeSamples { l with
      retransmissionManager := (l.retransmissionManager.processAck n rs now c).2 }
      (l.retransmissionManager.processAck n rs now c).1.rttSamples).congestionControl = v :=
    congestionControl_takeSamples _
  unfold handleAck
  dsimp only
  split
  · exact Or.inl hv
  · exact Or.inr (congrArg Vegas.onPacketLoss hv)

theorem congestionControl_checkRetransmissions (now : Instant) (c : RetransmissionContext) :
    (l.checkRetransmissions now c).2.congestionControl = l.congestionControl ∨
      (l.checkRetransmissions now c).2.congestionControl = l.congestionControl.onPacketLoss := by
  unfold checkRetransmissions
  dsimp only
  split
  · exact Or.inl rfl
  · exact Or.inr rfl

end ReliabilityLayer

end Kestrel
