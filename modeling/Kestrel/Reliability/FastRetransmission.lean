import Kestrel.Reliability.Retries

/-! # Fast retransmission

A packet is lost once the threshold of packets above it has been selectively acknowledged since it
was sent last. Its counter counts the acknowledgments that did so, not the packets, and is not
reset when the packet is sent again after a timeout.
-/

namespace Kestrel

open Std (ExtTreeMap)

/-- One of the frames has this number. -/
def SendsNumber (frames : List Frame) (q : ℕ) : Prop := ∃ f ∈ frames, f.sequenceNumber = some q

instance (frames : List Frame) : DecidablePred (SendsNumber frames) := fun q =>
  inferInstanceAs (Decidable (∃ f ∈ frames, f.sequenceNumber = some q))

theorem RetransmissionFrameInfo.Rebuilt.sendsNumber_iff
    {kept : ℕ → Option RetransmissionFrameInfo} {c : RetransmissionContext} {now : Instant}
    {numbers : List ℕ} {frames : List Frame} {q : ℕ} (h : Rebuilt kept c now numbers frames)
    (hkept : ∀ k j, kept k = some j → j.HasNumber k) : SendsNumber frames q ↔ q ∈ numbers := by
  induction h with
  | nil => simp [SendsNumber]
  | @cons k g numbers frames hg _ ih =>
    obtain ⟨j, hk, rfl⟩ := hg
    rw [List.mem_cons, ← ih]
    simp [SendsNumber, (hkept k j hk).sequenceNumber, eq_comm]

namespace SackManager

inductive Op where
  | addInFlightPacket (frame : Frame) (now : Instant)
  | processAck (recvNextSeq : ℕ) (sackRanges : List SackRange) (now : Instant)
      (context : RetransmissionContext)
  | checkForRto (rto : Duration) (now : Instant) (context : RetransmissionContext)
  | onAckElicitingPacketReceived
  | onAckSent
  | clear
  deriving DecidableEq, Repr

variable (m : SackManager)

def apply : Op → List Frame × SackManager
  | .addInFlightPacket frame now => ([], m.addInFlightPacket frame now)
  | .processAck recvNextSeq sackRanges now context =>
    ((m.processAck recvNextSeq sackRanges now context).1.framesToRetransmit,
      (m.processAck recvNextSeq sackRanges now context).2)
  | .checkForRto rto now context => m.checkForRto rto now context
  | .onAckElicitingPacketReceived => ([], m.onAckElicitingPacketReceived)
  | .onAckSent => ([], m.onAckSent)
  | .clear => ([], m.clear)

/-- How many packets above a number an acknowledgment removes for its ranges. -/
def sackedAbove (recvNextSeq : ℕ) (sackRanges : List SackRange) (q : ℕ) : ℕ :=
  m.inFlightPackets.keys.countP fun p =>
    decide (q < p ∧ recvNextSeq ≤ p ∧ ∃ r ∈ sackRanges, p ∈ r.seqs)

variable {m} {n : ℕ} {rs : List SackRange} {now : Instant} {c : RetransmissionContext} {q : ℕ}

theorem mem_sacked : q ∈ m.sacked n rs ↔
    n ≤ q ∧ (∃ r ∈ rs, q ∈ r.seqs) ∧ ∃ p, m.inFlightPackets[q]? = some p := by
  simp only [sacked, List.mem_map, Prod.exists, exists_and_right, exists_eq_right,
    SortedMap.mem_takeAll_iff, SortedMap.takeAll_snd, SortedMap.getElem?_eraseAll,
    List.mem_flatMap]
  constructor
  · rintro ⟨p, hr, hp⟩
    split at hp
    · cases hp
    · rename_i hn
      exact ⟨not_lt.mp fun hlt => hn (mem_cumulative.mpr ⟨hlt, p, hp⟩), hr, p, hp⟩
  · rintro ⟨hn, hr, p, hp⟩
    refine ⟨p, hr, ?_⟩
    rw [if_neg fun h => absurd (mem_cumulative.mp h).1 (not_lt.mpr hn), hp]

theorem sackedAbove_pos : 0 < m.sackedAbove n rs q ↔ ∃ k ∈ m.sacked n rs, q < k := by
  simp only [sackedAbove, List.countP_pos_iff, decide_eq_true_eq, mem_sacked, SortedMap.mem_keys]
  constructor
  · rintro ⟨k, hp, hlt, hn, hr⟩
    exact ⟨k, ⟨hn, hr, hp⟩, hlt⟩
  · rintro ⟨k, ⟨hn, hr, hp⟩, hlt⟩
    exact ⟨k, hp, hlt, hn, hr⟩

theorem sackedAbove_single_le (m : SackManager) (n a q : ℕ) : m.sackedAbove n [⟨a, a⟩] q ≤ 1 := by
  have hnodup : m.inFlightPackets.keys.Nodup := (SortedMap.keys_sorted _).imp ne_of_lt
  refine (List.countP_mono_left ?_).trans (List.nodup_iff_count_le_one.mp hnodup a)
  intro p _ hp
  obtain ⟨-, -, r, hr, hp⟩ := of_decide_eq_true hp
  rw [List.mem_singleton.mp hr, SackRange.mem_seqs] at hp
  exact beq_iff_eq.mpr (le_antisymm hp.2 hp.1)

/-- The counter of a skipped packet has reached the threshold. -/
def Lost (m : SackManager) (p : SackInFlightPacket) : Prop :=
  m.fastRetxThreshold ≤ (p.fastRetxCount + 1) % u16Size

instance : DecidablePred m.Lost := fun p =>
  inferInstanceAs (Decidable (m.fastRetxThreshold ≤ (p.fastRetxCount + 1) % u16Size))

/-- What becomes of a packet that is skipped. -/
def skip (m : SackManager) (now : Instant) (p : SackInFlightPacket) : SackInFlightPacket :=
  if m.Lost p then { p with lastSentAt := now, fastRetxCount := 0 }
  else { p with fastRetxCount := (p.fastRetxCount + 1) % u16Size }

theorem exists_lt_max? {l : List ℕ} {k : ℕ} (h : l.max? = some k) : (∃ a ∈ l, q < a) ↔ q < k := by
  obtain ⟨hk, hle⟩ := List.max?_eq_some_iff.mp h
  exact ⟨fun ⟨a, ha, hlt⟩ => hlt.trans_le (hle a ha), fun hlt => ⟨k, hk, hlt⟩⟩

theorem getElem?_checkFastRetransmission (l : List ℕ) :
    (m.checkFastRetransmission l now c).2.inFlightPackets[q]? =
      m.inFlightPackets[q]?.map fun p => if ∃ a ∈ l, q < a then m.skip now p else p := by
  unfold checkFastRetransmission
  split
  · rename_i hl
    rw [List.max?_eq_none_iff.mp hl]
    simp
  · rename_i k hk
    cases hp : m.inFlightPackets[q]? with
    | none => simp [hp]
    | some p =>
      by_cases hlt : q < k
      · by_cases hl : m.fastRetxThreshold ≤ (p.fastRetxCount + 1) % u16Size <;>
          simp [hp, exists_lt_max? hk, skip, Lost, hlt, hl]
      · simp [hp, exists_lt_max? hk, hlt]

theorem rebuilt_checkFastRetransmission (m : SackManager) (l : List ℕ) (now : Instant)
    (c : RetransmissionContext) : ∃ numbers, RetransmissionFrameInfo.Rebuilt m.info? c now numbers
        (m.checkFastRetransmission l now c).1 ∧
      ∀ q : ℕ, q ∈ numbers ↔
        ∃ p, m.inFlightPackets[q]? = some p ∧ (∃ a ∈ l, q < a) ∧ m.Lost p := by
  unfold checkFastRetransmission
  split
  · rename_i hl
    rw [List.max?_eq_none_iff.mp hl]
    exact ⟨[], .nil, by simp⟩
  · rename_i k hk
    refine ⟨_, (SortedMap.forall₂_selected _ _ _).imp ?_, ?_⟩
    · rintro q g ⟨p, hp, -, rfl⟩
      exact ⟨p.frameInfo, by rw [info?, hp]; rfl, rfl⟩
    · intro q
      rw [SortedMap.mem_selected]
      simp [exists_lt_max? hk, Lost]

theorem getElem?_processAck (hn : ¬ AckNames n rs q) :
    (m.processAck n rs now c).2.inFlightPackets[q]? =
      m.inFlightPackets[q]?.map fun p => if 0 < m.sackedAbove n rs q then m.skip now p else p := by
  have hcheck := congrArg Prod.snd (processAck_check m n rs now c)
  dsimp only at hcheck
  rw [hcheck, getElem?_checkFastRetransmission, getElem?_unnamed, if_neg hn]
  simp only [sackedAbove_pos]
  rfl

theorem sendsNumber_checkForRto (hm : ∀ k j, m.info? k = some j → j.HasNumber k)
    (rto : Duration) : SendsNumber (m.checkForRto rto now c).1 q ↔
      ∃ p, m.inFlightPackets[q]? = some p ∧ now - p.lastSentAt > rto := by
  rw [(rebuilt_checkForRto m rto now c).sendsNumber_iff hm, mem_lateNumbers]

theorem sendsNumber_processAck (hm : ∀ k j, m.info? k = some j → j.HasNumber k) :
    SendsNumber (m.processAck n rs now c).1.framesToRetransmit q ↔
      ¬ AckNames n rs q ∧ ∃ p, m.inFlightPackets[q]? = some p ∧ 0 < m.sackedAbove n rs q ∧
        m.Lost p := by
  have hcheck := congrArg Prod.fst (processAck_check m n rs now c)
  dsimp only at hcheck
  obtain ⟨numbers, hrebuilt, hmem⟩ :=
    rebuilt_checkFastRetransmission (m.unnamed n rs) (m.sacked n rs) now c
  rw [← hcheck] at hrebuilt
  have hkept (k : ℕ) (j : RetransmissionFrameInfo) (hj : (m.unnamed n rs).info? k = some j) :
      j.HasNumber k := by
    apply hm k j
    rw [info?, getElem?_unnamed] at hj
    split at hj
    · cases hj
    · exact hj
  rw [hrebuilt.sendsNumber_iff hkept, hmem, getElem?_unnamed, sackedAbove_pos]
  by_cases hn : AckNames n rs q
  · simp [hn]
  · simp only [hn, not_false_eq_true, true_and]
    rfl

end SackManager

/-- A manager beside the number of packets above each packet that were selectively acknowledged
since it was sent last. -/
structure SackRun where
  manager : SackManager
  ackedAbove : ℕ → ℕ

namespace SackRun

open SackManager (Op)

variable (w : SackRun)

/-- Sending a packet starts its count again. -/
def count (op : Op) (frames : List Frame) (q : ℕ) : ℕ :=
  match op with
  | .addInFlightPacket frame _ => if frame.trackedNumber = some q then 0 else w.ackedAbove q
  | .processAck recvNextSeq sackRanges _ _ =>
    if SendsNumber frames q then 0
    else w.ackedAbove q + w.manager.sackedAbove recvNextSeq sackRanges q
  | .checkForRto .. => if SendsNumber frames q then 0 else w.ackedAbove q
  | .onAckElicitingPacketReceived | .onAckSent | .clear => w.ackedAbove q

def apply (op : Op) : SackRun :=
  let (frames, manager) := w.manager.apply op
  ⟨manager, w.count op frames⟩

def system (threshold : ℕ) : TransitionSystem SackRun Op where
  init w := w = ⟨.new threshold, fun _ => 0⟩
  step w op w' := w.apply op = w'

/-- An acknowledgment counts as many packets as it removes, or as are missing, and a packet that
has been skipped does not reach the timeout. -/
def Counts : Op → Prop
  | .processAck recvNextSeq sackRanges _ _ => ∀ (q : ℕ) (p : SackInFlightPacket),
    w.manager.inFlightPackets[q]? = some p → ¬ AckNames recvNextSeq sackRanges q →
      w.manager.sackedAbove recvNextSeq sackRanges q ≤ 1 ∨
        w.manager.fastRetxThreshold ≤ p.fastRetxCount + 1
  | .checkForRto rto now _ => ∀ (q : ℕ) (p : SackInFlightPacket),
    w.manager.inFlightPackets[q]? = some p → now - p.lastSentAt > rto → p.fastRetxCount = 0
  | _ => True

/-- An acknowledgment sends exactly those packets again above which enough were selectively
acknowledged. -/
def TriggersExactly (recvNextSeq : ℕ) (sackRanges : List SackRange) (now : Instant)
    (c : RetransmissionContext) : Prop :=
  ∀ q, SendsNumber (w.manager.processAck recvNextSeq sackRanges now c).1.framesToRetransmit q ↔
    (∃ p, w.manager.inFlightPackets[q]? = some p) ∧ ¬ AckNames recvNextSeq sackRanges q ∧
      w.manager.fastRetxThreshold ≤
        w.ackedAbove q + w.manager.sackedAbove recvNextSeq sackRanges q

/-- The counter of every packet is right and below the threshold. -/
structure Counted (k : ℕ) : Prop where
  threshold_eq : w.manager.fastRetxThreshold = k
  numbers : ∀ q i, w.manager.info? q = some i → i.HasNumber q
  count_eq : ∀ (q : ℕ) (p : SackInFlightPacket), w.manager.inFlightPackets[q]? = some p →
    p.fastRetxCount = w.ackedAbove q ∧ w.ackedAbove q < k

variable {w} {k : ℕ}

/-- A right counter tells which packets are lost. -/
theorem Counted.triggersExactly (h : w.Counted k) (hk : k < u16Size) {n : ℕ} {rs : List SackRange}
    {now : Instant} {c : RetransmissionContext} (hc : w.Counts (.processAck n rs now c)) :
    w.TriggersExactly n rs now c := by
  intro q
  rw [SackManager.sendsNumber_processAck h.numbers]
  constructor
  · rintro ⟨hn, p, hp, hpos, hlost⟩
    refine ⟨⟨p, hp⟩, hn, ?_⟩
    obtain ⟨hcount, hlt⟩ := h.count_eq q p hp
    have hle := hlost.trans (Nat.mod_le _ _)
    omega
  · rintro ⟨⟨p, hp⟩, hn, hle⟩
    obtain ⟨hcount, hlt⟩ := h.count_eq q p hp
    have hthr := h.threshold_eq
    refine ⟨hn, p, hp, by omega, ?_⟩
    rw [SackManager.Lost, Nat.mod_eq_of_lt (by omega)]
    rcases hc q p hp hn with hone | hdue <;> omega

theorem Counted.addInFlightPacket (h : w.Counted k) (hk : 1 ≤ k) (f : Frame) (now : Instant) :
    (w.apply (.addInFlightPacket f now)).Counted k := by
  constructor
  · rw [← h.threshold_eq]
    change (w.manager.addInFlightPacket f now).fastRetxThreshold = _
    unfold SackManager.addInFlightPacket
    split <;> rfl
  · intro q i hi
    rcases SackManager.info?_addInFlightPacket_cases f now q with he | ⟨hs, he⟩
    · exact h.numbers q i (he ▸ hi)
    · exact RetransmissionFrameInfo.hasNumber_fromFrame hs (he ▸ hi)
  · intro q p hp
    change (w.manager.addInFlightPacket f now).inFlightPackets[q]? = some p at hp
    change p.fastRetxCount = (if f.trackedNumber = some q then 0 else w.ackedAbove q) ∧
      (if f.trackedNumber = some q then 0 else w.ackedAbove q) < k
    by_cases hq : f.trackedNumber = some q
    · obtain ⟨i, hi⟩ : ∃ i, RetransmissionFrameInfo.fromFrame f = some i := by
        cases f with
        | push | fin | pathChallenge | pathResponse => exact ⟨_, rfl⟩
        | ack | ping | syn | synAck => cases hq
      rw [SackManager.getElem?_addInFlightPacket hq hi] at hp
      cases hp
      rw [if_pos hq]
      exact ⟨rfl, hk⟩
    · rw [SackManager.getElem?_addInFlightPacket_of_ne hq] at hp
      rw [if_neg hq]
      exact h.count_eq q p hp

theorem Counted.processAck (h : w.Counted k) (hk₁ : 1 ≤ k) (hk : k < u16Size) {n : ℕ}
    {rs : List SackRange} {now : Instant} {c : RetransmissionContext}
    (hc : w.Counts (.processAck n rs now c)) : (w.apply (.processAck n rs now c)).Counted k := by
  have htrig := h.triggersExactly hk hc
  have hthr := h.threshold_eq
  constructor
  · rw [← hthr]
    have hcheck := congrArg Prod.snd (SackManager.processAck_check w.manager n rs now c)
    change (w.manager.processAck n rs now c).2.fastRetxThreshold = _
    dsimp only at hcheck
    rw [hcheck]
    unfold SackManager.checkFastRetransmission
    split <;> rfl
  · intro q i hi
    change (w.manager.processAck n rs now c).2.info? q = some i at hi
    rw [SackManager.info?_processAck] at hi
    split at hi
    · cases hi
    · exact h.numbers q i hi
  · intro q p hp
    change (w.manager.processAck n rs now c).2.inFlightPackets[q]? = some p at hp
    have hn : ¬ AckNames n rs q := by
      intro hn
      have hi := SackManager.info?_processAck (m := w.manager) n rs now c q
      rw [if_pos hn, SackManager.info?, hp] at hi
      cases hi
    rw [SackManager.getElem?_processAck hn] at hp
    obtain ⟨p₀, hp₀, rfl⟩ := Option.map_eq_some_iff.mp hp
    obtain ⟨hcount, hlt⟩ := h.count_eq q p₀ hp₀
    -- The packet was sent again exactly when its count reached the threshold.
    have hsent : SendsNumber (w.manager.processAck n rs now c).1.framesToRetransmit q ↔
        k ≤ w.ackedAbove q + w.manager.sackedAbove n rs q := by
      rw [htrig q, hthr]
      simp [hp₀, hn]
    have hghost : (w.apply (.processAck n rs now c)).ackedAbove q =
        if k ≤ w.ackedAbove q + w.manager.sackedAbove n rs q then 0
        else w.ackedAbove q + w.manager.sackedAbove n rs q :=
      if_congr hsent rfl rfl
    rw [hghost]
    have hmod : (p₀.fastRetxCount + 1) % u16Size = p₀.fastRetxCount + 1 :=
      Nat.mod_eq_of_lt (by omega)
    have hlost : w.manager.Lost p₀ ↔ k ≤ p₀.fastRetxCount + 1 := by
      rw [SackManager.Lost, hmod, hthr]
    by_cases hpos : 0 < w.manager.sackedAbove n rs q
    · rw [if_pos hpos, SackManager.skip]
      by_cases hl : k ≤ p₀.fastRetxCount + 1
      · rw [if_pos (hlost.mpr hl), if_pos (by omega)]
        exact ⟨rfl, hk₁⟩
      · have hone : w.manager.sackedAbove n rs q = 1 := by
          rcases hc q p₀ hp₀ hn with hone | hdue <;> omega
        rw [if_neg (hlost.not.mpr hl), hone, if_neg (by omega)]
        exact ⟨by rw [hmod, hcount], by omega⟩
    · have hzero : w.manager.sackedAbove n rs q = 0 := by omega
      rw [if_neg hpos, hzero, if_neg (by omega)]
      exact ⟨hcount, hlt⟩

theorem Counted.checkForRto (h : w.Counted k) (hk₁ : 1 ≤ k) {rto : Duration} {now : Instant}
    {c : RetransmissionContext} (hc : w.Counts (.checkForRto rto now c)) :
    (w.apply (.checkForRto rto now c)).Counted k := by
  constructor
  · exact h.threshold_eq
  · intro q i hi
    change (w.manager.checkForRto rto now c).2.info? q = some i at hi
    rw [SackManager.info?_checkForRto] at hi
    exact h.numbers q i hi
  · intro q p hp
    change (w.manager.checkForRto rto now c).2.inFlightPackets[q]? = some p at hp
    rw [SackManager.getElem?_checkForRto] at hp
    obtain ⟨p₀, hp₀, rfl⟩ := Option.map_eq_some_iff.mp hp
    obtain ⟨hcount, hlt⟩ := h.count_eq q p₀ hp₀
    have hsent : SendsNumber (w.manager.checkForRto rto now c).1 q ↔
        now - p₀.lastSentAt > rto := by
      rw [SackManager.sendsNumber_checkForRto h.numbers]
      simp [hp₀]
    have hghost : (w.apply (.checkForRto rto now c)).ackedAbove q =
        if now - p₀.lastSentAt > rto then 0 else w.ackedAbove q :=
      if_congr hsent rfl rfl
    rw [hghost]
    by_cases hlate : now - p₀.lastSentAt > rto
    · rw [if_pos hlate, if_pos hlate]
      exact ⟨hc q p₀ hp₀ hlate, hk₁⟩
    · rw [if_neg hlate, if_neg hlate]
      exact ⟨hcount, hlt⟩

theorem Counted.apply (h : w.Counted k) (hk₁ : 1 ≤ k) (hk : k < u16Size) {op : Op}
    (hc : w.Counts op) : (w.apply op).Counted k := by
  cases op with
  | addInFlightPacket f now => exact h.addInFlightPacket hk₁ f now
  | processAck n rs now c => exact h.processAck hk₁ hk hc
  | checkForRto rto now c => exact h.checkForRto hk₁ hc
  | onAckElicitingPacketReceived | onAckSent => exact ⟨h.threshold_eq, h.numbers, h.count_eq⟩
  | clear =>
    constructor
    · exact h.threshold_eq
    · intro q i hi
      change w.manager.clear.info? q = some i at hi
      rw [SackManager.info?_clear] at hi
      cases hi
    · intro q p hp
      change (∅ : ExtTreeMap ℕ SackInFlightPacket)[q]? = some p at hp
      simp at hp

/-- In every run whose steps all count right, so do all the counters. -/
theorem counted (hk₁ : 1 ≤ k) (hk : k < u16Size)
    (h : ((system k).restrict fun w op _ => w.Counts op).Reachable w) : w.Counted k := by
  have hinv : ((system k).restrict fun w op _ => w.Counts op).Invariant (Counted · k) :=
    { init := by
        rintro _ rfl
        constructor
        · rfl
        · intro q i hi
          rw [SackManager.info?_new] at hi
          cases hi
        · intro q p hp
          change (∅ : ExtTreeMap ℕ SackInFlightPacket)[q]? = some p at hp
          simp at hp
      step := by
        rintro w op _ - hw ⟨rfl, hc⟩
        exact hw.apply hk₁ hk hc }
  exact hinv.holds h

/-- In every run whose steps all count right, an acknowledgment that counts right sends exactly
those packets again above which as many packets as the threshold says were selectively
acknowledged since they were sent last. -/
theorem fastRetransmission_exact (hk₁ : 1 ≤ k) (hk : k < u16Size)
    (h : ((system k).restrict fun w op _ => w.Counts op).Reachable w) {n : ℕ}
    {rs : List SackRange} {now : Instant} {c : RetransmissionContext}
    (hc : w.Counts (.processAck n rs now c)) : w.TriggersExactly n rs now c :=
  (counted hk₁ hk h).triggersExactly hk hc

section Sample

def sampleContext : RetransmissionContext := ⟨0, 1, 1, 2, 0, 0⟩

/-- An acknowledgment of the packets from `a` to `b`. -/
def sampleAck (a b : ℕ) : Op := .processAck 0 [⟨a, b⟩] 0 sampleContext

def sampleRun (ops : List Op) : SackRun :=
  (([0, 1, 2, 3].map fun q => Op.addInFlightPacket (.newPush 1 q 0 0 0 []) 0) ++ ops).foldl
    SackRun.apply ⟨.new 3, fun _ => 0⟩

theorem sampleRun_reachable (ops : List Op) : (system 3).Reachable (sampleRun ops) := by
  have hrun (w : SackRun) (ops : List Op) (h : (system 3).Reachable w) :
      (system 3).Reachable (ops.foldl SackRun.apply w) := by
    induction ops generalizing w with
    | nil => exact h
    | cons op ops ih => exact ih _ (.step h rfl)
  exact hrun _ _ (.init rfl)

theorem counts_single (w : SackRun) (a : ℕ) : w.Counts (sampleAck a a) :=
  fun q _ _ _ => Or.inl (w.manager.sackedAbove_single_le 0 a q)

/-- Three acknowledgments of one packet each make the packet below them lost. -/
theorem fastRetransmission_exact_sample :
    (sampleRun [sampleAck 1 1, sampleAck 2 2]).TriggersExactly 0 [⟨3, 3⟩] 0 sampleContext := by
  have hinit : ((system 3).restrict fun w op _ => w.Counts op).Reachable (sampleRun []) :=
    .step (i := .addInFlightPacket (.newPush 1 3 0 0 0 []) 0)
      (.step (i := .addInFlightPacket (.newPush 1 2 0 0 0 []) 0)
        (.step (i := .addInFlightPacket (.newPush 1 1 0 0 0 []) 0)
          (.step (i := .addInFlightPacket (.newPush 1 0 0 0 0 []) 0) (.init rfl)
            ⟨rfl, trivial⟩) ⟨rfl, trivial⟩) ⟨rfl, trivial⟩) ⟨rfl, trivial⟩
  have hone := hinit.step (i := sampleAck 1 1) ⟨rfl, counts_single _ 1⟩
  have htwo := hone.step (i := sampleAck 2 2) ⟨rfl, counts_single _ 2⟩
  exact fastRetransmission_exact (by decide) (by decide) htwo (counts_single _ 3)

/-- One acknowledgment of three packets does not make the packet below them lost, and one of a
single packet does after a timeout. -/
theorem packets_not_counted :
    ((system 3).Reachable (sampleRun []) ∧
      ¬ (sampleRun []).TriggersExactly 0 [⟨1, 3⟩] 0 sampleContext) ∧
      (system 3).Reachable
        (sampleRun [sampleAck 1 1, sampleAck 2 2, .checkForRto 5 9 sampleContext]) ∧
      ¬ (sampleRun [sampleAck 1 1, sampleAck 2 2, .checkForRto 5 9 sampleContext]).TriggersExactly
        0 [⟨3, 3⟩] 9 sampleContext := by
  refine ⟨⟨sampleRun_reachable _, ?_⟩, sampleRun_reachable _, ?_⟩
  · intro h
    have hsent := (h 0).mpr ⟨⟨_, rfl⟩, by decide, by decide⟩
    exact absurd hsent (by decide)
  · intro h
    obtain ⟨-, -, hle⟩ := (h 0).mp (by decide)
    exact absurd hle (by decide)

end Sample

end SackRun

end Kestrel
