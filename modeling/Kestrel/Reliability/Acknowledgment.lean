import Kestrel.Reliability.Range

/-! # Exact acknowledgment

An acknowledgment removes the packets that it names, reports each of them once, and takes one
sample of the round-trip time for each. Of the packets that stay, those that are sent again get a
new time; the others keep theirs. Together, the two managers remove what they keep in the same way.
-/

namespace Kestrel

open Std (ExtTreeMap)

namespace SackManager

variable {m : SackManager} {n : ℕ} {rs : List SackRange} {now : Instant}
  {c : RetransmissionContext} {q : ℕ} {p : SackInFlightPacket}

/-- The numbers that an acknowledgment names, as they are gone through. -/
def namedKeys (keys : List ℕ) (n : ℕ) (rs : List SackRange) : List ℕ :=
  keys.takeWhile (· < n) ++ rs.flatMap SackRange.seqs

theorem mem_namedKeys {β : Type*} {map : ExtTreeMap ℕ β} {v : β} (h : map[q]? = some v) :
    q ∈ namedKeys map.keys n rs ↔ AckNames n rs q := by
  rw [namedKeys, List.mem_append, SortedMap.mem_takeWhile_lt (SortedMap.keys_sorted _),
    SortedMap.mem_keys, List.mem_flatMap, AckNames]
  simp [h]

/-- The packets that an acknowledgment removes. -/
def acked (m : SackManager) (n : ℕ) (rs : List SackRange) : List (ℕ × SackInFlightPacket) :=
  (SortedMap.takeAll m.inFlightPackets (namedKeys m.inFlightPackets.keys n rs)).1

theorem mem_acked : (q, p) ∈ m.acked n rs ↔ AckNames n rs q ∧ m.inFlightPackets[q]? = some p := by
  rw [acked, SortedMap.mem_takeAll_iff]
  constructor
  · rintro ⟨hk, hp⟩
    exact ⟨(mem_namedKeys hp).mp hk, hp⟩
  · rintro ⟨hn, hp⟩
    exact ⟨(mem_namedKeys hp).mpr hn, hp⟩

theorem acked_eq : m.acked n rs =
    (SortedMap.takeAll m.inFlightPackets (m.inFlightPackets.keys.takeWhile (· < n))).1 ++
      (SortedMap.takeAll (SortedMap.takeAll m.inFlightPackets
        (m.inFlightPackets.keys.takeWhile (· < n))).2 (rs.flatMap SackRange.seqs)).1 :=
  congrArg Prod.fst (SortedMap.takeAll_append ..)

theorem newlyAckedSequences_processAck (now : Instant) (c : RetransmissionContext) :
    (m.processAck n rs now c).1.newlyAckedSequences = (m.acked n rs).map Prod.fst := by
  rw [acked_eq]
  rfl

theorem rttSamples_processAck : (m.processAck n rs now c).1.rttSamples =
    (m.acked n rs).map fun e => now - e.2.lastSentAt := by
  rw [acked_eq]
  rfl

theorem getElem?_unnamed : (m.unnamed n rs).inFlightPackets[q]? =
    if AckNames n rs q then none else m.inFlightPackets[q]? := by
  have he : (m.unnamed n rs).inFlightPackets =
      (SortedMap.takeAll m.inFlightPackets (namedKeys m.inFlightPackets.keys n rs)).2 := by
    rw [namedKeys, SortedMap.takeAll_append]
    rfl
  rw [he, SortedMap.takeAll_snd, SortedMap.getElem?_eraseAll]
  cases hp : m.inFlightPackets[q]? with
  | none => simp
  | some p => simp [mem_namedKeys hp]

/-- The packets that an acknowledgment removes for its ranges. -/
def sacked (m : SackManager) (n : ℕ) (rs : List SackRange) : List ℕ :=
  (SortedMap.takeAll (SortedMap.takeAll m.inFlightPackets
    (m.inFlightPackets.keys.takeWhile (· < n))).2 (rs.flatMap SackRange.seqs)).1.map Prod.fst

theorem processAck_check (m : SackManager) (n : ℕ) (rs : List SackRange) (now : Instant)
    (c : RetransmissionContext) : ((m.processAck n rs now c).1.framesToRetransmit,
    (m.processAck n rs now c).2) =
      (m.unnamed n rs).checkFastRetransmission (m.sacked n rs) now c := by
  unfold processAck
  dsimp only
  split
  · rename_i he
    have hnil : m.sacked n rs = [] := by
      rw [sacked, List.isEmpty_iff.mp he]
      rfl
    rw [hnil]
    rfl
  · rfl

/-- An acknowledgment removes exactly what it names and reports it once, with one sample each. It
sends some of the other packets again and leaves the rest as it is, but for the counters. -/
structure AcksExactly (m : SackManager) (n : ℕ) (rs : List SackRange) (now : Instant)
    (c : RetransmissionContext) (resent : List ℕ) : Prop where
  acked_nodup : (m.processAck n rs now c).1.newlyAckedSequences.Nodup
  mem_acked_iff : ∀ q, q ∈ (m.processAck n rs now c).1.newlyAckedSequences ↔
    AckNames n rs q ∧ ∃ p, m.inFlightPackets[q]? = some p
  samples : List.Forall₂
    (fun (q : ℕ) s => ∃ p, m.inFlightPackets[q]? = some p ∧ s = now - p.lastSentAt)
    (m.processAck n rs now c).1.newlyAckedSequences (m.processAck n rs now c).1.rttSamples
  removed : ∀ q, AckNames n rs q → (m.processAck n rs now c).2.inFlightPackets[q]? = none
  kept : ∀ q, ¬ AckNames n rs q →
    ∃ count, (m.processAck n rs now c).2.inFlightPackets[q]? = m.inFlightPackets[q]?.map fun p =>
      { p with
        lastSentAt := if q ∈ resent then now else p.lastSentAt
        fastRetxCount := count }
  resent_nodup : resent.Nodup
  frames_eq : List.Forall₂
    (fun (q : ℕ) f => ¬ AckNames n rs q ∧ ∃ p, m.inFlightPackets[q]? = some p ∧
      f = p.frameInfo.reconstructFrame c now)
    resent (m.processAck n rs now c).1.framesToRetransmit

/-- What a check for early retransmission does to the packets. -/
theorem checkFastRetransmission_spec (m : SackManager) (acked : List ℕ) (now : Instant)
    (c : RetransmissionContext) : ∃ resent : List ℕ, resent.Nodup ∧
      List.Forall₂ (fun (q : ℕ) f => ∃ p, m.inFlightPackets[q]? = some p ∧
          f = p.frameInfo.reconstructFrame c now)
        resent (m.checkFastRetransmission acked now c).1 ∧
      ∀ q : ℕ, ∃ count, (m.checkFastRetransmission acked now c).2.inFlightPackets[q]? =
        m.inFlightPackets[q]?.map fun p =>
          { p with
            lastSentAt := if q ∈ resent then now else p.lastSentAt
            fastRetxCount := count } := by
  unfold checkFastRetransmission
  split
  · refine ⟨[], List.nodup_nil, .nil, ?_⟩
    intro q
    cases hq : m.inFlightPackets[q]? with
    | none => exact ⟨0, rfl⟩
    | some p => exact ⟨p.fastRetxCount, rfl⟩
  · rename_i highest _
    let count (p : SackInFlightPacket) : ℕ := (p.fastRetxCount + 1) % u16Size
    let lost (e : ℕ × SackInFlightPacket) : Bool :=
      decide (e.1 < highest) && decide (count e.2 ≥ m.fastRetxThreshold)
    refine ⟨(m.inFlightPackets.toList.filter lost).map Prod.fst, SortedMap.nodup_selected _ _,
      ?_, ?_⟩
    · refine (SortedMap.forall₂_selected _ lost _).imp ?_
      rintro q f ⟨p, hp, -, hf⟩
      exact ⟨p, hp, hf⟩
    · intro q
      dsimp only
      rw [ExtTreeMap.getElem?_map]
      cases hq : m.inFlightPackets[q]? with
      | none => exact ⟨0, rfl⟩
      | some p =>
        have hmem : q ∈ (m.inFlightPackets.toList.filter lost).map Prod.fst ↔
            q < highest ∧ count p ≥ m.fastRetxThreshold := by
          rw [SortedMap.mem_selected]
          simp [hq, lost]
        simp only [Option.map_some, hmem]
        by_cases hlt : q < highest
        · by_cases hlost : count p ≥ m.fastRetxThreshold
          · exact ⟨0, by simp [hlt, count, hlost]⟩
          · exact ⟨count p, by simp [hlt, count, hlost]⟩
        · exact ⟨p.fastRetxCount, by simp [hlt]⟩

theorem acksExactly (m : SackManager) (n : ℕ) (rs : List SackRange) (now : Instant)
    (c : RetransmissionContext) : ∃ resent, m.AcksExactly n rs now c resent := by
  have hcheck := processAck_check m n rs now c
  obtain ⟨resent, hnodup, hframes, hkept⟩ :=
    checkFastRetransmission_spec (m.unnamed n rs) (m.sacked n rs) now c
  rw [← hcheck] at hframes hkept
  dsimp only at hframes hkept
  refine ⟨resent, ?_⟩
  constructor
  · rw [newlyAckedSequences_processAck]
    exact SortedMap.nodup_takeAll ..
  · intro q
    rw [newlyAckedSequences_processAck, List.mem_map]
    constructor
    · rintro ⟨⟨q, p⟩, he, rfl⟩
      obtain ⟨hn, hp⟩ := mem_acked.mp he
      exact ⟨hn, p, hp⟩
    · rintro ⟨hn, p, hp⟩
      exact ⟨(q, p), mem_acked.mpr ⟨hn, hp⟩, rfl⟩
  · rw [newlyAckedSequences_processAck, rttSamples_processAck, List.forall₂_map_left_iff,
      List.forall₂_map_right_iff, List.forall₂_same]
    rintro ⟨q, p⟩ he
    exact ⟨p, (mem_acked.mp he).2, rfl⟩
  · intro q hn
    obtain ⟨count, hq⟩ := hkept q
    rw [hq, getElem?_unnamed, if_pos hn]
    rfl
  · intro q hn
    obtain ⟨count, hq⟩ := hkept q
    rw [getElem?_unnamed, if_neg hn] at hq
    exact ⟨count, hq⟩
  · exact hnodup
  · refine hframes.imp ?_
    rintro q f ⟨p, hp, hf⟩
    rw [getElem?_unnamed] at hp
    split at hp
    · cases hp
    · rename_i hn
      exact ⟨hn, p, hp, hf⟩

end SackManager

namespace SimpleRetransmissionManager

variable {m : SimpleRetransmissionManager} {n : ℕ} {rs : List SackRange} {q : ℕ}

/-- The numbers that the two passes of an acknowledgment remove. -/
def acked (m : SimpleRetransmissionManager) (n : ℕ) (rs : List SackRange) : List ℕ :=
  (m.acknowledgeUpTo n).1 ++ ((m.acknowledgeUpTo n).2.acknowledgeSackRanges rs).1

theorem acked_eq : m.acked n rs = (SortedMap.takeAll m.inFlightSimple
    (SackManager.namedKeys m.inFlightSimple.keys n rs)).1.map Prod.fst := by
  rw [SackManager.namedKeys, SortedMap.takeAll_append, List.map_append]
  rfl

theorem mem_acked : q ∈ m.acked n rs ↔ AckNames n rs q ∧ ∃ p, m.inFlightSimple[q]? = some p := by
  simp only [acked_eq, List.mem_map, Prod.exists, exists_and_right, exists_eq_right,
    SortedMap.mem_takeAll_iff]
  constructor
  · rintro ⟨p, hk, hp⟩
    exact ⟨(SackManager.mem_namedKeys hp).mp hk, p, hp⟩
  · rintro ⟨hn, p, hp⟩
    exact ⟨p, (SackManager.mem_namedKeys hp).mpr hn, hp⟩

theorem nodup_acked (m : SimpleRetransmissionManager) (n : ℕ) (rs : List SackRange) :
    (m.acked n rs).Nodup := by
  rw [acked_eq]
  exact SortedMap.nodup_takeAll ..

theorem getElem?_acknowledge :
    ((m.acknowledgeUpTo n).2.acknowledgeSackRanges rs).2.inFlightSimple[q]? =
      if AckNames n rs q then none else m.inFlightSimple[q]? := by
  have he : ((m.acknowledgeUpTo n).2.acknowledgeSackRanges rs).2.inFlightSimple =
      (SortedMap.takeAll m.inFlightSimple
        (SackManager.namedKeys m.inFlightSimple.keys n rs)).2 := by
    rw [SackManager.namedKeys, SortedMap.takeAll_append]
    rfl
  rw [he, SortedMap.takeAll_snd, SortedMap.getElem?_eraseAll]
  cases hp : m.inFlightSimple[q]? with
  | none => simp
  | some p => simp [SackManager.mem_namedKeys hp]

end SimpleRetransmissionManager

namespace RetransmissionManager

variable {m : RetransmissionManager} {n : ℕ} {rs : List SackRange} {now : Instant}
  {c : RetransmissionContext} {q : ℕ}

/-- No number is kept by both managers. -/
def Disjoint (m : RetransmissionManager) : Prop :=
  ∀ q, m.sackManager.info? q = none ∨ m.simpleRetxManager.info? q = none

/-- An acknowledgment removes exactly what it names from what both managers keep, and reports it
once. -/
structure AcksExactly (m : RetransmissionManager) (n : ℕ) (rs : List SackRange) (now : Instant)
    (c : RetransmissionContext) : Prop where
  acked_nodup : (m.processAck n rs now c).1.newlyAckedSequences.Nodup
  mem_acked_iff : ∀ q, q ∈ (m.processAck n rs now c).1.newlyAckedSequences ↔
    AckNames n rs q ∧ ∃ i, m.Keeps q i
  keeps_iff : ∀ q i, (m.processAck n rs now c).2.Keeps q i ↔ ¬ AckNames n rs q ∧ m.Keeps q i
  simple_kept : ∀ q, ¬ AckNames n rs q →
    (m.processAck n rs now c).2.simpleRetxManager.inFlightSimple[q]? =
      m.simpleRetxManager.inFlightSimple[q]?

theorem exists_keeps : (∃ i, m.Keeps q i) ↔
    (∃ p, m.sackManager.inFlightPackets[q]? = some p) ∨
      ∃ p, m.simpleRetxManager.inFlightSimple[q]? = some p := by
  simp only [Keeps, SackManager.info?, SimpleRetransmissionManager.info?, exists_or,
    Option.map_eq_some_iff]
  constructor
  · rintro (⟨i, p, hp, -⟩ | ⟨i, p, hp, -⟩)
    · exact Or.inl ⟨p, hp⟩
    · exact Or.inr ⟨p, hp⟩
  · rintro (⟨p, hp⟩ | ⟨p, hp⟩)
    · exact Or.inl ⟨_, p, hp, rfl⟩
    · exact Or.inr ⟨_, p, hp, rfl⟩

theorem Disjoint.acksExactly (h : m.Disjoint) (n : ℕ) (rs : List SackRange) (now : Instant)
    (c : RetransmissionContext) : m.AcksExactly n rs now c := by
  have hacked : (m.processAck n rs now c).1.newlyAckedSequences =
      (m.sackManager.acked n rs).map Prod.fst ++ m.simpleRetxManager.acked n rs := by
    rw [← SackManager.newlyAckedSequences_processAck now c]
    rfl
  have hsack : ∀ q, q ∈ (m.sackManager.acked n rs).map Prod.fst ↔
      AckNames n rs q ∧ ∃ p, m.sackManager.inFlightPackets[q]? = some p := by
    intro q
    simp only [List.mem_map, Prod.exists, exists_and_right, exists_eq_right, SackManager.mem_acked,
      exists_and_left]
  constructor
  · rw [hacked, List.nodup_append]
    refine ⟨SortedMap.nodup_takeAll .., SimpleRetransmissionManager.nodup_acked .., ?_⟩
    rintro q hq q' hq' rfl
    obtain ⟨-, p, hp⟩ := (hsack q).mp hq
    obtain ⟨-, p', hp'⟩ := SimpleRetransmissionManager.mem_acked.mp hq'
    rcases h q with hn | hn
    · simp [SackManager.info?, hp] at hn
    · simp [SimpleRetransmissionManager.info?, hp'] at hn
  · intro q
    rw [hacked, List.mem_append, hsack, SimpleRetransmissionManager.mem_acked, exists_keeps,
      and_or_left]
  · intro q i
    have hs : (m.processAck n rs now c).2.sackManager.info? q =
        if AckNames n rs q then none else m.sackManager.info? q :=
      SackManager.info?_processAck ..
    have hr : (m.processAck n rs now c).2.simpleRetxManager.inFlightSimple[q]? =
        if AckNames n rs q then none else m.simpleRetxManager.inFlightSimple[q]? :=
      SimpleRetransmissionManager.getElem?_acknowledge
    rw [Keeps, Keeps, hs, SimpleRetransmissionManager.info?, hr]
    split <;> simp [*, SimpleRetransmissionManager.info?]
  · intro q hn
    have hr : (m.processAck n rs now c).2.simpleRetxManager.inFlightSimple[q]? =
        if AckNames n rs q then none else m.simpleRetxManager.inFlightSimple[q]? :=
      SimpleRetransmissionManager.getElem?_acknowledge
    rw [hr, if_neg hn]

/-- Both managers acknowledge exactly what is named. -/
theorem acknowledgment_exact :
    (∀ (m : SackManager) (n : ℕ) (rs : List SackRange) (now : Instant) (c : RetransmissionContext),
      ∃ resent, m.AcksExactly n rs now c resent) ∧
    ∀ (m : RetransmissionManager) (n : ℕ) (rs : List SackRange) (now : Instant)
      (c : RetransmissionContext), m.Disjoint → m.AcksExactly n rs now c :=
  ⟨fun m n rs now c => m.acksExactly n rs now c, fun _ n rs now c h => h.acksExactly n rs now c⟩

section Sample

/-- A PUSH with the number 3 and a FIN with the number 5. -/
def twoKinds : RetransmissionManager :=
  ((new {}).addInFlightPacket (.newPush 1 3 0 0 0 [7]) 10).addInFlightPacket (.newFin 1 5 0 0 0) 20

theorem twoKinds_disjoint : twoKinds.Disjoint := by
  intro q
  by_cases hq : q = 3
  · right
    subst hq
    decide
  · left
    have hpush : twoKinds.sackManager.info? q =
        if 3 = q then some ⟨.push, 3, [7], none⟩ else (SackManager.new 3).info? q :=
      SackManager.info?_addInFlightPacket rfl rfl 10 q
    rw [hpush, if_neg (Ne.symm hq), SackManager.info?_new]

/-- The ranges overlap and go beyond what was sent. -/
theorem acknowledgment_exact_sample :
    twoKinds.AcksExactly 4 [⟨5, 9⟩, ⟨2, 5⟩] 100 ⟨0, 1, 1, 2, 0, 0⟩ :=
  acknowledgment_exact.2 twoKinds _ _ _ _ twoKinds_disjoint

end Sample

end RetransmissionManager

end Kestrel
