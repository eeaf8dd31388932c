import Kestrel.Packet.Sack
import Kestrel.Lib.SortedMap

/-! # Receive buffer

Packets arrive in any order and wait under their sequence number. Reassembly hands over the
contiguous prefix and stops for good at a FIN. The selective acknowledgment ranges name exactly
the buffered sequence numbers.
-/

namespace Kestrel

open Std (ExtTreeMap)

/-- The content of a received packet. -/
inductive PacketOrFin where
  | push (payload : Bytes)
  | fin
  deriving DecidableEq, Repr

structure ReceiveBuffer where
  nextSequence : ℕ
  received : ExtTreeMap ℕ PacketOrFin
  capacity : ℕ
  finReached : Bool

namespace ReceiveBuffer

variable (b : ReceiveBuffer)

def new (capacityPackets : ℕ) : ReceiveBuffer := ⟨0, ∅, capacityPackets, false⟩

/-- The available receive window in packets, as a 16-bit number. -/
def windowSize : ℕ := (b.capacity - b.received.size) % u16Size

def isEmpty : Bool := b.received.isEmpty

/-- The test shared by data and FIN: the sequence number is new to this buffer. -/
def accepts (sequenceNumber : ℕ) : Bool :=
  !(b.finReached || decide (sequenceNumber < b.nextSequence)) &&
    b.received[sequenceNumber]?.isNone

/-- Stores a packet under a new sequence number; says whether it did. -/
def receive (sequenceNumber : ℕ) (p : PacketOrFin) : Bool × ReceiveBuffer :=
  if b.accepts sequenceNumber then
    (true, { b with received := b.received.insert sequenceNumber p })
  else (false, b)

def receivePush (sequenceNumber : ℕ) (payload : Bytes) : Bool × ReceiveBuffer :=
  b.receive sequenceNumber (.push payload)

def receiveFin (sequenceNumber : ℕ) : Bool × ReceiveBuffer :=
  b.receive sequenceNumber .fin

def tryPopNextContiguous : Option (PacketOrFin × ReceiveBuffer) :=
  match SortedMap.first b.received with
  | some (seq, packet) =>
    if seq = b.nextSequence then
      some (packet,
        { b with
          nextSequence := (b.nextSequence + 1) % u32Size
          received := b.received.erase seq })
    else none
  | none => none

/-- The loop of `reassemble`: the data collected, whether a FIN ended it, and the buffer left.
Each round removes a packet, so as many rounds as packets are enough. -/
def reassembleLoop : ℕ → ReceiveBuffer → List Bytes × Bool × ReceiveBuffer
  | 0, b => ([], false, b)
  | rounds + 1, b =>
    match b.tryPopNextContiguous with
    | some (.push payload, b') =>
      let (data, finSeen, b'') := reassembleLoop rounds b'
      (payload :: data, finSeen, b'')
    | some (.fin, b') => ([], true, { b' with finReached := true, received := ∅ })
    | none => ([], false, b)

/-- The contiguous payloads, if any, and whether the FIN was met. -/
def reassemble : Option (List Bytes) × Bool × ReceiveBuffer :=
  if b.finReached then (none, false, b)
  else
    let (data, finSeen, b') := reassembleLoop b.received.size b
    (if data.isEmpty then none else some data, finSeen, b')

/-- The ranges of an increasing list of sequence numbers, given the range still open. -/
def sackRangesOf : Option SackRange → List ℕ → List SackRange
  | none, [] => []
  | some r, [] => [r]
  | none, q :: qs => sackRangesOf (some ⟨q, q⟩) qs
  | some r, q :: qs =>
    if q = (r.end + 1) % u32Size then sackRangesOf (some ⟨r.start, q⟩) qs
    else r :: sackRangesOf (some ⟨q, q⟩) qs

def getSackRanges : List SackRange := sackRangesOf none b.received.keys

/-- The sequence number has been handed over or is buffered. -/
def Recorded (q : ℕ) : Prop := q < b.nextSequence ∨ ∃ p, b.received[q]? = some p

/-- The sequence number is named by the acknowledgment information of this buffer. -/
def Covered (q : ℕ) : Prop := q < b.nextSequence ∨ ∃ r ∈ b.getSackRanges, q ∈ r.seqs

/-- No packet below the next expected one is kept. -/
def KeysAhead : Prop := ∀ q p, b.received[q]? = some p → b.nextSequence ≤ q

variable {b}

theorem accepts_iff {q : ℕ} : b.accepts q = true ↔
    b.finReached = false ∧ b.nextSequence ≤ q ∧ b.received[q]? = none := by
  simp [accepts, Option.isNone_iff_eq_none, and_assoc]

theorem receive_of_accepts {q : ℕ} (h : b.accepts q = true) (p : PacketOrFin) :
    b.receive q p = (true, { b with received := b.received.insert q p }) := by
  rw [receive, if_pos h]

theorem receive_of_not_accepts {q : ℕ} (h : b.accepts q = false) (p : PacketOrFin) :
    b.receive q p = (false, b) := by
  rw [receive, if_neg (by simp [h])]

@[simp] theorem receive_fst (q : ℕ) (p : PacketOrFin) : (b.receive q p).1 = b.accepts q := by
  cases h : b.accepts q
  · rw [receive_of_not_accepts h]
  · rw [receive_of_accepts h]

@[simp] theorem receive_nextSequence (q : ℕ) (p : PacketOrFin) :
    (b.receive q p).2.nextSequence = b.nextSequence := by
  unfold receive
  split <;> rfl

@[simp] theorem receive_finReached (q : ℕ) (p : PacketOrFin) :
    (b.receive q p).2.finReached = b.finReached := by
  unfold receive
  split <;> rfl

@[simp] theorem receive_capacity (q : ℕ) (p : PacketOrFin) :
    (b.receive q p).2.capacity = b.capacity := by
  unfold receive
  split <;> rfl

theorem receive_getElem? {q k : ℕ} {p p' : PacketOrFin}
    (h : (b.receive q p).2.received[k]? = some p') :
    b.received[k]? = some p' ∨ (k = q ∧ p' = p ∧ b.accepts q = true) := by
  cases ha : b.accepts q
  · rw [receive_of_not_accepts ha] at h
    exact Or.inl h
  · rw [receive_of_accepts ha] at h
    rw [SortedMap.getElem?_insert] at h
    split at h
    · exact Or.inr ⟨‹q = k›.symm, (Option.some.inj h).symm, rfl⟩
    · exact Or.inl h

theorem receive_keeps {q k : ℕ} {p p' : PacketOrFin} (h : b.received[k]? = some p') :
    (b.receive q p).2.received[k]? = some p' := by
  cases ha : b.accepts q
  · rwa [receive_of_not_accepts ha]
  · rw [receive_of_accepts ha, SortedMap.getElem?_insert]
    have hn := (accepts_iff.mp ha).2.2
    split
    · rename_i hq
      rw [hq, h] at hn
      cases hn
    · exact h

theorem recorded_receive_iff {q k : ℕ} (ha : b.accepts k = true) (p : PacketOrFin) :
    (b.receive k p).2.Recorded q ↔ q = k ∨ b.Recorded q := by
  rw [receive_of_accepts ha]
  simp only [Recorded, SortedMap.getElem?_insert]
  by_cases hq : q = k
  · simp [hq]
  · simp [hq, Ne.symm hq]

theorem KeysAhead.receive (h : b.KeysAhead) (q : ℕ) (p : PacketOrFin) :
    (b.receive q p).2.KeysAhead := by
  intro k p' hk
  rw [receive_nextSequence]
  rcases receive_getElem? hk with hk | ⟨rfl, -, ha⟩
  · exact h k p' hk
  · exact (accepts_iff.mp ha).2.1

theorem tryPopNextContiguous_eq_some {p : PacketOrFin} {b' : ReceiveBuffer} :
    b.tryPopNextContiguous = some (p, b') ↔
      SortedMap.first b.received = some (b.nextSequence, p) ∧
        b' = { b with
          nextSequence := (b.nextSequence + 1) % u32Size
          received := b.received.erase b.nextSequence } := by
  unfold tryPopNextContiguous
  split
  · rename_i seq packet hf
    rw [hf]
    split
    · rename_i hs
      subst hs
      simp only [Option.some.injEq, Prod.mk.injEq, true_and, eq_comm]
    · rename_i hs
      simp [hs]
  · rename_i hf
    simp [hf]

theorem tryPopNextContiguous_eq_none (hk : b.KeysAhead) :
    b.tryPopNextContiguous = none ↔ b.received[b.nextSequence]? = none := by
  constructor
  · intro h
    by_contra hn
    obtain ⟨p, hp⟩ := Option.ne_none_iff_exists'.mp hn
    have hf : SortedMap.first b.received = some (b.nextSequence, p) :=
      SortedMap.first_eq_some_iff.mpr ⟨hp, hk⟩
    rw [tryPopNextContiguous_eq_some.mpr ⟨hf, rfl⟩] at h
    cases h
  · intro h
    by_contra hn
    obtain ⟨⟨p, b'⟩, hp⟩ := Option.ne_none_iff_exists'.mp hn
    have hf := (SortedMap.first_eq_some_iff.mp (tryPopNextContiguous_eq_some.mp hp).1).1
    rw [h] at hf
    cases hf

/-- Whatever every single pop of data preserves holds when the loop of `reassemble` ends; if a
FIN ended it, it holds just before the FIN was taken out. -/
theorem reassembleLoop_rule (Inv : List Bytes → ReceiveBuffer → Prop)
    (hpush : ∀ d b p b', Inv d b → b.tryPopNextContiguous = some (.push p, b') →
      Inv (d ++ [p]) b') {n : ℕ} {d data : List Bytes} {b b' : ReceiveBuffer} {finSeen : Bool}
    (h0 : Inv d b) (h : reassembleLoop n b = (data, finSeen, b')) :
    (finSeen = false ∧ Inv (d ++ data) b') ∨
      (finSeen = true ∧ ∃ b₁ b₂, Inv (d ++ data) b₁ ∧
        b₁.tryPopNextContiguous = some (.fin, b₂) ∧
        b' = { b₂ with finReached := true, received := ∅ }) := by
  induction n generalizing d data b with
  | zero =>
    obtain ⟨rfl, rfl, rfl⟩ := h
    exact Or.inl ⟨rfl, by rwa [List.append_nil]⟩
  | succ n ih =>
    rw [reassembleLoop] at h
    split at h
    · rename_i payload b₁ hp
      generalize hl : reassembleLoop n b₁ = r at h
      obtain ⟨data', fin', b₂⟩ := r
      obtain ⟨rfl, rfl, rfl⟩ := h
      have hi := ih (hpush _ _ _ _ h0 hp) hl
      simpa only [List.append_assoc, List.singleton_append] using hi
    · rename_i b₁ hp
      obtain ⟨rfl, rfl, rfl⟩ := h
      exact Or.inr ⟨rfl, b, b₁, by rwa [List.append_nil], hp, rfl⟩
    · obtain ⟨rfl, rfl, rfl⟩ := h
      exact Or.inl ⟨rfl, by rwa [List.append_nil]⟩

/-- The loop has enough rounds: if no FIN ended it, nothing contiguous is left. -/
theorem reassembleLoop_drained {n : ℕ} {data : List Bytes} {b b' : ReceiveBuffer}
    (hn : b.received.size ≤ n) (h : reassembleLoop n b = (data, false, b')) :
    b'.tryPopNextContiguous = none := by
  induction n generalizing data b with
  | zero =>
    obtain ⟨-, -, rfl⟩ := h
    have hf : SortedMap.first b'.received = none :=
      SortedMap.first_eq_none_iff.mpr (SortedMap.size_eq_zero_iff.mp (by omega))
    simp only [tryPopNextContiguous, hf]
  | succ n ih =>
    rw [reassembleLoop] at h
    split at h
    · rename_i payload b₁ hp
      generalize hl : reassembleLoop n b₁ = r at h
      obtain ⟨data', fin', b₂⟩ := r
      obtain ⟨rfl, rfl, rfl⟩ := h
      refine ih ?_ hl
      obtain ⟨hf, rfl⟩ := tryPopNextContiguous_eq_some.mp hp
      have hc : b.received.contains b.nextSequence = true := by
        rw [ExtTreeMap.contains_eq_isSome_getElem?, (SortedMap.first_eq_some_iff.mp hf).1]
        rfl
      simp only [ExtTreeMap.size_erase, hc, if_true]
      omega
    · cases h
    · obtain ⟨-, -, rfl⟩ := h
      assumption

/-- What every single pop and the discarding of what follows a FIN keep, reassembly keeps. -/
theorem reassemble_rule {P : ReceiveBuffer → Prop}
    (hpop : ∀ c p c', P c → c.tryPopNextContiguous = some (p, c') → P c')
    (hclear : ∀ c, P c → P { c with finReached := true, received := ∅ }) (h : P b) :
    P b.reassemble.2.2 := by
  unfold reassemble
  split
  · exact h
  · generalize hl : reassembleLoop b.received.size b = r
    obtain ⟨data, finSeen, b'⟩ := r
    rcases reassembleLoop_rule (fun _ c => P c) (fun _ c p c' hc => hpop c (.push p) c' hc)
      (d := []) h hl with ⟨-, hc⟩ | ⟨-, b₁, b₂, hc, hp, rfl⟩
    · exact hc
    · exact hclear b₂ (hpop b₁ .fin b₂ hc hp)

/-- Reassembly has reached the FIN if it had before or reaches it now; when it reaches it,
nothing stays buffered. -/
theorem reassemble_fin :
    b.reassemble.2.2.finReached = (b.finReached || b.reassemble.2.1) ∧
      (b.reassemble.2.1 = true → b.finReached = false ∧ b.reassemble.2.2.received = ∅) := by
  unfold reassemble
  split
  · rename_i hf
    simp [hf]
  · rename_i hf
    rw [Bool.not_eq_true] at hf
    generalize hl : reassembleLoop b.received.size b = r
    obtain ⟨data, finSeen, b'⟩ := r
    have hpop (d : List Bytes) (c : ReceiveBuffer) (p : Bytes) (c' : ReceiveBuffer)
        (hc : c.finReached = false) (hp : c.tryPopNextContiguous = some (.push p, c')) :
        c'.finReached = false := by
      obtain ⟨-, rfl⟩ := tryPopNextContiguous_eq_some.mp hp
      exact hc
    rcases reassembleLoop_rule (fun _ c => c.finReached = false) hpop (d := []) hf hl with
      ⟨rfl, hc⟩ | ⟨rfl, b₁, b₂, -, -, rfl⟩
    · simp [hf, hc]
    · simp [hf]

/-- After reassembly there is nothing left to reassemble. -/
theorem reassemble_reassemble :
    b.reassemble.2.2.reassemble = (none, false, b.reassemble.2.2) := by
  have hdrained {c : ReceiveBuffer} (hc : c.tryPopNextContiguous = none) :
      c.reassemble = (none, false, c) := by
    unfold reassemble
    split
    · rfl
    · cases hn : c.received.size with
      | zero => rfl
      | succ n =>
        rw [reassembleLoop, hc]
        rfl
  have hend {c : ReceiveBuffer} (hc : c.finReached = true) : c.reassemble = (none, false, c) :=
    if_pos hc
  cases hf : b.finReached with
  | true =>
    rw [hend hf]
    exact hend hf
  | false =>
    generalize hl : reassembleLoop b.received.size b = r
    obtain ⟨data, finSeen, b'⟩ := r
    have he : b.reassemble = (if data.isEmpty then none else some data, finSeen, b') := by
      rw [reassemble, hf, hl]
      rfl
    have hfin : b'.finReached = finSeen := by
      have hspec := (reassemble_fin (b := b)).1
      rw [he, hf] at hspec
      exact hspec
    rw [he]
    cases finSeen with
    | true => exact hend hfin
    | false => exact hdrained (reassembleLoop_drained le_rfl hl)

theorem mem_sackRangesOf {o : Option SackRange} {ks : List ℕ} (hs : ks.Pairwise (· < ·))
    (ho : ∀ r ∈ o, r.start ≤ r.end ∧ ∀ k ∈ ks, r.end < k) {q : ℕ} :
    (∃ r ∈ sackRangesOf o ks, q ∈ r.seqs) ↔ (∃ r ∈ o, q ∈ r.seqs) ∨ q ∈ ks := by
  induction ks generalizing o with
  | nil => cases o <;> simp [sackRangesOf]
  | cons k ks ih =>
    obtain ⟨hk, hs⟩ := List.pairwise_cons.mp hs
    cases o with
    | none =>
      rw [sackRangesOf, ih hs (by rintro r ⟨⟩; exact ⟨le_rfl, hk⟩)]
      simp only [Option.mem_def, Option.some.injEq, exists_eq_left', SackRange.mem_seqs,
        List.mem_cons, reduceCtorEq, false_and, exists_false, false_or, ← le_antisymm_iff,
        eq_comm (a := k)]
    | some r =>
      obtain ⟨hr, hlt⟩ := ho r rfl
      have hrk := hlt k (List.mem_cons_self ..)
      rw [sackRangesOf]
      split
      · rename_i he
        have hke : k = r.end + 1 := by
          have := Nat.mod_le (r.end + 1) u32Size
          omega
        rw [ih hs (by rintro _ ⟨⟩; exact ⟨by dsimp only; omega, hk⟩)]
        simp only [Option.mem_def, Option.some.injEq, exists_eq_left', SackRange.mem_seqs,
          List.mem_cons]
        rw [← or_assoc]
        apply or_congr_left
        omega
      · simp only [List.mem_cons, exists_eq_or_imp]
        rw [ih hs (by rintro _ ⟨⟩; exact ⟨le_rfl, hk⟩)]
        simp only [Option.mem_def, Option.some.injEq, exists_eq_left', SackRange.mem_seqs,
          ← le_antisymm_iff, eq_comm (a := k)]

/-- The acknowledgment ranges name exactly the buffered sequence numbers. -/
theorem mem_getSackRanges {q : ℕ} :
    (∃ r ∈ b.getSackRanges, q ∈ r.seqs) ↔ ∃ p, b.received[q]? = some p := by
  rw [getSackRanges, mem_sackRangesOf (SortedMap.keys_sorted _) (by simp), SortedMap.mem_keys]
  simp

theorem covered_iff {q : ℕ} : b.Covered q ↔ b.Recorded q := by
  rw [Covered, Recorded, mem_getSackRanges]

theorem sackRangesOf_fits {o : Option SackRange} {ks : List ℕ} (ho : ∀ r ∈ o, r.Fits)
    (hk : ∀ k ∈ ks, k < u32Size) : ∀ r ∈ sackRangesOf o ks, r.Fits := by
  induction ks generalizing o with
  | nil => cases o <;> simp_all [sackRangesOf]
  | cons k ks ih =>
    have hk' := fun q hq => hk q (List.mem_cons_of_mem _ hq)
    have hkk := hk k (List.mem_cons_self ..)
    cases o with
    | none => exact ih (by rintro r ⟨⟩; exact ⟨hkk, hkk⟩) hk'
    | some r =>
      have hr := ho r rfl
      rw [sackRangesOf]
      split
      · exact ih (by rintro _ ⟨⟩; exact ⟨hr.1, hkk⟩) hk'
      · rintro s hs
        rcases List.mem_cons.mp hs with rfl | hs
        · exact hr
        · exact ih (by rintro _ ⟨⟩; exact ⟨hkk, hkk⟩) hk' s hs

theorem getSackRanges_fits (h : ∀ q p, b.received[q]? = some p → q < u32Size) :
    ∀ r ∈ b.getSackRanges, r.Fits := by
  refine sackRangesOf_fits (by simp) fun k hk => ?_
  obtain ⟨p, hp⟩ := SortedMap.mem_keys.mp hk
  exact h k p hp

end ReceiveBuffer

end Kestrel
