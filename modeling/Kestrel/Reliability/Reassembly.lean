import Kestrel.Lib.Fifo
import Kestrel.Reliability.Window

/-! # Exact reassembly

A receive buffer forgets what it has handed over and keeps ranges of what is waiting. The next
expected number and the ranges stand for all numbers that were accepted, and what was handed over
are the payloads up to the next expected number, whatever the order in which the packets came.
-/

namespace Kestrel

namespace ReceiveBuffer

variable {b : ReceiveBuffer}

section Ranges

theorem start_mem_of_mem_sackRangesOf {o : Option SackRange} {ks : List ℕ} {r : SackRange}
    (h : r ∈ sackRangesOf o ks) : (∃ s ∈ o, r.start = s.start) ∨ r.start ∈ ks := by
  induction ks generalizing o with
  | nil =>
    cases o with
    | none => simp [sackRangesOf] at h
    | some s =>
      rw [sackRangesOf, List.mem_singleton] at h
      exact Or.inl ⟨s, rfl, by rw [h]⟩
  | cons k ks ih =>
    cases o with
    | none =>
      rcases ih h with ⟨s, hs, he⟩ | hk
      · cases hs
        exact Or.inr (by simp [he])
      · exact Or.inr (List.mem_cons_of_mem _ hk)
    | some s =>
      rw [sackRangesOf] at h
      split at h
      · rcases ih h with ⟨s', hs, he⟩ | hk
        · cases hs
          exact Or.inl ⟨s, rfl, he⟩
        · exact Or.inr (List.mem_cons_of_mem _ hk)
      · rcases List.mem_cons.mp h with rfl | h
        · exact Or.inl ⟨r, rfl, rfl⟩
        · rcases ih h with ⟨s', hs, he⟩ | hk
          · cases hs
            exact Or.inr (by simp [he])
          · exact Or.inr (List.mem_cons_of_mem _ hk)

/-- There is a number between two ranges that is in neither. -/
def Apart (r s : SackRange) : Prop := r.end + 1 < s.start

theorem sackRangesOf_apart {o : Option SackRange} {ks : List ℕ} (hs : ks.Pairwise (· < ·))
    (ho : ∀ r ∈ o, r.start ≤ r.end ∧ ∀ k ∈ ks, r.end < k) (hk : ∀ k ∈ ks, k < u32Size) :
    (∀ r ∈ sackRangesOf o ks, r.start ≤ r.end) ∧ (sackRangesOf o ks).Pairwise Apart := by
  induction ks generalizing o with
  | nil =>
    cases o with
    | none => simp [sackRangesOf]
    | some r => simpa [sackRangesOf] using (ho r rfl).1
  | cons k ks ih =>
    obtain ⟨hlt, hs⟩ := List.pairwise_cons.mp hs
    have hks : ∀ q ∈ ks, q < u32Size := fun q hq => hk q (List.mem_cons_of_mem _ hq)
    cases o with
    | none =>
      refine ih hs ?_ hks
      rintro r ⟨⟩
      exact ⟨le_rfl, hlt⟩
    | some r =>
      obtain ⟨hr, hrk⟩ := ho r rfl
      have hrk' := hrk k List.mem_cons_self
      rw [sackRangesOf]
      split
      · refine ih hs ?_ hks
        rintro s ⟨⟩
        exact ⟨by dsimp only; omega, hlt⟩
      · rename_i hne
        have hnew : ∀ s ∈ (some ⟨k, k⟩ : Option SackRange), s.start ≤ s.end ∧
            ∀ q ∈ ks, s.end < q := by
          rintro s ⟨⟩
          exact ⟨le_rfl, hlt⟩
        obtain ⟨hends, hapart⟩ := ih hs hnew hks
        constructor
        · rintro s hs'
          rcases List.mem_cons.mp hs' with rfl | hs'
          · exact hr
          · exact hends s hs'
        · refine List.pairwise_cons.mpr ⟨?_, hapart⟩
          intro s hs'
          -- the range that is closed ends at least two numbers before the next one
          have hgap : r.end + 1 < k := by
            have hsize := hk k List.mem_cons_self
            have hmod : (r.end + 1) % u32Size = r.end + 1 := Nat.mod_eq_of_lt (by omega)
            omega
          rcases start_mem_of_mem_sackRangesOf hs' with ⟨s', hs'', he⟩ | hmem
          · cases hs''
            rw [Apart, he]
            exact hgap
          · exact hgap.trans (hlt _ hmem)

end Ranges

theorem reassembleLoop_of_open (h : b.reassemble.2.2.finReached = false) :
    ∃ data, reassembleLoop b.received.size b = (data, false, b.reassemble.2.2) ∧
      b.reassemble.1.getD [] = data := by
  have hspec := (reassemble_fin (b := b)).1
  rw [h] at hspec
  obtain ⟨hopen, hseen⟩ := Bool.or_eq_false_iff.mp hspec.symm
  unfold reassemble at hseen ⊢
  rw [hopen, if_neg Bool.false_ne_true] at hseen ⊢
  generalize reassembleLoop b.received.size b = r at hseen ⊢
  obtain ⟨data, finSeen, b'⟩ := r
  dsimp only at hseen ⊢
  refine ⟨data, by rw [hseen], ?_⟩
  split
  · exact (List.isEmpty_iff.mp ‹_›).symm
  · rfl

theorem getElem?_reassemble (h : b.reassemble.2.2.finReached = false)
    (hk : b.reassemble.2.2.KeysAhead) :
    b.reassemble.2.2.received[b.reassemble.2.2.nextSequence]? = none := by
  obtain ⟨data, hl, -⟩ := reassembleLoop_of_open h
  exact (tryPopNextContiguous_eq_none hk).mp (reassembleLoop_drained le_rfl hl)

/-- The packet that a call brings. -/
def Call.packet? : Call → Option (ℕ × PacketOrFin)
  | .receivePush q payload => some (q, .push payload)
  | .receiveFin q => some (q, .fin)
  | .reassemble => none

/-- The packets that a list of calls brings, in order. -/
def brought (calls : List Call) : List (ℕ × PacketOrFin) := calls.filterMap Call.packet?

end ReceiveBuffer

/-- A receive buffer with the packets that it said it accepted and the payloads that it handed
over, in order. -/
structure Reassembly where
  buffer : ReceiveBuffer
  accepted : List (ℕ × PacketOrFin)
  delivered : List Bytes

namespace Reassembly

open ReceiveBuffer

/-- What the answer to a received packet says. -/
def receive (x : Reassembly) (q : ℕ) (p : PacketOrFin) : Reassembly :=
  { x with
    buffer := (x.buffer.receive q p).2
    accepted := if (x.buffer.receive q p).1 then x.accepted ++ [(q, p)] else x.accepted }

def call (x : Reassembly) : Call → Reassembly
  | .receivePush q payload => x.receive q (.push payload)
  | .receiveFin q => x.receive q .fin
  | .reassemble =>
    { x with
      buffer := x.buffer.reassemble.2.2
      delivered := x.delivered ++ x.buffer.reassemble.1.getD [] }

/-- A new buffer after a list of calls. -/
def run (capacity : ℕ) (calls : List Call) : Reassembly := calls.foldl call ⟨.new capacity, [], []⟩

variable {x : Reassembly} {capacity : ℕ} {calls : List Call} {c : Call}

theorem run_concat : run capacity (calls ++ [c]) = (run capacity calls).call c := by
  simp [run]

theorem buffer_call : (x.call c).buffer = x.buffer.call c := by
  cases c <;> rfl

/-- The buffer records exactly what it accepted, keeps what is not handed over yet, and has handed
over all numbers below the next expected one in order. -/
structure Exact (x : Reassembly) : Prop where
  recorded_iff : ∀ q, x.buffer.Recorded q ↔ q ∈ x.accepted.map Prod.fst
  buffered : ∀ (q : ℕ) (p : PacketOrFin), x.buffer.received[q]? = some p → (q, p) ∈ x.accepted
  ahead : x.buffer.KeysAhead
  accepted_nodup : (x.accepted.map Prod.fst).Nodup
  length_eq : x.delivered.length = x.buffer.nextSequence
  delivered_mem : ∀ i p, x.delivered[i]? = some p → (i, .push p) ∈ x.accepted

theorem exact_new (capacity : ℕ) : Exact ⟨.new capacity, [], []⟩ := by
  constructor <;> simp [ReceiveBuffer.new, Recorded, KeysAhead]

theorem Exact.receive (h : x.Exact) (q : ℕ) (p : PacketOrFin) : (x.receive q p).Exact := by
  unfold Reassembly.receive
  rw [receive_fst]
  cases ha : x.buffer.accepts q with
  | false =>
    rw [receive_of_not_accepts ha, if_neg Bool.false_ne_true]
    exact h
  | true =>
    rw [if_pos rfl]
    obtain ⟨-, hnext, hnone⟩ := accepts_iff.mp ha
    have hfresh : q ∉ x.accepted.map Prod.fst := by
      rw [← h.recorded_iff]
      rintro (hlt | ⟨p', hp'⟩)
      · omega
      · rw [hnone] at hp'
        cases hp'
    constructor
    · intro k
      dsimp only
      rw [recorded_receive_iff ha, h.recorded_iff]
      simp [or_comm]
    · intro k p' hk
      rcases receive_getElem? hk with hk | ⟨rfl, rfl, -⟩
      · exact List.mem_append_left _ (h.buffered k p' hk)
      · simp
    · exact h.ahead.receive q p
    · rw [List.map_append, List.map_singleton, ← List.concat_eq_append]
      exact h.accepted_nodup.concat hfresh
    · dsimp only
      rw [receive_nextSequence]
      exact h.length_eq
    · intro i p' hi
      exact List.mem_append_left _ (h.delivered_mem i p' hi)

/-- The packet under the next expected number is handed over. -/
theorem Exact.pop (h : x.Exact) (hsize : ∀ e ∈ x.accepted, e.1 < u32Size - 1) {p : Bytes}
    {b' : ReceiveBuffer} (hp : x.buffer.tryPopNextContiguous = some (.push p, b')) :
    Exact ⟨b', x.accepted, x.delivered ++ [p]⟩ := by
  obtain ⟨hfirst, rfl⟩ := tryPopNextContiguous_eq_some.mp hp
  have hget := (SortedMap.first_eq_some_iff.mp hfirst).1
  have hmem := h.buffered _ _ hget
  have hmod : (x.buffer.nextSequence + 1) % u32Size = x.buffer.nextSequence + 1 := by
    have hlt := hsize _ hmem
    exact Nat.mod_eq_of_lt (by dsimp only at hlt; omega)
  have hlookup (q : ℕ) (p' : PacketOrFin) :
      (x.buffer.received.erase x.buffer.nextSequence)[q]? = some p' ↔
        x.buffer.nextSequence ≠ q ∧ x.buffer.received[q]? = some p' := by
    rw [SortedMap.getElem?_erase]
    split <;> simp [*]
  constructor
  · intro q
    rw [← h.recorded_iff, Recorded, Recorded]
    dsimp only
    simp only [hmod, hlookup]
    constructor
    · rintro (hlt | ⟨p', -, hp'⟩)
      · rcases Nat.lt_succ_iff_lt_or_eq.mp hlt with hlt | rfl
        · exact Or.inl hlt
        · exact Or.inr ⟨_, hget⟩
      · exact Or.inr ⟨p', hp'⟩
    · rintro (hlt | ⟨p', hp'⟩)
      · exact Or.inl (by omega)
      · by_cases he : x.buffer.nextSequence = q
        · exact Or.inl (by omega)
        · exact Or.inr ⟨p', he, hp'⟩
  · intro q p' hq
    exact h.buffered q p' ((hlookup q p').mp hq).2
  · intro q p' hq
    obtain ⟨hne, hq⟩ := (hlookup q p').mp hq
    have hle := h.ahead q p' hq
    dsimp only
    omega
  · exact h.accepted_nodup
  · dsimp only
    rw [hmod, List.length_append, h.length_eq]
    rfl
  · intro i p' hi
    rcases Fifo.getElem?_concat_eq_some.mp hi with hi | ⟨rfl, rfl⟩
    · exact h.delivered_mem i p' hi
    · rw [h.length_eq]
      exact hmem

theorem Exact.reassemble (h : x.Exact) (hsize : ∀ e ∈ x.accepted, e.1 < u32Size - 1)
    (hfin : (x.call .reassemble).buffer.finReached = false) : (x.call .reassemble).Exact := by
  obtain ⟨data, hl, hdata⟩ := reassembleLoop_of_open hfin
  have hstart : Exact ⟨x.buffer, x.accepted, x.delivered ++ []⟩ := by
    rw [List.append_nil]
    exact h
  rcases reassembleLoop_rule (fun d b => Exact ⟨b, x.accepted, x.delivered ++ d⟩)
      (fun d b p b' hd hp => by
        have hpop := hd.pop hsize hp
        rwa [List.append_assoc] at hpop)
      hstart hl with ⟨-, hd⟩ | ⟨hs, -⟩
  · rw [call, hdata]
    exact hd
  · cases hs

theorem finReached_of_call (h : (x.call c).buffer.finReached = false) :
    x.buffer.finReached = false := by
  rw [buffer_call] at h
  cases c with
  | receivePush q payload => exact (receive_finReached ..).symm.trans h
  | receiveFin q => exact (receive_finReached ..).symm.trans h
  | reassemble =>
    rw [ReceiveBuffer.call, (reassemble_fin (b := x.buffer)).1] at h
    exact (Bool.or_eq_false_iff.mp h).1

theorem brought_concat : brought (calls ++ [c]) = brought calls ++ c.packet?.toList := by
  rw [brought, List.filterMap_append, brought]
  cases hc : c.packet? <;> simp [hc]

theorem brought_of_accepted {e : ℕ × PacketOrFin} (h : e ∈ (run capacity calls).accepted) :
    e ∈ brought calls := by
  induction calls using List.reverseRecOn with
  | nil => cases h
  | append_singleton calls c ih =>
    rw [run_concat] at h
    rw [brought_concat, List.mem_append]
    have hreceive {q : ℕ} {p : PacketOrFin}
        (h : e ∈ ((run capacity calls).receive q p).accepted) :
        e ∈ brought calls ∨ e ∈ (some (q, p)).toList := by
      unfold Reassembly.receive at h
      dsimp only at h
      split at h
      · rcases List.mem_append.mp h with h | h
        · exact Or.inl (ih h)
        · exact Or.inr h
      · exact Or.inl (ih h)
    cases c with
    | receivePush q payload => exact hreceive h
    | receiveFin q => exact hreceive h
    | reassemble => exact Or.inl (ih h)

theorem Exact.accepted_of_receive (h : x.Exact) (hfin : x.buffer.finReached = false) (q : ℕ)
    (p : PacketOrFin) : q ∈ (x.receive q p).accepted.map Prod.fst := by
  unfold Reassembly.receive
  rw [receive_fst]
  cases ha : x.buffer.accepts q with
  | true => simp
  | false =>
    rw [if_neg Bool.false_ne_true, ← h.recorded_iff]
    by_contra hr
    rw [Recorded, not_or, not_lt] at hr
    have hnone : x.buffer.received[q]? = none :=
      Option.eq_none_iff_forall_ne_some.mpr fun p' hp' => hr.2 ⟨p', hp'⟩
    rw [accepts_iff.mpr ⟨hfin, hr.1, hnone⟩] at ha
    cases ha

theorem accepted_receive_mono {q k : ℕ} (p : PacketOrFin) (h : k ∈ x.accepted.map Prod.fst) :
    k ∈ (x.receive q p).accepted.map Prod.fst := by
  unfold Reassembly.receive
  dsimp only
  split
  · rw [List.map_append]
    exact List.mem_append_left _ h
  · exact h

theorem exact_run (hfin : (run capacity calls).buffer.finReached = false)
    (hsize : ∀ e ∈ brought calls, e.1 < u32Size - 1) : (run capacity calls).Exact ∧
      ∀ e ∈ brought calls, e.1 ∈ (run capacity calls).accepted.map Prod.fst := by
  induction calls using List.reverseRecOn with
  | nil => exact ⟨exact_new capacity, by simp [brought]⟩
  | append_singleton calls c ih =>
    rw [run_concat] at hfin ⊢
    simp only [brought_concat, List.mem_append] at hsize ⊢
    have hopen := finReached_of_call hfin
    obtain ⟨hx, hall⟩ := ih hopen fun e he => hsize e (Or.inl he)
    have hreceive (q : ℕ) (p : PacketOrFin) : ((run capacity calls).receive q p).Exact ∧
        ∀ e, e ∈ brought calls ∨ e ∈ (some (q, p)).toList →
          e.1 ∈ ((run capacity calls).receive q p).accepted.map Prod.fst := by
      refine ⟨hx.receive q p, ?_⟩
      rintro e (he | he)
      · exact accepted_receive_mono p (hall e he)
      · rw [Option.toList_some, List.mem_singleton] at he
        subst he
        exact hx.accepted_of_receive hopen q p
    cases c with
    | receivePush q payload => exact hreceive q _
    | receiveFin q => exact hreceive q _
    | reassemble =>
      refine ⟨hx.reassemble (fun e he => hsize e (Or.inl (brought_of_accepted he))) hfin, ?_⟩
      rintro e (he | he)
      · exact hall e he
      · cases he

/-- The next expected number and the ranges stand for the accepted numbers, each accepted once; the
ranges are apart from each other and do not begin below the next expected number; the payloads up
to it were handed over in order. -/
structure Reassembles (x : Reassembly) : Prop where
  covered_iff : ∀ q, x.buffer.Covered q ↔ q ∈ x.accepted.map Prod.fst
  accepted_nodup : (x.accepted.map Prod.fst).Nodup
  ranges_apart : x.buffer.getSackRanges.Pairwise Apart
  ranges_ahead : ∀ r ∈ x.buffer.getSackRanges, x.buffer.nextSequence ≤ r.start ∧ r.start ≤ r.end
  keys_ahead : x.buffer.KeysAhead
  length_eq : x.delivered.length = x.buffer.nextSequence
  delivered_mem : ∀ i p, x.delivered[i]? = some p → (i, .push p) ∈ x.accepted

theorem Exact.start_buffered (h : x.Exact) (hsize : ∀ e ∈ x.accepted, e.1 < u32Size - 1)
    {r : SackRange} (hr : r ∈ x.buffer.getSackRanges) :
    r.start ≤ r.end ∧ ∃ p, x.buffer.received[r.start]? = some p := by
  have hkeys : ∀ k ∈ x.buffer.received.keys, k < u32Size := by
    intro k hk
    obtain ⟨p, hp⟩ := SortedMap.mem_keys.mp hk
    have hlt := hsize _ (h.buffered k p hp)
    dsimp only at hlt
    omega
  refine ⟨(sackRangesOf_apart (SortedMap.keys_sorted _) (by simp) hkeys).1 r hr, ?_⟩
  rcases start_mem_of_mem_sackRangesOf hr with ⟨s, hs, -⟩ | hk
  · cases hs
  · exact SortedMap.mem_keys.mp hk

theorem Exact.reassembles (h : x.Exact) (hsize : ∀ e ∈ x.accepted, e.1 < u32Size - 1) :
    x.Reassembles where
  covered_iff q := ReceiveBuffer.covered_iff.trans (h.recorded_iff q)
  accepted_nodup := h.accepted_nodup
  ranges_apart := by
    refine (sackRangesOf_apart (SortedMap.keys_sorted _) (by simp) ?_).2
    intro k hk
    obtain ⟨p, hp⟩ := SortedMap.mem_keys.mp hk
    have hlt := hsize _ (h.buffered k p hp)
    dsimp only at hlt
    omega
  ranges_ahead r hr := by
    obtain ⟨hle, p, hp⟩ := h.start_buffered hsize hr
    exact ⟨h.ahead r.start p hp, hle⟩
  keys_ahead := h.ahead
  length_eq := h.length_eq
  delivered_mem := h.delivered_mem

theorem Exact.next_lt_start (h : x.Exact) (hsize : ∀ e ∈ x.accepted, e.1 < u32Size - 1)
    (hnone : x.buffer.received[x.buffer.nextSequence]? = none) {r : SackRange}
    (hr : r ∈ x.buffer.getSackRanges) : x.buffer.nextSequence < r.start := by
  obtain ⟨-, p, hp⟩ := h.start_buffered hsize hr
  refine lt_of_le_of_ne (h.ahead r.start p hp) ?_
  intro he
  rw [← he, hnone] at hp
  cases hp

/-- Buffers that accepted packets with the same numbers, and have nothing contiguous left, have
handed over the same. -/
theorem Exact.delivered_eq {y : Reassembly} (hx : x.Exact) (hy : y.Exact)
    (hxn : x.buffer.received[x.buffer.nextSequence]? = none)
    (hyn : y.buffer.received[y.buffer.nextSequence]? = none)
    (hnumbers : ∀ q, q ∈ x.accepted.map Prod.fst ↔ q ∈ y.accepted.map Prod.fst)
    (hsame : ∀ q p p', (q, p) ∈ x.accepted → (q, p') ∈ y.accepted → p = p') :
    x.delivered = y.delivered := by
  have hle {x y : Reassembly} (hx : x.Exact) (hy : y.Exact)
      (hxn : x.buffer.received[x.buffer.nextSequence]? = none)
      (hnumbers : ∀ q, q ∈ x.accepted.map Prod.fst ↔ q ∈ y.accepted.map Prod.fst) :
      y.buffer.nextSequence ≤ x.buffer.nextSequence := by
    by_contra hlt
    have hr : x.buffer.Recorded x.buffer.nextSequence := by
      rw [hx.recorded_iff, hnumbers, ← hy.recorded_iff]
      exact Or.inl (not_le.mp hlt)
    rcases hr with hr | ⟨p, hp⟩
    · exact lt_irrefl _ hr
    · rw [hxn] at hp
      cases hp
  have hnext : x.buffer.nextSequence = y.buffer.nextSequence :=
    le_antisymm (hle hy hx hyn fun q => (hnumbers q).symm) (hle hx hy hxn hnumbers)
  have hlen : x.delivered.length = y.delivered.length := by
    rw [hx.length_eq, hy.length_eq, hnext]
  apply List.ext_getElem hlen
  intro i hi hi'
  have hp := hx.delivered_mem i _ (List.getElem?_eq_getElem hi)
  have hp' := hy.delivered_mem i _ (List.getElem?_eq_getElem hi')
  exact PacketOrFin.push.inj (hsame i _ _ hp hp')

/-- What a reassembly leaves: nothing contiguous, and everything that was brought is accepted. -/
theorem exact_run_reassemble
    (hfin : (run capacity (calls ++ [.reassemble])).buffer.finReached = false)
    (hsize : ∀ e ∈ brought calls, e.1 < u32Size - 1) :
    (run capacity (calls ++ [.reassemble])).Exact ∧
      (run capacity (calls ++ [.reassemble])).buffer.received[
        (run capacity (calls ++ [.reassemble])).buffer.nextSequence]? = none ∧
      ∀ e, (e ∈ (run capacity (calls ++ [.reassemble])).accepted → e ∈ brought calls) ∧
        (e ∈ brought calls →
          e.1 ∈ (run capacity (calls ++ [.reassemble])).accepted.map Prod.fst) := by
  have hbrought : brought (calls ++ [.reassemble]) = brought calls := by
    rw [brought_concat]
    exact List.append_nil _
  obtain ⟨hx, hall⟩ := exact_run hfin (by rwa [hbrought])
  rw [hbrought] at hall
  refine ⟨hx, ?_, fun e => ⟨fun he => hbrought ▸ brought_of_accepted he, hall e⟩⟩
  have hahead := hx.ahead
  rw [run_concat] at hfin hahead ⊢
  exact getElem?_reassemble hfin hahead

/-- As long as no FIN is reached and the numbers are below the last one of 32 bits, a receive buffer
reassembles exactly. After a reassembly the ranges are above the next expected number, and two
orders of the same packets, with one content for a number, deliver the same. -/
theorem reassembly_exact (capacity : ℕ) :
    (∀ calls, (run capacity calls).buffer.finReached = false →
      (∀ e ∈ brought calls, e.1 < u32Size - 1) → (run capacity calls).Reassembles) ∧
    (∀ calls, (run capacity (calls ++ [.reassemble])).buffer.finReached = false →
      (∀ e ∈ brought calls, e.1 < u32Size - 1) →
      ∀ r ∈ (run capacity (calls ++ [.reassemble])).buffer.getSackRanges,
        (run capacity (calls ++ [.reassemble])).buffer.nextSequence < r.start) ∧
    ∀ calls calls', (run capacity (calls ++ [.reassemble])).buffer.finReached = false →
      (run capacity (calls' ++ [.reassemble])).buffer.finReached = false →
      (∀ e ∈ brought calls, e.1 < u32Size - 1) →
      (∀ e, e ∈ brought calls ↔ e ∈ brought calls') →
      (∀ q p p', (q, p) ∈ brought calls → (q, p') ∈ brought calls → p = p') →
        (run capacity (calls ++ [.reassemble])).delivered =
          (run capacity (calls' ++ [.reassemble])).delivered := by
  refine ⟨?_, ?_, ?_⟩
  · intro calls hfin hsize
    exact (exact_run hfin hsize).1.reassembles fun e he => hsize e (brought_of_accepted he)
  · intro calls hfin hsize r hr
    obtain ⟨hx, hnone, hiff⟩ := exact_run_reassemble hfin hsize
    exact hx.next_lt_start (fun e he => hsize e ((hiff e).1 he)) hnone hr
  · intro calls calls' hfin hfin' hsize hbrought hone
    obtain ⟨hx, hnone, hiff⟩ := exact_run_reassemble hfin hsize
    obtain ⟨hy, hnone', hiff'⟩ :=
      exact_run_reassemble hfin' fun e he => hsize e ((hbrought e).mpr he)
    apply hx.delivered_eq hy hnone hnone'
    · intro q
      constructor
      · intro hq
        obtain ⟨e, he, rfl⟩ := List.mem_map.mp hq
        exact (hiff' e).2 ((hbrought e).mp ((hiff e).1 he))
      · intro hq
        obtain ⟨e, he, rfl⟩ := List.mem_map.mp hq
        exact (hiff e).2 ((hbrought e).mpr ((hiff' e).1 he))
    · intro q p p' hp hp'
      exact hone q p p' ((hiff _).1 hp) ((hbrought _).mpr ((hiff' _).1 hp'))

section Sample

/-- Packets come out of order, one of them twice. -/
def shuffledCalls : List Call :=
  [.receivePush 2 [30], .receivePush 0 [10], .reassemble, .receivePush 2 [30],
    .receivePush 1 [20]]

theorem reassembly_exact_sample : (run 4 shuffledCalls).Reassembles ∧
    (∀ r ∈ (run 4 (shuffledCalls ++ [.reassemble])).buffer.getSackRanges,
      (run 4 (shuffledCalls ++ [.reassemble])).buffer.nextSequence < r.start) ∧
    (run 4 (shuffledCalls ++ [.reassemble])).delivered =
      (run 4 (shuffledCalls.reverse ++ [.reassemble])).delivered :=
  ⟨(reassembly_exact 4).1 _ (by decide) (by decide),
    (reassembly_exact 4).2.1 _ (by decide) (by decide),
    (reassembly_exact 4).2.2 _ _ (by decide) (by decide) (by decide)
      (fun e => by rw [brought, brought, List.filterMap_reverse, List.mem_reverse])
      (by
        intro q p p' hp hp'
        simp [brought, shuffledCalls, Call.packet?] at hp hp'
        aesop)⟩

/-- A packet under the next expected number waits for the next reassembly, and a range begins at its
number. -/
theorem range_at_next : ¬ ∀ (capacity : ℕ) (calls : List Call),
    (run capacity calls).buffer.finReached = false →
    (∀ e ∈ brought calls, e.1 < u32Size - 1) →
      ∀ r ∈ (run capacity calls).buffer.getSackRanges,
        (run capacity calls).buffer.nextSequence < r.start := by
  intro h
  have hlt := h 4 [.receivePush 0 [10]] (by decide) (by decide) ⟨0, 0⟩ (by decide)
  revert hlt
  decide

end Sample

end Reassembly

end Kestrel
