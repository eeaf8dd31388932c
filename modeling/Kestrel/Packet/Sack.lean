import Kestrel.Config
import Kestrel.Lib.BigEndian

/-! # Selective acknowledgment ranges

A range names consecutive sequence numbers, both ends included. The payload of an ACK frame is
the list of ranges, each end written as four big-endian bytes.
-/

namespace Kestrel

/-- A continuous range of acknowledged sequence numbers, both ends included. -/
structure SackRange where
  start : ℕ
  «end» : ℕ
  deriving DecidableEq, Repr

namespace SackRange

/-- The sequence numbers `start..=end` in increasing order. -/
def seqs (r : SackRange) : List ℕ := List.range' r.start (r.end + 1 - r.start)

@[simp] theorem mem_seqs {r : SackRange} {q : ℕ} : q ∈ r.seqs ↔ r.start ≤ q ∧ q ≤ r.end := by
  simp only [seqs, List.mem_range'_1]
  omega

/-- Both ends are values of the wire's 32-bit fields. -/
def Fits (r : SackRange) : Prop := r.start < u32Size ∧ r.end < u32Size

end SackRange

def encodeSackRanges : List SackRange → Bytes
  | [] => []
  | r :: rs => BigEndian.bytes 4 r.start ++ BigEndian.bytes 4 r.end ++ encodeSackRanges rs

/-- Ranges are read while eight bytes remain. -/
def decodeSackRanges : Bytes → List SackRange
  | a :: b :: c :: d :: e :: f :: g :: h :: rest =>
    ⟨BigEndian.value [a, b, c, d], BigEndian.value [e, f, g, h]⟩ :: decodeSackRanges rest
  | _ => []

theorem decodeSackRanges_append {l m : Bytes} (hl : l.length = 4) (hm : m.length = 4)
    (rest : Bytes) : decodeSackRanges (l ++ m ++ rest) =
      ⟨BigEndian.value l, BigEndian.value m⟩ :: decodeSackRanges rest := by
  match l, m, hl, hm with
  | [_, _, _, _], [_, _, _, _], _, _ => rfl

theorem decode_encodeSackRanges {rs : List SackRange} (h : ∀ r ∈ rs, r.Fits) :
    decodeSackRanges (encodeSackRanges rs) = rs := by
  induction rs with
  | nil => rfl
  | cons r rs ih =>
    obtain ⟨hs, he⟩ := h r (List.mem_cons_self ..)
    rw [encodeSackRanges, decodeSackRanges_append (by simp) (by simp),
      ih fun s hs => h s (List.mem_cons_of_mem _ hs),
      BigEndian.value_bytes_of_lt (by simpa using hs),
      BigEndian.value_bytes_of_lt (by simpa using he)]

@[simp] theorem length_encodeSackRanges (rs : List SackRange) :
    (encodeSackRanges rs).length = 8 * rs.length := by
  induction rs with
  | nil => rfl
  | cons r rs ih => simp [encodeSackRanges, ih]; omega

end Kestrel
