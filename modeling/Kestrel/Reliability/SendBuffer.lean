import Mathlib.Algebra.Order.Ring.Nat
import Kestrel.Config

/-! # Send buffer

The user's bytes wait here, one chunk per write, until they are packetized. A write keeps what
fits and reports how much that was. The bytes cut off by `createChunk` followed by the bytes
that stay are the bytes that were there.
-/

namespace Kestrel

structure SendBuffer where
  streamBuffer : List Bytes
  streamBufferSize : ℕ
  streamBufferCapacity : ℕ
  deriving DecidableEq, Repr

namespace SendBuffer

variable (b : SendBuffer)

def new (capacityBytes : ℕ) : SendBuffer := ⟨[], 0, capacityBytes⟩

/-- The bytes waiting to be packetized, in order. -/
def bytes : Bytes := b.streamBuffer.flatten

/-- The recorded size is the number of waiting bytes and is within the capacity. -/
structure WF : Prop where
  size_eq : b.streamBufferSize = b.bytes.length
  size_le : b.streamBufferSize ≤ b.streamBufferCapacity

/-- The recorded size covers the waiting bytes and is within the capacity. -/
structure Within : Prop where
  bytes_le : b.bytes.length ≤ b.streamBufferSize
  size_le : b.streamBufferSize ≤ b.streamBufferCapacity

/-- The number of bytes that one more write can take. -/
def spaceAvailable : ℕ := b.streamBufferCapacity - b.streamBufferSize

/-- Keeps as much of the data as fits and returns how much that was. -/
def writeToStream (buf : Bytes) : ℕ × SendBuffer :=
  if b.spaceAvailable = 0 then (0, b)
  else
    let bytesToWrite := min buf.length b.spaceAvailable
    (bytesToWrite,
      { b with
        streamBuffer := b.streamBuffer ++ [buf.take bytesToWrite]
        streamBufferSize := b.streamBufferSize + bytesToWrite })

/-- The chunk cut from a queue of chunks and the queue that remains. Chunks of which nothing
can be taken are dropped. -/
def cutChunk (maxSize : ℕ) : List Bytes → Option Bytes × List Bytes
  | [] => (none, [])
  | first :: rest =>
    let chunkSize := min first.length maxSize
    if chunkSize = 0 then cutChunk maxSize rest
    else if first.length ≤ chunkSize then (some first, rest)
    else (some (first.take chunkSize), first.drop chunkSize :: rest)

/-- Creates a data chunk for a new packet. -/
def createChunk (maxSize : ℕ) : Option Bytes × SendBuffer :=
  match cutChunk maxSize b.streamBuffer with
  | (none, rest) => (none, { b with streamBuffer := rest })
  | (some chunk, rest) =>
    (some chunk,
      { b with streamBuffer := rest, streamBufferSize := b.streamBufferSize - chunk.length })

def isStreamBufferEmpty : Bool := b.streamBuffer.isEmpty

/-- The number of packets it takes to carry a queue of chunks. -/
def packetsOf (maxSize : ℕ) (q : List Bytes) : ℕ :=
  (q.map fun c => (c.length + maxSize - 1) / maxSize).sum

variable {b}

@[simp] theorem bytes_new (n : ℕ) : (new n).bytes = [] := rfl

theorem wf_new (n : ℕ) : (new n).WF := ⟨rfl, Nat.zero_le _⟩

theorem bytes_of_isStreamBufferEmpty (h : b.isStreamBufferEmpty = true) : b.bytes = [] := by
  rw [isStreamBufferEmpty, List.isEmpty_iff] at h
  rw [bytes, h, List.flatten_nil]

theorem bytes_writeToStream (buf : Bytes) :
    (b.writeToStream buf).2.bytes = b.bytes ++ buf.take (b.writeToStream buf).1 := by
  unfold writeToStream
  split <;> simp [bytes]

theorem writeToStream_fst (buf : Bytes) :
    (b.writeToStream buf).1 = min buf.length b.spaceAvailable := by
  unfold writeToStream
  split <;> simp [*]

@[simp] theorem writeToStream_capacity (buf : Bytes) :
    (b.writeToStream buf).2.streamBufferCapacity = b.streamBufferCapacity := by
  unfold writeToStream
  split <;> rfl

theorem WF.writeToStream (h : b.WF) (buf : Bytes) : (b.writeToStream buf).2.WF := by
  obtain ⟨hs, hc⟩ := h
  unfold SendBuffer.writeToStream
  split
  · exact ⟨hs, hc⟩
  · constructor
    · simp only [bytes] at hs ⊢
      simp [hs]
    · simp only [spaceAvailable]
      omega

theorem cutChunk_some {m : ℕ} {q rest : List Bytes} {chunk : Bytes}
    (h : cutChunk m q = (some chunk, rest)) :
    0 < chunk.length ∧ chunk.length ≤ m ∧ (1 ≤ m → q.flatten = chunk ++ rest.flatten) := by
  induction q with
  | nil => simp [cutChunk] at h
  | cons first q ih =>
    rw [cutChunk] at h
    split at h
    · obtain ⟨hp, hm, hq⟩ := ih h
      refine ⟨hp, hm, fun h1 => ?_⟩
      have hf : first = [] := List.eq_nil_of_length_eq_zero (by omega)
      rw [hf, List.flatten_cons, List.nil_append, hq h1]
    · split at h <;> obtain ⟨rfl, rfl⟩ := h
      · exact ⟨by omega, by omega, fun _ => rfl⟩
      · refine ⟨?_, ?_, fun _ => ?_⟩
        · rw [List.length_take]
          omega
        · rw [List.length_take]
          omega
        · rw [List.flatten_cons, List.flatten_cons, ← List.append_assoc, List.take_append_drop]

theorem cutChunk_none {m : ℕ} {q rest : List Bytes} (h : cutChunk m q = (none, rest)) :
    rest = [] ∧ (1 ≤ m → q.flatten = []) := by
  induction q with
  | nil =>
    obtain ⟨_, rfl⟩ := h
    exact ⟨rfl, fun _ => rfl⟩
  | cons first q ih =>
    rw [cutChunk] at h
    split at h
    · obtain ⟨hr, hq⟩ := ih h
      refine ⟨hr, fun h1 => ?_⟩
      have hf : first = [] := List.eq_nil_of_length_eq_zero (by omega)
      rw [hf, List.flatten_cons, List.nil_append, hq h1]
    · split at h <;> simp at h

theorem packetsOf_eq_zero {m : ℕ} (hm : 1 ≤ m) {q : List Bytes} :
    packetsOf m q = 0 ↔ q.flatten = [] := by
  induction q with
  | nil => exact iff_of_true rfl rfl
  | cons c q ih =>
    have hc : (c.length + m - 1) / m = 0 ↔ c = [] := by
      rw [Nat.div_eq_zero_iff, ← List.length_eq_zero_iff]
      omega
    rw [packetsOf] at ih ⊢
    rw [List.map_cons, List.sum_cons, Nat.add_eq_zero_iff, ih, hc, List.flatten_cons,
      List.append_eq_nil_iff]

theorem packetsOf_cutChunk {m : ℕ} (hm : 1 ≤ m) {q rest : List Bytes} {o : Option Bytes}
    (h : cutChunk m q = (o, rest)) :
    packetsOf m q = o.toList.length + packetsOf m rest := by
  induction q with
  | nil =>
    obtain ⟨rfl, rfl⟩ := h
    rfl
  | cons first q ih =>
    have hcons (c : Bytes) (r : List Bytes) :
        packetsOf m (c :: r) = (c.length + m - 1) / m + packetsOf m r := by
      rw [packetsOf, List.map_cons, List.sum_cons, packetsOf]
    rw [cutChunk] at h
    split at h
    · rw [hcons, ih h, (Nat.div_eq_zero_iff_lt hm).mpr (by omega), Nat.zero_add]
    · split at h <;> obtain ⟨rfl, rfl⟩ := h
      · have hone : (first.length + m - 1) / m = 1 :=
          Nat.div_eq_of_lt_le (by omega) (by omega)
        rw [hcons, hone]
        rfl
      · have hle : m ≤ first.length + m - 1 - m + m := by omega
        have hsub : first.length + m - 1 = first.length - m + m - 1 + m := by omega
        rw [hcons, hcons, List.length_drop, Nat.min_eq_right (by omega), hsub,
          Nat.add_div_right _ hm]
        change _ = 1 + _
        omega

/-- Cutting a chunk for packets of at least one byte loses no byte. -/
theorem createChunk_some {m : ℕ} {chunk : Bytes} {b' : SendBuffer}
    (h : b.createChunk m = (some chunk, b')) :
    0 < chunk.length ∧ chunk.length ≤ m ∧ (1 ≤ m → b.bytes = chunk ++ b'.bytes) := by
  unfold createChunk at h
  split at h <;> obtain ⟨he, rfl⟩ := Prod.mk.inj h
  · cases he
  · cases he
    exact cutChunk_some ‹_›

theorem createChunk_none {m : ℕ} {b' : SendBuffer} (h : b.createChunk m = (none, b')) :
    b'.streamBuffer = [] ∧ (1 ≤ m → b.bytes = []) := by
  unfold createChunk at h
  split at h <;> obtain ⟨he, rfl⟩ := Prod.mk.inj h
  · exact cutChunk_none ‹_›
  · cases he

theorem packetsOf_createChunk {m : ℕ} (hm : 1 ≤ m) {o : Option Bytes} {b' : SendBuffer}
    (h : b.createChunk m = (o, b')) :
    packetsOf m b.streamBuffer = o.toList.length + packetsOf m b'.streamBuffer := by
  unfold createChunk at h
  split at h <;> obtain ⟨rfl, rfl⟩ := Prod.mk.inj h <;> exact packetsOf_cutChunk hm ‹_›

@[simp] theorem createChunk_capacity (m : ℕ) :
    (b.createChunk m).2.streamBufferCapacity = b.streamBufferCapacity := by
  unfold createChunk
  split <;> rfl

theorem createChunk_size {m : ℕ} {o : Option Bytes} {b' : SendBuffer}
    (h : b.createChunk m = (o, b')) :
    b'.streamBufferSize = b.streamBufferSize - (o.getD []).length := by
  unfold createChunk at h
  split at h <;> obtain ⟨rfl, rfl⟩ := Prod.mk.inj h <;> rfl

theorem WF.createChunk (h : b.WF) {m : ℕ} (hm : 1 ≤ m) : (b.createChunk m).2.WF := by
  obtain ⟨hs, hc⟩ := h
  have hcap := createChunk_capacity (b := b) m
  generalize hcc : b.createChunk m = r at hcap ⊢
  obtain ⟨_ | chunk, b'⟩ := r
  · obtain ⟨hr, hb⟩ := createChunk_none hcc
    have hz := createChunk_size hcc
    have hb' : b'.bytes = [] := by rw [bytes, hr, List.flatten_nil]
    constructor <;> simp_all
  · have hz := createChunk_size hcc
    have hl := congrArg List.length ((createChunk_some hcc).2.2 hm)
    simp only [Option.getD_some, List.length_append] at hz hl
    constructor <;> dsimp only at * <;> omega

theorem Within.writeToStream (h : b.Within) (buf : Bytes) : (b.writeToStream buf).2.Within := by
  obtain ⟨hb, hc⟩ := h
  unfold SendBuffer.writeToStream
  split
  · exact ⟨hb, hc⟩
  · constructor
    · have hlen : (b.streamBuffer ++ [buf.take (min buf.length b.spaceAvailable)]).flatten.length =
          b.bytes.length + min buf.length b.spaceAvailable := by
        simp [bytes]
      simp only [bytes] at hlen hb ⊢
      omega
    · simp only [spaceAvailable]
      omega

theorem Within.createChunk (h : b.Within) {m : ℕ} {o : Option Bytes} {b' : SendBuffer}
    (hc : b.createChunk m = (o, b')) :
    b'.Within ∧ (o.getD []).length + b'.streamBufferSize = b.streamBufferSize := by
  obtain ⟨hb, hs⟩ := h
  have hcap := createChunk_capacity (b := b) m
  have hz := createChunk_size hc
  rw [hc] at hcap
  dsimp only at hcap
  cases o with
  | none =>
    have hnil : b'.bytes = [] := by
      rw [bytes, (createChunk_none hc).1, List.flatten_nil]
    simp only [Option.getD_none, List.length_nil, Nat.sub_zero] at hz
    refine ⟨⟨?_, ?_⟩, ?_⟩
    · rw [hnil]
      exact Nat.zero_le _
    · rw [hz, hcap]
      exact hs
    · simp [hz]
  | some chunk =>
    obtain ⟨hpos, hle, hbytes⟩ := createChunk_some hc
    have hl := congrArg List.length (hbytes (by omega))
    simp only [Option.getD_some, List.length_append] at hz hl ⊢
    refine ⟨⟨?_, ?_⟩, ?_⟩ <;> omega

end SendBuffer

end Kestrel
