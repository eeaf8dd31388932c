import Mathlib.Algebra.BigOperators.Group.List.Basic
import Kestrel.Lib.Transition
import Kestrel.Reliability.ReceiveBuffer

/-! # The user's reads

Reassembled chunks reach the user's stream in batches through a channel, and a read takes bytes off
the first chunk. The bytes come in order. But an empty chunk at the front is dropped at the price of
a batch from the channel, so a read may find nothing although bytes have arrived.
-/

namespace Kestrel

/-- What a poll of the stream for bytes returns; no bytes stand for the end of the stream. -/
inductive ReadPoll where
  | ready (bytes : Bytes)
  | pending
  deriving DecidableEq, Repr

/-- The receiving side of a stream: its buffer, the batches in its channel, and whether the
endpoint has dropped its end of the channel. -/
structure Reader where
  readBuffer : List Bytes
  rxFromEndpoint : List (List Bytes)
  closed : Bool
  deriving DecidableEq, Repr

namespace Reader

/-- The bytes copied from the first chunk, and the buffer left. A chunk that is or becomes empty is
dropped. -/
def takeFront (remaining : ℕ) : List Bytes → Bytes × List Bytes
  | [] => ([], [])
  | chunk :: rest =>
    let len := min chunk.length remaining
    let left := chunk.drop len
    (chunk.take len, if left.isEmpty then rest else left :: rest)

/-- The loop of `poll_read`: as long as nothing is copied, the next batch is taken. -/
def pollLoop (remaining : ℕ) (closed : Bool) :
    List Bytes → List (List Bytes) → ReadPoll × List Bytes × List (List Bytes)
  | readBuffer, rx =>
    let (bytes, readBuffer) := takeFront remaining readBuffer
    if !bytes.isEmpty then (.ready bytes, readBuffer, rx)
    else
      match rx with
      | batch :: rx => pollLoop remaining closed (readBuffer ++ batch) rx
      | [] => (if closed then .ready [] else .pending, readBuffer, [])

variable (r : Reader)

/-- Reads into a buffer with room for some bytes. -/
def pollRead (remaining : ℕ) : ReadPoll × Reader :=
  let (poll, readBuffer, rxFromEndpoint) :=
    pollLoop remaining r.closed r.readBuffer r.rxFromEndpoint
  (poll, { r with readBuffer, rxFromEndpoint })

def chunks : List Bytes := r.readBuffer ++ r.rxFromEndpoint.flatten

/-- The bytes that have arrived and have not been read. -/
def undelivered : Bytes := r.chunks.flatten

/-- The number of empty chunks in front of the first byte. -/
def leadingEmpty (chunks : List Bytes) : ℕ := (chunks.takeWhile (·.isEmpty)).length

/-- The empty chunks in front of the first byte are no more than the batches that are left to drop
them, wherever the buffer may run empty on the way. -/
def ReachesByte (readBuffer : List Bytes) (rx : List (List Bytes)) : Prop :=
  leadingEmpty (readBuffer ++ rx.flatten) ≤ rx.length ∧
    ∀ i < rx.length, leadingEmpty (readBuffer ++ rx.flatten) ≤
      readBuffer.length + (rx.take i).flatten.length + (rx.length - 1 - i)

/-- A read into a buffer with some room does not report that nothing is there while something is. -/
def Faithful (remaining : ℕ) : Prop :=
  (r.pollRead remaining).1 = .pending ∨ (r.pollRead remaining).1 = .ready [] → r.undelivered = []

section Front

variable {remaining : ℕ} {chunk : Bytes} {rest readBuffer : List Bytes}

theorem takeFront_flatten (remaining : ℕ) (readBuffer : List Bytes) :
    (takeFront remaining readBuffer).1 ++ (takeFront remaining readBuffer).2.flatten =
      readBuffer.flatten := by
  cases readBuffer with
  | nil => rfl
  | cons chunk rest =>
    rw [takeFront]
    dsimp only
    split
    · rename_i he
      have htake := List.take_append_drop (min chunk.length remaining) chunk
      rw [List.isEmpty_iff.mp he, List.append_nil] at htake
      rw [htake, List.flatten_cons]
    · rw [List.flatten_cons, ← List.append_assoc, List.take_append_drop, List.flatten_cons]

theorem takeFront_ne_nil (h : 0 < remaining) :
    (takeFront remaining readBuffer).1 ≠ [] ↔ ∃ chunk ∈ readBuffer.head?, chunk ≠ [] := by
  cases readBuffer with
  | nil => simp [takeFront]
  | cons chunk rest => simp [takeFront, h.ne']

@[simp] theorem takeFront_cons_nil (remaining : ℕ) (rest : List Bytes) :
    takeFront remaining ([] :: rest) = ([], rest) := by
  simp [takeFront]

end Front

/-- The bytes a poll returns. -/
def returned : ReadPoll → Bytes
  | .ready bytes => bytes
  | .pending => []

variable {remaining : ℕ} {closed : Bool} {readBuffer : List Bytes} {rx : List (List Bytes)}

theorem pollLoop_of_ne_nil (h : (takeFront remaining readBuffer).1 ≠ []) :
    pollLoop remaining closed readBuffer rx =
      (.ready (takeFront remaining readBuffer).1, (takeFront remaining readBuffer).2, rx) := by
  rw [pollLoop.eq_def]
  simp [h]

theorem pollLoop_cons_of_nil (h : (takeFront remaining readBuffer).1 = []) (batch : List Bytes) :
    pollLoop remaining closed readBuffer (batch :: rx) =
      pollLoop remaining closed ((takeFront remaining readBuffer).2 ++ batch) rx := by
  rw [pollLoop.eq_def]
  simp [h]

theorem pollLoop_nil_of_nil (h : (takeFront remaining readBuffer).1 = []) :
    pollLoop remaining closed readBuffer [] =
      (if closed then .ready [] else .pending, (takeFront remaining readBuffer).2, []) := by
  rw [pollLoop.eq_def]
  simp [h]

/-- A poll returns the first bytes and leaves the others. -/
theorem pollLoop_fifo (remaining : ℕ) (closed : Bool) (readBuffer : List Bytes)
    (rx : List (List Bytes)) :
    returned (pollLoop remaining closed readBuffer rx).1 ++
        ((pollLoop remaining closed readBuffer rx).2.1 ++
          (pollLoop remaining closed readBuffer rx).2.2.flatten).flatten =
      (readBuffer ++ rx.flatten).flatten := by
  induction rx generalizing readBuffer with
  | nil =>
    have hfront := takeFront_flatten remaining readBuffer
    by_cases h : (takeFront remaining readBuffer).1 = []
    · rw [pollLoop_nil_of_nil h]
      cases closed <;> simpa [returned, h] using hfront
    · rw [pollLoop_of_ne_nil h]
      simpa [returned] using hfront
  | cons batch rx ih =>
    have hfront := takeFront_flatten remaining readBuffer
    by_cases h : (takeFront remaining readBuffer).1 = []
    · rw [pollLoop_cons_of_nil h, ih]
      rw [h, List.nil_append] at hfront
      simp [hfront]
    · rw [pollLoop_of_ne_nil h, returned, List.flatten_append, List.flatten_append,
        ← List.append_assoc, hfront]

theorem leadingEmpty_cons_nil (cs : List Bytes) :
    leadingEmpty ([] :: cs) = leadingEmpty cs + 1 := by
  simp [leadingEmpty]

/-- Dropping an empty chunk and taking a batch, or taking a batch into an empty buffer, does not
change whether the first byte is reached. -/
theorem reachesByte_cons_iff (h : ∀ chunk ∈ readBuffer.head?, chunk = []) (batch : List Bytes) :
    ReachesByte readBuffer (batch :: rx) ↔ ReachesByte (readBuffer.tail ++ batch) rx := by
  have hsplit (P : ℕ → Prop) : (∀ i < rx.length + 1, P i) ↔ P 0 ∧ ∀ i < rx.length, P (i + 1) := by
    constructor
    · exact fun hall => ⟨hall 0 (by omega), fun i hi => hall (i + 1) (by omega)⟩
    · rintro ⟨hzero, hsucc⟩ (_ | i) hi
      · exact hzero
      · exact hsucc i (by omega)
  rw [ReachesByte, ReachesByte, List.length_cons, hsplit]
  cases readBuffer with
  | nil =>
    simp only [List.nil_append, List.flatten_cons, List.length_nil, List.take_zero,
      List.flatten_nil, List.take_succ_cons, List.length_append, List.tail_nil]
    constructor
    · rintro ⟨hlen, hzero, hall⟩
      refine ⟨by omega, fun i hi => ?_⟩
      have hi' := hall i hi
      omega
    · rintro ⟨hlen, hall⟩
      refine ⟨by omega, by omega, fun i hi => ?_⟩
      have hi' := hall i hi
      omega
  | cons chunk rest =>
    obtain rfl : chunk = [] := h chunk rfl
    simp only [List.cons_append, leadingEmpty_cons_nil, List.flatten_cons, List.length_cons,
      List.take_zero, List.flatten_nil, List.length_nil, List.take_succ_cons, List.length_append,
      List.tail_cons, List.append_assoc]
    constructor
    · rintro ⟨hlen, hzero, hall⟩
      refine ⟨by omega, fun i hi => ?_⟩
      have hi' := hall i hi
      omega
    · rintro ⟨hlen, hall⟩
      refine ⟨by omega, by omega, fun i hi => ?_⟩
      have hi' := hall i hi
      omega

theorem takeFront_of_nil (hpos : 0 < remaining) (h : (takeFront remaining readBuffer).1 = []) :
    (∀ chunk ∈ readBuffer.head?, chunk = []) ∧
      (takeFront remaining readBuffer).2 = readBuffer.tail := by
  have hhead : ∀ chunk ∈ readBuffer.head?, chunk = [] := by
    intro chunk hc
    by_contra hne
    exact (takeFront_ne_nil hpos).mpr ⟨chunk, hc, hne⟩ h
  refine ⟨hhead, ?_⟩
  cases readBuffer with
  | nil => rfl
  | cons chunk rest =>
    obtain rfl : chunk = [] := hhead chunk rfl
    simp

/-- A poll finds a byte that has arrived exactly if it is reached. -/
theorem returned_pollLoop_ne_nil (hpos : 0 < remaining)
    (hne : (readBuffer ++ rx.flatten).flatten ≠ []) :
    returned (pollLoop remaining closed readBuffer rx).1 ≠ [] ↔ ReachesByte readBuffer rx := by
  induction rx generalizing readBuffer with
  | nil =>
    by_cases h : (takeFront remaining readBuffer).1 = []
    · obtain ⟨hhead, -⟩ := takeFront_of_nil hpos h
      rw [pollLoop_nil_of_nil h]
      cases readBuffer with
      | nil => exact absurd rfl hne
      | cons chunk rest =>
        obtain rfl : chunk = [] := hhead chunk rfl
        cases closed <;> simp [returned, ReachesByte, leadingEmpty_cons_nil]
    · rw [pollLoop_of_ne_nil h]
      obtain ⟨chunk, hc, hchunk⟩ := (takeFront_ne_nil hpos).mp h
      cases readBuffer with
      | nil => cases hc
      | cons c rest =>
        cases hc
        exact iff_of_true h (by simp [ReachesByte, leadingEmpty, hchunk])
  | cons batch rx ih =>
    by_cases h : (takeFront remaining readBuffer).1 = []
    · obtain ⟨hhead, htail⟩ := takeFront_of_nil hpos h
      rw [pollLoop_cons_of_nil h, htail, reachesByte_cons_iff hhead]
      refine ih ?_
      have hfront := takeFront_flatten remaining readBuffer
      rw [h, htail, List.nil_append] at hfront
      simpa [hfront] using hne
    · rw [pollLoop_of_ne_nil h]
      obtain ⟨chunk, hc, hchunk⟩ := (takeFront_ne_nil hpos).mp h
      cases readBuffer with
      | nil => cases hc
      | cons c rest =>
        cases hc
        exact iff_of_true h (by simp [ReachesByte, leadingEmpty, hchunk])

variable {r : Reader}

theorem returned_eq_nil_iff {poll : ReadPoll} :
    returned poll = [] ↔ poll = .pending ∨ poll = .ready [] := by
  cases poll <;> simp [returned]

/-- A read reports what is there exactly if a byte that has arrived is reached. -/
theorem faithful_iff (hpos : 0 < remaining) : r.Faithful remaining ↔
    (r.undelivered ≠ [] → ReachesByte r.readBuffer r.rxFromEndpoint) := by
  rw [Faithful, ← returned_eq_nil_iff]
  have hreach (hne : r.undelivered ≠ []) :
      returned (r.pollRead remaining).1 ≠ [] ↔ ReachesByte r.readBuffer r.rxFromEndpoint :=
    returned_pollLoop_ne_nil hpos hne
  constructor
  · exact fun h hne => (hreach hne).mp fun hnil => hne (h hnil)
  · intro h hnil
    by_contra hne
    exact (hreach hne).mpr (h hne) hnil

theorem pollRead_fifo (r : Reader) (remaining : ℕ) :
    returned (r.pollRead remaining).1 ++ (r.pollRead remaining).2.undelivered = r.undelivered :=
  pollLoop_fifo remaining r.closed r.readBuffer r.rxFromEndpoint

end Reader

/-- A reader with all bytes put into its channel and all bytes its polls have returned. -/
structure ReadRun where
  reader : Reader
  delivered : Bytes
  returned : Bytes
  deriving DecidableEq, Repr

namespace ReadRun

inductive Op where
  | deliver (batch : List Bytes)
  | close
  | pollRead (remaining : ℕ)
  deriving DecidableEq, Repr

variable (w : ReadRun)

/-- Nothing is put into a closed channel, and the caller's buffer has some room. -/
def next : Op → Option ReadRun
  | .deliver batch =>
    if w.reader.closed then none
    else
      some { w with
        reader := { w.reader with rxFromEndpoint := w.reader.rxFromEndpoint ++ [batch] }
        delivered := w.delivered ++ batch.flatten }
  | .close => some { w with reader := { w.reader with closed := true } }
  | .pollRead remaining =>
    if 0 < remaining then
      some { w with
        reader := (w.reader.pollRead remaining).2
        returned := w.returned ++ Reader.returned (w.reader.pollRead remaining).1 }
    else none

def system : TransitionSystem ReadRun Op :=
  .ofNext (fun w => w = ⟨⟨[], [], false⟩, [], []⟩) next

variable {w}

theorem returned_append (h : system.Reachable w) :
    w.returned ++ w.reader.undelivered = w.delivered := by
  have hinv : system.Invariant fun w => w.returned ++ w.reader.undelivered = w.delivered :=
    { init := by
        rintro _ rfl
        rfl
      step := by
        rintro w op w' - hw hstep
        cases op with
        | deliver batch =>
          obtain ⟨-, rfl⟩ : ¬ w.reader.closed = true ∧ _ := by
            simpa [system, TransitionSystem.ofNext, next] using hstep
          rw [← hw]
          simp [Reader.undelivered, Reader.chunks]
        | close =>
          cases hstep
          exact hw
        | pollRead remaining =>
          obtain ⟨-, rfl⟩ : 0 < remaining ∧ _ := by
            simpa [system, TransitionSystem.ofNext, next] using hstep
          rw [← hw, ← w.reader.pollRead_fifo remaining, List.append_assoc] }
  exact hinv.holds h

/-- In every run the bytes returned are the first bytes delivered, and a read reports that nothing
is there while something is exactly if the first byte that is left is not reached. -/
theorem reading_iff (h : system.Reachable w) {remaining : ℕ} (hpos : 0 < remaining) :
    w.returned ++ w.reader.undelivered = w.delivered ∧
      (w.reader.Faithful remaining ↔
        (w.reader.undelivered ≠ [] →
          Reader.ReachesByte w.reader.readBuffer w.reader.rxFromEndpoint)) :=
  ⟨returned_append h, Reader.faithful_iff hpos⟩

section Sample

/-- Two chunks have arrived in one batch. -/
def twoChunks : ReadRun := ⟨⟨[], [[[1, 2], [3]]], false⟩, [1, 2, 3], []⟩

/-- A read of two chunks reports what is there. -/
theorem reading_sample :
    twoChunks.returned ++ twoChunks.reader.undelivered = twoChunks.delivered ∧
      (twoChunks.reader.Faithful 2 ↔
        (twoChunks.reader.undelivered ≠ [] →
          Reader.ReachesByte twoChunks.reader.readBuffer twoChunks.reader.rxFromEndpoint)) :=
  reading_iff (.step (i := .deliver [[1, 2], [3]]) (.init rfl) rfl) (by decide)

/-- An empty PUSH and one with a byte, in order. -/
def emptyPushFirst : ReceiveBuffer :=
  (((ReceiveBuffer.new 8).receive 0 (.push [])).2.receive 1 (.push [7])).2

/-- The batch of the two has arrived. -/
def emptyChunkFirst : ReadRun := ⟨⟨[], [[[], [7]]], false⟩, [7], []⟩

/-- The batch that an empty PUSH is in makes the read report that nothing is there. -/
theorem empty_chunk_hides_byte :
    emptyPushFirst.reassemble.1 = some [[], [7]] ∧
      system.Reachable emptyChunkFirst ∧
      emptyChunkFirst.reader.pollRead 10 = (.pending, ⟨[[7]], [], false⟩) ∧
      ({ emptyChunkFirst.reader with closed := true } : Reader).pollRead 10 =
        (.ready [], ⟨[[7]], [], true⟩) ∧
      ¬ emptyChunkFirst.reader.Faithful 10 := by
  refine ⟨by decide, .step (i := .deliver [[], [7]]) (.init rfl) rfl, by decide, by decide, ?_⟩
  intro h
  exact absurd (h (Or.inl (by decide))) (by decide)

end Sample

end ReadRun

end Kestrel
