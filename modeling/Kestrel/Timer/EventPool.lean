import Kestrel.Lib.Stride
import Kestrel.Timer.Task

/-! # The pool of timer events

Events that are done with are kept for later ones. A batch takes as many of them as there are and
writes over them in chunks of eight, four and one; the rest is made anew, again in chunks.
-/

namespace Kestrel

def TimerEventData.new {E : Type} (connectionId : ConnectionId) (timeoutEvent : E) :
    TimerEventData E :=
  ⟨connectionId, timeoutEvent⟩

structure PoolConfig where
  maxSize : ℕ := 1024
  initialSize : ℕ := 64
  enableBatchOptimization : Bool := true
  deriving DecidableEq, Repr

structure TimerEventPool (E : Type) where
  pool : List (TimerEventData E)
  config : PoolConfig
  deriving DecidableEq, Repr

namespace TimerEventPool

variable {E : Type}

section Chunks

/-! Requests are read and objects are written by index; `none` is an index out of bounds. -/

variable (width start : ℕ) (requests : List (ConnectionId × E))

/-- The identifiers of a chunk, through the lanes of a vector, which are as wide as they are. -/
def lanes : Option (List ConnectionId) :=
  (List.range width).mapM fun k => requests[start + k]?.map Prod.fst

def processLane (processedIds : List ConnectionId) (k : ℕ) (chunk : List (TimerEventData E)) :
    Option (List (TimerEventData E)) := do
  let connectionId ← processedIds[k]?
  let (_, timeoutEvent) ← requests[start + k]?
  let obj ← chunk[k]?
  return chunk.set k { obj with connectionId, timeoutEvent }

/-- Writes the requests from an index on over a chunk of objects. -/
def processChunk (chunk : List (TimerEventData E)) : Option (List (TimerEventData E)) := do
  let processedIds ← lanes width start requests
  let (_, chunk) ← Stride.loop 1 width (processLane start requests processedIds) 0 chunk
  return chunk

def simdProcessChunk : List (TimerEventData E) → Option (List (TimerEventData E)) :=
  processChunk 8 start requests

def simdProcessChunk4 : List (TimerEventData E) → Option (List (TimerEventData E)) :=
  processChunk 4 start requests

def createLane (processedIds : List ConnectionId) (k : ℕ) (targetVec : List (TimerEventData E)) :
    Option (List (TimerEventData E)) := do
  let connectionId ← processedIds[k]?
  let (_, timeoutEvent) ← requests[start + k]?
  return targetVec ++ [.new connectionId timeoutEvent]

/-- Makes objects for the requests from an index on. -/
def createChunk (targetVec : List (TimerEventData E)) : Option (List (TimerEventData E)) := do
  let processedIds ← lanes width start requests
  let (_, targetVec) ← Stride.loop 1 width (createLane start requests processedIds) 0 targetVec
  return targetVec

def simdCreateChunk : List (TimerEventData E) → Option (List (TimerEventData E)) :=
  createChunk 8 start requests

def simdCreateChunk4 : List (TimerEventData E) → Option (List (TimerEventData E)) :=
  createChunk 4 start requests

/-- Changes a slice of a vector. -/
def onSlice (f : List (TimerEventData E) → Option (List (TimerEventData E)))
    (result : List (TimerEventData E)) : Option (List (TimerEventData E)) :=
  if start + width ≤ result.length then
    (f ((result.drop start).take width)).map fun chunk =>
      result.take start ++ chunk ++ result.drop (start + width)
  else none

/-- Writes one request over one object. -/
def updateOne (i : ℕ) (result : List (TimerEventData E)) : Option (List (TimerEventData E)) := do
  let (connectionId, timeoutEvent) ← requests[i]?
  let obj ← result[i]?
  return result.set i { obj with connectionId, timeoutEvent }

def createOne (j : ℕ) (newCreations : List (TimerEventData E)) :
    Option (List (TimerEventData E)) := do
  let (connectionId, timeoutEvent) ← requests[j]?
  return newCreations ++ [.new connectionId timeoutEvent]

/-- Writes over the objects that have been acquired and makes the remaining ones. -/
def simdUpdateAndCreate (result : List (TimerEventData E)) :
    Option (List (TimerEventData E)) := do
  let totalRequests := requests.length
  let acquiredCount := result.length
  let (i, result) ← Stride.loop 8 acquiredCount
    (fun i => onSlice 8 i (simdProcessChunk i requests)) 0 result
  let (i, result) ← Stride.loop 4 acquiredCount
    (fun i => onSlice 4 i (simdProcessChunk4 i requests)) i result
  let (_, result) ← Stride.loop 1 acquiredCount (updateOne requests) i result
  let (j, newCreations) ← Stride.loop 8 totalRequests
    (fun j => simdCreateChunk j requests) acquiredCount []
  let (j, newCreations) ← Stride.loop 4 totalRequests
    (fun j => simdCreateChunk4 j requests) j newCreations
  let (_, newCreations) ← Stride.loop 1 totalRequests (createOne requests) j newCreations
  return result ++ newCreations

end Chunks

section Pool

variable (p : TimerEventPool E)

def new [Inhabited E] (config : PoolConfig) : TimerEventPool E :=
  ⟨List.replicate config.initialSize (.new 0 default), config⟩

def acquire (connectionId : ConnectionId) (timeoutEvent : E) :
    TimerEventData E × TimerEventPool E :=
  match p.pool with
  | obj :: pool => ({ obj with connectionId, timeoutEvent }, { p with pool })
  | [] => (.new connectionId timeoutEvent, p)

def release (obj : TimerEventData E) : TimerEventPool E :=
  if p.pool.length < p.config.maxSize then { p with pool := p.pool ++ [obj] } else p

/-- Acquires an object for each request, one after the other. -/
def acquireEach (p : TimerEventPool E) :
    List (ConnectionId × E) → List (TimerEventData E) × TimerEventPool E
  | [] => ([], p)
  | (connectionId, event) :: requests =>
    let (obj, p) := p.acquire connectionId event
    let (objects, p) := p.acquireEach requests
    (obj :: objects, p)

/-- Takes objects out of the pool, up to a number, until it is empty. -/
def popUpTo (p : TimerEventPool E) : ℕ → List (TimerEventData E) × TimerEventPool E
  | 0 => ([], p)
  | count + 1 =>
    match p.pool with
    | obj :: pool =>
      let (result, p) := popUpTo { p with pool } count
      (obj :: result, p)
    | [] => ([], p)

/-- Acquires objects for a batch; `none` where an index is out of bounds. -/
def batchAcquire (requests : List (ConnectionId × E)) :
    Option (List (TimerEventData E) × TimerEventPool E) :=
  if !p.config.enableBatchOptimization || requests.isEmpty then some (p.acquireEach requests)
  else
    let (result, p) := p.popUpTo requests.length
    (simdUpdateAndCreate requests result).map fun result => (result, p)

def batchRelease (objects : List (TimerEventData E)) : TimerEventPool E :=
  let currentLen := p.pool.length
  let availableCapacity := p.config.maxSize - currentLen
  let toRelease := min objects.length availableCapacity
  { p with pool := p.pool ++ objects.take toRelease }

inductive Op (E : Type) where
  | acquire (connectionId : ConnectionId) (timeoutEvent : E)
  | batchAcquire (requests : List (ConnectionId × E))
  | release (obj : TimerEventData E)
  | batchRelease (objects : List (TimerEventData E))

/-- The pool after a use; `none` where it panics. -/
def next : Op E → Option (TimerEventPool E)
  | .acquire connectionId timeoutEvent => some (p.acquire connectionId timeoutEvent).2
  | .batchAcquire requests => (p.batchAcquire requests).map Prod.snd
  | .release obj => some (p.release obj)
  | .batchRelease objects => some (p.batchRelease objects)

end Pool

section Batch

variable {requests : List (ConnectionId × E)} {acquired : List (TimerEventData E)} {width start : ℕ}

/-- What the requests ask for, made anew. -/
def plain (requests : List (ConnectionId × E)) : List (TimerEventData E) :=
  requests.map fun r => .new r.1 r.2

@[simp] theorem length_plain (requests : List (ConnectionId × E)) :
    (plain requests).length = requests.length := by
  simp [plain]

theorem getElem?_plain (k : ℕ) :
    (plain requests)[k]? = requests[k]?.map fun r => .new r.1 r.2 := by
  simp [plain]

theorem lanes_eq (h : start + width ≤ requests.length) :
    lanes width start requests = some (((requests.drop start).take width).map Prod.fst) := by
  induction width with
  | zero => rfl
  | succ width ih =>
    have hlt : start + width < requests.length := by omega
    have hprev := ih (by omega)
    unfold lanes at hprev ⊢
    rw [List.range_succ, List.mapM_append, hprev]
    have hdrop : width < (requests.drop start).length := by
      rw [List.length_drop]
      omega
    simp [List.getElem?_eq_getElem hlt, List.take_succ_eq_append_getElem hdrop]

theorem processLane_eq {k : ℕ} (h : start + width ≤ requests.length) (hk : k < width)
    {chunk : List (TimerEventData E)} (hchunk : k < chunk.length) :
    ∃ obj, (plain requests)[start + k]? = some obj ∧
      processLane start requests (((requests.drop start).take width).map Prod.fst) k chunk =
        some (chunk.set k obj) := by
  have hlt : start + k < requests.length := by omega
  refine ⟨.new requests[start + k].1 requests[start + k].2, ?_, ?_⟩
  · rw [getElem?_plain, List.getElem?_eq_getElem hlt]
    rfl
  · simp [processLane, hlt, hk, hchunk, TimerEventData.new]

theorem processChunk_eq (h : start + width ≤ requests.length) {chunk : List (TimerEventData E)}
    (hchunk : chunk.length = width) :
    processChunk width start requests chunk = some (((plain requests).drop start).take width) := by
  let new := ((plain requests).drop start).take width
  have hnew : new.length = width := by
    simp only [new, List.length_take, List.length_drop, length_plain]
    omega
  have hkeeps : Stride.Preserves 1 width
      (processLane start requests (((requests.drop start).take width).map Prod.fst))
      fun k s => s = Stride.overwritten new chunk k := by
    rintro k _ hk rfl
    have hlen : k < (Stride.overwritten new chunk k).length := by
      simp only [Stride.overwritten, List.length_append, List.length_take, List.length_drop]
      omega
    obtain ⟨obj, hobj, hlane⟩ := processLane_eq h (Nat.lt_of_succ_le hk) hlen
    refine ⟨_, hlane, Stride.set_overwritten ?_ (by omega)⟩
    simp only [new, List.getElem?_take, List.getElem?_drop]
    rw [if_pos (by omega), hobj]
  obtain ⟨_, hloop, rfl⟩ := hkeeps.loop_one (Nat.zero_le _) rfl
  rw [processChunk, lanes_eq h]
  simp only [Option.bind_eq_bind, Option.bind_some]
  rw [Stride.overwritten_zero] at hloop
  rw [hloop, Stride.overwritten_length hchunk.le, List.take_of_length_le hnew.le]
  rfl

theorem createChunk_eq (h : start + width ≤ requests.length)
    (targetVec : List (TimerEventData E)) :
    createChunk width start requests targetVec =
      some (targetVec ++ ((plain requests).drop start).take width) := by
  let new := ((plain requests).drop start).take width
  have hkeeps : Stride.Preserves 1 width
      (createLane start requests (((requests.drop start).take width).map Prod.fst))
      fun k s => s = targetVec ++ new.take k := by
    rintro k _ hk rfl
    have hlt : start + k < requests.length := by omega
    have hnew : new[k]? = some (.new requests[start + k].1 requests[start + k].2) := by
      simp only [new, List.getElem?_take, List.getElem?_drop]
      rw [if_pos (by omega), getElem?_plain, List.getElem?_eq_getElem hlt]
      rfl
    refine ⟨_, ?_, rfl⟩
    rw [List.take_add_one, hnew, ← List.append_assoc]
    simp [createLane, hlt, Nat.lt_of_succ_le hk]
  obtain ⟨_, hloop, rfl⟩ := hkeeps.loop_one (Nat.zero_le _) rfl
  rw [createChunk, lanes_eq h]
  simp only [Option.bind_eq_bind, Option.bind_some]
  rw [List.take_zero, List.append_nil] at hloop
  rw [hloop, List.take_of_length_le (List.length_take_le _ _)]
  rfl

section Loops

variable (requests acquired)

/-- The objects up to an index are written over. -/
def Updated (i : ℕ) (result : List (TimerEventData E)) : Prop :=
  result = Stride.overwritten (plain requests) acquired i

/-- The objects from the acquired ones up to an index are made. -/
def Created (j : ℕ) (newCreations : List (TimerEventData E)) : Prop :=
  acquired.length ≤ j ∧ newCreations = ((plain requests).take j).drop acquired.length

variable {requests acquired}

theorem preserves_updated (width : ℕ) (h : acquired.length ≤ requests.length) :
    Stride.Preserves width acquired.length
      (fun i => onSlice width i (processChunk width i requests)) (Updated requests acquired) := by
  rintro i _ hi rfl
  have hlen : (Stride.overwritten (plain requests) acquired i).length = acquired.length := by
    simp only [Stride.overwritten, List.length_append, List.length_take, List.length_drop,
      length_plain]
    omega
  have hslice : (((Stride.overwritten (plain requests) acquired i).drop i).take width).length =
      width := by
    rw [List.length_take, List.length_drop]
    omega
  refine ⟨_, ?_, Stride.splice_overwritten (by rw [length_plain]; omega)⟩
  dsimp only
  rw [onSlice, if_pos (by omega), processChunk_eq (by omega) hslice]
  rfl

theorem preserves_updated_one (h : acquired.length ≤ requests.length) :
    Stride.Preserves 1 acquired.length (updateOne requests) (Updated requests acquired) := by
  rintro i _ hi rfl
  have hlt : i < requests.length := by omega
  have hplain : (plain requests)[i]? = some (.new requests[i].1 requests[i].2) := by
    rw [getElem?_plain, List.getElem?_eq_getElem hlt]
    rfl
  refine ⟨_, ?_, Stride.set_overwritten hplain (Nat.lt_of_succ_le hi)⟩
  have hold : (Stride.overwritten (plain requests) acquired i)[i]? = some acquired[i] := by
    rw [Stride.getElem?_overwritten (by rwa [length_plain]), List.getElem?_eq_getElem]
  simp [updateOne, hlt, hold, TimerEventData.new]

theorem created_append {j : ℕ} (hj : j + width ≤ requests.length)
    {newCreations : List (TimerEventData E)} (h : Created requests acquired j newCreations) :
    Created requests acquired (j + width)
      (newCreations ++ ((plain requests).drop j).take width) := by
  obtain ⟨hle, rfl⟩ := h
  refine ⟨by omega, ?_⟩
  have hlen : acquired.length ≤ ((plain requests).take j).length := by
    rw [List.length_take, length_plain]
    omega
  rw [List.take_add, List.drop_append_of_le_length hlen]

theorem preserves_created (width : ℕ) :
    Stride.Preserves width requests.length (fun j => createChunk width j requests)
      (Created requests acquired) :=
  fun _ _ hj h => ⟨_, createChunk_eq hj _, created_append hj h⟩

theorem preserves_created_one :
    Stride.Preserves 1 requests.length (createOne requests) (Created requests acquired) := by
  intro j newCreations hj h
  have hlt : j < requests.length := by omega
  have hplain : ((plain requests).drop j).take 1 = [.new requests[j].1 requests[j].2] := by
    rw [List.take_one, List.head?_drop, getElem?_plain, List.getElem?_eq_getElem hlt]
    rfl
  refine ⟨_, ?_, hplain ▸ created_append hj h⟩
  simp [createOne, hlt]

/-- What has been acquired is written over, and the rest is made anew. -/
theorem simdUpdateAndCreate_eq (h : acquired.length ≤ requests.length) :
    simdUpdateAndCreate requests acquired = some (plain requests) := by
  have hstart : Updated requests acquired 0 acquired := rfl
  obtain ⟨i, s₁, hloop₁, hs₁, -, hi, -⟩ :=
    (preserves_updated 8 h).loop (by decide) (Nat.zero_le _) hstart
  obtain ⟨i', s₂, hloop₂, hs₂, -, hi', -⟩ :=
    (preserves_updated 4 h).loop (by decide) hi hs₁
  obtain ⟨s₃, hloop₃, hs₃⟩ := (preserves_updated_one h).loop_one hi' hs₂
  have hstart' : Created requests acquired acquired.length [] := ⟨le_rfl, by simp⟩
  obtain ⟨j, t₁, hloop₄, ht₁, -, hj, -⟩ :=
    (preserves_created 8).loop (by decide) h hstart'
  obtain ⟨j', t₂, hloop₅, ht₂, -, hj', -⟩ :=
    (preserves_created 4).loop (by decide) hj ht₁
  obtain ⟨t₃, hloop₆, -, rfl⟩ := preserves_created_one.loop_one hj' ht₂
  have hupdated : s₃ = (plain requests).take acquired.length := by
    rw [hs₃, Stride.overwritten_length le_rfl]
  have hcreated : (plain requests).take requests.length = plain requests :=
    List.take_of_length_le (length_plain requests).le
  rw [simdUpdateAndCreate]
  simp only [simdProcessChunk, simdProcessChunk4, simdCreateChunk, simdCreateChunk4, hloop₁,
    hloop₂, hloop₃, hloop₄, hloop₅, hloop₆, Option.bind_eq_bind, Option.bind_some]
  rw [hupdated, hcreated, List.take_append_drop]
  rfl

end Loops

end Batch

section Pool

variable (p : TimerEventPool E) (requests : List (ConnectionId × E))

theorem acquireEach_eq :
    p.acquireEach requests = (plain requests, { p with pool := p.pool.drop requests.length }) := by
  induction requests generalizing p with
  | nil => rfl
  | cons r requests ih =>
    rw [acquireEach, acquire]
    rcases hp : p.pool with - | ⟨obj, pool⟩
    · simp [ih, hp, plain]
    · simp [ih, plain, TimerEventData.new]

theorem popUpTo_eq (count : ℕ) :
    p.popUpTo count = (p.pool.take count, { p with pool := p.pool.drop count }) := by
  induction count generalizing p with
  | zero => rfl
  | succ count ih =>
    obtain ⟨pool, config⟩ := p
    cases pool with
    | nil => rfl
    | cons obj pool => simp [popUpTo, ih]

/-- A batch gets what one request after the other would have got, and leaves the same pool. -/
theorem batchAcquire_eq : p.batchAcquire requests = some (p.acquireEach requests) := by
  rw [batchAcquire]
  split
  · rfl
  · have hle : (p.pool.take requests.length).length ≤ requests.length := List.length_take_le _ _
    rw [popUpTo_eq, acquireEach_eq]
    simp [simdUpdateAndCreate_eq hle]

variable {p} {bound : ℕ}

theorem length_release_le (hbound : p.config.maxSize ≤ bound) (h : p.pool.length ≤ bound)
    (obj : TimerEventData E) : (p.release obj).pool.length ≤ bound := by
  rw [release]
  split
  · rw [List.length_append, List.length_singleton]
    omega
  · exact h

theorem length_batchRelease_le (hbound : p.config.maxSize ≤ bound) (h : p.pool.length ≤ bound)
    (objects : List (TimerEventData E)) : (p.batchRelease objects).pool.length ≤ bound := by
  simp only [batchRelease, List.length_append, List.length_take]
  omega

/-- No use of the pool panics, and none fills it above a bound that its maximum size meets. -/
theorem exists_next (hbound : p.config.maxSize ≤ bound) (h : p.pool.length ≤ bound) (op : Op E) :
    ∃ p', p.next op = some p' ∧ p'.config = p.config ∧ p'.pool.length ≤ bound := by
  cases op with
  | acquire connectionId timeoutEvent =>
    have heq := congrArg Prod.snd (acquireEach_eq p [(connectionId, timeoutEvent)])
    refine ⟨{ p with pool := p.pool.drop 1 }, congrArg some heq, rfl, ?_⟩
    exact (List.length_drop ▸ Nat.sub_le _ _).trans h
  | batchAcquire requests =>
    refine ⟨{ p with pool := p.pool.drop requests.length }, ?_, rfl, ?_⟩
    · rw [next, batchAcquire_eq, acquireEach_eq]
      rfl
    · exact (List.length_drop ▸ Nat.sub_le _ _).trans h
  | release obj =>
    refine ⟨_, rfl, ?_, length_release_le hbound h obj⟩
    rw [release]
    split <;> rfl
  | batchRelease objects => exact ⟨_, rfl, rfl, length_batchRelease_le hbound h objects⟩

theorem exists_foldlM_next (hbound : p.config.maxSize ≤ bound) (h : p.pool.length ≤ bound)
    (ops : List (Op E)) :
    ∃ p', ops.foldlM next p = some p' ∧ p'.pool.length ≤ bound := by
  induction ops generalizing p with
  | nil => exact ⟨p, rfl, h⟩
  | cons op ops ih =>
    obtain ⟨p₁, hnext, hconfig, hp₁⟩ := exists_next hbound h op
    obtain ⟨p', hrun, hp'⟩ := ih (hconfig ▸ hbound) hp₁
    exact ⟨p', by rw [List.foldlM_cons, hnext]; exact hrun, hp'⟩

/-- Whatever lies in the pool, a batch gets new objects in order, as from acquiring one after the
other; and however the pool is used, it does not panic and does not grow beyond the larger of its
two sizes. -/
theorem pool_transparent [Inhabited E] :
    (∀ (p : TimerEventPool E) (requests : List (ConnectionId × E)),
      p.batchAcquire requests = some (p.acquireEach requests) ∧
        (p.acquireEach requests).1 = requests.map fun r => .new r.1 r.2) ∧
    ∀ (config : PoolConfig) (ops : List (Op E)), ∃ p : TimerEventPool E,
      ops.foldlM next (.new config) = some p ∧
        p.pool.length ≤ max config.maxSize config.initialSize := by
  refine ⟨fun p requests => ⟨batchAcquire_eq p requests, ?_⟩, fun config ops => ?_⟩
  · rw [acquireEach_eq, plain]
  · have hinit : (new config : TimerEventPool E).pool.length = config.initialSize :=
      List.length_replicate
    exact exists_foldlM_next (le_max_left _ _) (hinit.le.trans (le_max_right _ _)) ops

end Pool

end TimerEventPool

/-- Makes events in batches, large ones through its pool in chunks. -/
structure OptimizedBatchProcessor (E : Type) where
  eventPool : TimerEventPool E
  batchThreshold : ℕ
  processedCount : ℕ := 0
  smallBatchCount : ℕ := 0
  largeBatchCount : ℕ := 0

namespace OptimizedBatchProcessor

variable {E : Type} (p : OptimizedBatchProcessor E)

def new [Inhabited E] (poolSize batchThreshold : ℕ) : OptimizedBatchProcessor E where
  eventPool := .new
    { maxSize := poolSize, initialSize := poolSize / 4, enableBatchOptimization := true }
  batchThreshold := batchThreshold

/-- Makes an event for each request; `none` where an index is out of bounds. -/
def createEventsOptimized (requests : List (ConnectionId × E)) :
    Option (List (TimerEventData E) × OptimizedBatchProcessor E) :=
  let batchSize := requests.length
  let p := { p with processedCount := p.processedCount + batchSize }
  if p.batchThreshold ≤ batchSize then
    let p := { p with largeBatchCount := p.largeBatchCount + 1 }
    (p.eventPool.batchAcquire requests).map fun (events, eventPool) =>
      (events, { p with eventPool })
  else
    let p := { p with smallBatchCount := p.smallBatchCount + 1 }
    let (events, eventPool) := p.eventPool.acquireEach requests
    some (events, { p with eventPool })

def processCompleted (events : List (TimerEventData E)) : OptimizedBatchProcessor E :=
  { p with eventPool := p.eventPool.batchRelease events }

/-- The events are those that plain construction makes, whatever lies in the pool. -/
theorem createEventsOptimized_eq (requests : List (ConnectionId × E)) :
    ∃ p', p.createEventsOptimized requests =
      some (requests.map fun r => .new r.1 r.2, p') := by
  rw [createEventsOptimized]
  dsimp only
  split
  · simp [TimerEventPool.batchAcquire_eq, TimerEventPool.acquireEach_eq, TimerEventPool.plain]
  · simp [TimerEventPool.acquireEach_eq, TimerEventPool.plain]

end OptimizedBatchProcessor

end Kestrel
