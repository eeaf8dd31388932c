import Kestrel.Endpoint.Sender
import Kestrel.Packet.Codec
import Kestrel.Reliability.Sizes

/-! # The packet builder

Frames are added one by one to a packet that is handed to a sender when the next frame does not fit
into it, and at the end. The sender is any action that can fail or keep a state. What it is handed
is a greedy packing of the frames by the number of bytes they are written as.
-/

namespace Kestrel

@[simp] theorem Frame.length_bytes (f : Frame) : f.bytes.length = f.encodedSize := by
  cases f <;> simp [bytes, encodedSize, Nat.add_assoc]

theorem Frame.length_of_encode {f : Frame} {b : Bytes} (h : f.encode = some b) :
    b.length = f.encodedSize := by
  unfold encode at h
  split at h
  · cases h
    exact f.length_bytes
  · cases h

theorem length_flatMap_bytes (fs : List Frame) : (fs.flatMap Frame.bytes).length = totalSize fs := by
  simp [totalSize, List.length_flatMap]

/-- A packet being filled. -/
structure PacketBuilder where
  frames : List Frame
  currentSize : ℕ
  maxSize : ℕ
  deriving DecidableEq, Repr

namespace PacketBuilder

def new (maxSize : ℕ) : PacketBuilder := { frames := [], currentSize := 0, maxSize }

section Operations

variable {m : Type → Type} [Monad m] (sender : List Frame → m Unit) (b : PacketBuilder)

/-- Sends what has been added as one packet. -/
def flush : m PacketBuilder :=
  if b.frames.isEmpty then pure b
  else do
    sender b.frames
    pure { b with frames := [], currentSize := 0 }

def addFrame (frame : Frame) : m PacketBuilder := do
  let frameSize := frame.encodedSize
  let b ← if !b.frames.isEmpty && b.currentSize + frameSize > b.maxSize then b.flush sender
    else pure b
  pure { b with frames := b.frames ++ [frame], currentSize := b.currentSize + frameSize }

def addFrames (frames : List Frame) : m PacketBuilder := frames.foldlM (addFrame sender) b

/-- Sends packets as they are, and skips empty ones. -/
def sendMultiplePackets (packets : List (List Frame)) : m Unit :=
  packets.forM fun p => if p.isEmpty then pure () else sender p

/-- Adds frames to a new builder and sends the rest. -/
def packFrames (maxSize : ℕ) (frames : List Frame) : m PacketBuilder := do
  let b ← (new maxSize).addFrames sender frames
  b.flush sender

end Operations

/-- A builder that holds a packet. -/
def holding (maxSize : ℕ) (current : List Frame) : PacketBuilder :=
  ⟨current, totalSize current, maxSize⟩

variable {m : Type → Type} [Monad m] {sender : List Frame → m Unit} {maxSize : ℕ}
  {current : List Frame}

theorem flush_holding (h : current ≠ []) :
    (holding maxSize current).flush sender = sender current >>= fun _ => pure (new maxSize) := by
  simp [flush, holding, new, h]

variable [LawfulMonad m]

theorem addFrame_holding_of_le {f : Frame} (h : totalSize current + f.encodedSize ≤ maxSize) :
    (holding maxSize current).addFrame sender f = pure (holding maxSize (current ++ [f])) := by
  simp [addFrame, holding, not_lt.mpr h]

theorem addFrame_holding_of_lt {f : Frame} (hc : current ≠ [])
    (h : maxSize < totalSize current + f.encodedSize) :
    (holding maxSize current).addFrame sender f =
      sender current >>= fun _ => pure (holding maxSize [f]) := by
  have hflush : (holding maxSize current).flush sender = _ := flush_holding hc
  simp only [addFrame]
  rw [if_pos (by simpa [holding, hc] using h), hflush]
  simp [holding, new]

theorem addFrame_new (f : Frame) :
    (new maxSize).addFrame sender f = pure (holding maxSize [f]) := by
  simp [addFrame, new, holding]

theorem addFrames_holding (hc : current ≠ []) (fs : List Frame) :
    ((holding maxSize current).addFrames sender fs >>= flush sender) =
      (Packing.fill Frame.encodedSize maxSize current fs).forM sender >>= fun _ =>
        pure (new maxSize) := by
  induction fs generalizing current with
  | nil => simp [addFrames, Packing.fill, flush_holding hc]
  | cons f fs ih =>
    have hsize : Packing.total Frame.encodedSize current = totalSize current := rfl
    simp only [addFrames] at ih
    rw [addFrames, List.foldlM_cons, Packing.fill, hsize]
    split
    · rename_i hle
      rw [addFrame_holding_of_le hle, pure_bind, ih (by simp)]
    · rename_i hgt
      rw [addFrame_holding_of_lt hc (not_le.mp hgt)]
      simp only [bind_assoc, pure_bind, List.forM, ih (List.cons_ne_nil f [])]

/-- What the builder sends are the datagrams the endpoint cuts. -/
theorem buildPackets_eq (maxSize : ℕ) (f : Frame) (fs : List Frame) :
    Endpoint.buildPackets maxSize (f :: fs) = Packing.fill Frame.encodedSize maxSize [f] fs := by
  rw [Endpoint.buildPackets, ← totalSize_singleton f, fillPackets_eq (by simp)]

/-- The packets are a greedy packing of the frames, by the number of bytes written for them. -/
structure Partitions (maxSize : ℕ) (frames : List Frame) (packets : List (List Frame)) : Prop where
  packing : Packing.IsPacking Frame.encodedSize maxSize frames packets
  written : ∀ p ∈ packets, (p.flatMap Frame.bytes).length = Packing.total Frame.encodedSize p
  encoded : ∀ f ∈ frames, ∀ b ∈ f.encode, b.length = f.encodedSize

theorem partitions_buildPackets (maxSize : ℕ) (frames : List Frame) :
    Partitions maxSize frames (Endpoint.buildPackets maxSize frames) where
  packing := by
    cases frames with
    | nil => exact Packing.isPacking_nil
    | cons f fs =>
      rw [buildPackets_eq]
      exact Packing.isPacking_fill (by simp) (Packing.admitted_singleton f) fs
  written p _ := length_flatMap_bytes p
  encoded _ _ _ hb := Frame.length_of_encode hb

/-- Whatever the sender does with a packet, it is handed the datagrams of the endpoint. -/
theorem packFrames_eq (sender : List Frame → m Unit) (maxSize : ℕ) (frames : List Frame) :
    packFrames sender maxSize frames =
      (Endpoint.buildPackets maxSize frames).forM sender >>= fun _ => pure (new maxSize) := by
  cases frames with
  | nil => simp [packFrames, addFrames, flush, new, Endpoint.buildPackets]
  | cons f fs =>
    have hrun : ((holding maxSize [f]).addFrames sender fs >>= flush sender) = _ :=
      addFrames_holding (by simp) fs
    rw [buildPackets_eq, ← hrun]
    simp only [packFrames, addFrames, List.foldlM_cons, addFrame_new, pure_bind]

/-- The packets handed to the sender one after the other, until it fails, are a greedy packing of
the frames, in order and without loss. -/
theorem packFrames_partitions (sender : List Frame → m Unit) (maxSize : ℕ) (frames : List Frame) :
    packFrames sender maxSize frames =
        (Endpoint.buildPackets maxSize frames).forM sender >>= (fun _ => pure (new maxSize)) ∧
      Partitions maxSize frames (Endpoint.buildPackets maxSize frames) :=
  ⟨packFrames_eq sender maxSize frames, partitions_buildPackets maxSize frames⟩

section Sample

/-- A sender that writes down what it is handed. -/
def record (packet : List Frame) : StateM (List (List Frame)) Unit :=
  modify (· ++ [packet])

/-- Three PUSH frames of 22 bytes each, of which two fit into a packet. -/
theorem packFrames_partitions_sample :
    packFrames record 50 (List.replicate 3 (.newPush 1 0 0 0 0 [7])) =
        (Endpoint.buildPackets 50 (List.replicate 3 (.newPush 1 0 0 0 0 [7]))).forM record >>=
          (fun _ => pure (new 50)) ∧
      Partitions 50 (List.replicate 3 (.newPush 1 0 0 0 0 [7]))
        (Endpoint.buildPackets 50 (List.replicate 3 (.newPush 1 0 0 0 0 [7]))) :=
  packFrames_partitions record 50 _

example : ((packFrames record 50 (List.replicate 3 (.newPush 1 0 0 0 0 [7]))).run []).2.map
    List.length = [2, 1] := by
  decide

end Sample

end PacketBuilder

namespace Endpoint

variable {C : Type} {t : Tick} {e : Endpoint C}

/-- Sending frames as an action on the endpoint. -/
def rawSender (t : Tick) (frames : List Frame) :
    StateT (Endpoint C) (Except (Error × Endpoint C)) Unit :=
  fun e => (e.sendRawFrames t frames).map fun e => ((), e)

theorem forM_rawSender (packets : List (List Frame)) :
    (packets.forM (rawSender t)).run e = (e.sendPackets t packets).map fun e => ((), e) := by
  induction packets generalizing e with
  | nil => rfl
  | cons p packets ih =>
    simp only [List.forM, StateT.run_bind, sendPackets, List.foldlM_cons] at ih ⊢
    simp only [StateT.run, rawSender]
    cases h : e.sendRawFrames t p with
    | error r => rfl
    | ok e' => exact ih

/-- The endpoint sends frames with a packet builder. -/
theorem sendFrames_eq_packFrames (frames : List Frame) :
    (e.sendFrames t frames).map (fun e => ((), e)) =
      ((fun _ => ()) <$> PacketBuilder.packFrames (rawSender t)
        e.config.connection.maxPacketSize frames).run e := by
  rw [sendFrames, ← forM_rawSender, PacketBuilder.packFrames_eq]
  simp

/-- Packets that are sent as they are go out one after the other. -/
theorem sendPackets_eq_sendMultiplePackets (packets : List (List Frame)) :
    (e.sendPackets t packets).map (fun e => ((), e)) =
      (PacketBuilder.sendMultiplePackets (rawSender t) packets).run e := by
  have hskip : (fun p : List Frame => if p.isEmpty then pure () else rawSender t p) =
      (rawSender t : List Frame → StateT (Endpoint C) (Except (Error × Endpoint C)) Unit) := by
    ext p : 1
    cases p <;> rfl
  rw [PacketBuilder.sendMultiplePackets, hskip, forM_rawSender]

end Endpoint

end Kestrel
