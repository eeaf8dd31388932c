import Kestrel.Packet.Frame
import Kestrel.Lib.Codec

/-! # The wire format

Frames are written one after the other into a datagram and read back until a frame cannot be
read. A frame starts with its command; a short header says how long the payload is.
-/

namespace Kestrel

namespace Command

def toU8 : Command → UInt8
  | syn => 0x01
  | synAck => 0x02
  | fin => 0x03
  | push => 0x10
  | ack => 0x11
  | ping => 0x12
  | pathChallenge => 0x13
  | pathResponse => 0x14

def fromU8 (byte : UInt8) : Option Command :=
  if byte = 0x01 then some syn
  else if byte = 0x02 then some synAck
  else if byte = 0x03 then some fin
  else if byte = 0x10 then some push
  else if byte = 0x11 then some ack
  else if byte = 0x12 then some ping
  else if byte = 0x13 then some pathChallenge
  else if byte = 0x14 then some pathResponse
  else none

def isLongHeader : Command → Bool
  | syn | synAck => true
  | _ => false

@[simp] theorem fromU8_toU8 (c : Command) : fromU8 c.toU8 = some c := by
  cases c <;> rfl

theorem toU8_of_fromU8 {byte : UInt8} {c : Command} (h : fromU8 byte = some c) :
    byte = c.toU8 := by
  unfold fromU8 at h
  split_ifs at h <;> cases h <;> assumption

end Command

/-- Reads a number of some bytes, most significant byte first. -/
def getUint (k : ℕ) (buf : Bytes) : ℕ × Bytes := (BigEndian.value (buf.take k), buf.drop k)

theorem getUint_bytes {k n : ℕ} (h : n < 256 ^ k) (rest : Bytes) :
    getUint k (BigEndian.bytes k n ++ rest) = (n, rest) := by
  have hlen := BigEndian.length_bytes k n
  rw [getUint, List.take_left' hlen, List.drop_left' hlen, BigEndian.value_bytes_of_lt h]

theorem eq_of_getUint {k n : ℕ} {buf rest : Bytes} (hk : k ≤ buf.length)
    (h : getUint k buf = (n, rest)) : buf = BigEndian.bytes k n ++ rest ∧ n < 256 ^ k := by
  cases h
  have hlen : (buf.take k).length = k := List.length_take_of_le hk
  have hlt := BigEndian.value_lt (buf.take k)
  rw [hlen] at hlt
  exact ⟨by rw [BigEndian.bytes_value hlen, List.take_append_drop], hlt⟩

theorem getUint_append {k : ℕ} {buf : Bytes} (hk : k ≤ buf.length) (more : Bytes) :
    getUint k (buf ++ more) = ((getUint k buf).1, (getUint k buf).2 ++ more) := by
  rw [getUint, getUint, List.take_append_of_le_length hk, List.drop_append_of_le_length hk]

namespace ShortHeader

def encode (h : ShortHeader) : Bytes :=
  h.command.toU8 :: (BigEndian.bytes 4 h.connectionId ++ (BigEndian.bytes 2 h.payloadLength ++
    (BigEndian.bytes 2 h.recvWindowSize ++ (BigEndian.bytes 4 h.timestamp ++
      (BigEndian.bytes 4 h.sequenceNumber ++ BigEndian.bytes 4 h.recvNextSequence)))))

def decode (buf : Bytes) : Option (ShortHeader × Bytes) :=
  if buf.length < 1 + encodedSize then none
  else
    match buf with
    | [] => none
    | byte :: buf =>
      match Command.fromU8 byte with
      | none => none
      | some command =>
        if command.isLongHeader then none
        else
          let (connectionId, buf) := getUint 4 buf
          let (payloadLength, buf) := getUint 2 buf
          let (recvWindowSize, buf) := getUint 2 buf
          let (timestamp, buf) := getUint 4 buf
          let (sequenceNumber, buf) := getUint 4 buf
          let (recvNextSequence, buf) := getUint 4 buf
          some ({ command, connectionId, payloadLength, recvWindowSize, timestamp, sequenceNumber,
                  recvNextSequence }, buf)

/-- Every field has the width of its type. -/
structure Fits (h : ShortHeader) : Prop where
  connectionId : h.connectionId < u32Size
  payloadLength : h.payloadLength < u16Size
  recvWindowSize : h.recvWindowSize < u16Size
  timestamp : h.timestamp < u32Size
  sequenceNumber : h.sequenceNumber < u32Size
  recvNextSequence : h.recvNextSequence < u32Size

variable {h : ShortHeader} {buf rest : Bytes}

@[simp] theorem length_encode : h.encode.length = 1 + encodedSize := by
  simp [encode, encodedSize]

theorem decode_encode (hf : h.Fits) (hc : h.command.isLongHeader = false) (rest : Bytes) :
    decode (h.encode ++ rest) = some (h, rest) := by
  have hlen : ¬ (h.encode ++ rest).length < 1 + encodedSize := by
    rw [List.length_append, length_encode]
    omega
  rw [decode.eq_def, if_neg hlen, encode]
  simp only [List.cons_append, List.append_assoc, Command.fromU8_toU8, hc]
  rw [if_neg Bool.false_ne_true, getUint_bytes hf.connectionId, getUint_bytes hf.payloadLength,
    getUint_bytes hf.recvWindowSize, getUint_bytes hf.timestamp, getUint_bytes hf.sequenceNumber,
    getUint_bytes hf.recvNextSequence]

theorem eq_of_decode (hd : decode buf = some (h, rest)) :
    buf = h.encode ++ rest ∧ h.command.isLongHeader = false ∧ h.Fits := by
  unfold decode at hd
  split_ifs at hd with hlen
  cases buf with
  | nil => cases hd
  | cons byte buf =>
    rw [not_lt, List.length_cons, encodedSize] at hlen
    dsimp only at hd
    cases hb : Command.fromU8 byte with
    | none =>
      rw [hb] at hd
      cases hd
    | some command =>
      rw [hb] at hd
      dsimp only at hd
      split_ifs at hd with hc
      generalize h₁ : getUint 4 buf = r₁ at hd
      obtain ⟨n₁, b₁⟩ := r₁
      obtain ⟨rfl, hn₁⟩ := eq_of_getUint (by omega) h₁
      rw [List.length_append, BigEndian.length_bytes] at hlen
      dsimp only at hd
      generalize h₂ : getUint 2 b₁ = r₂ at hd
      obtain ⟨n₂, b₂⟩ := r₂
      obtain ⟨rfl, hn₂⟩ := eq_of_getUint (by omega) h₂
      rw [List.length_append, BigEndian.length_bytes] at hlen
      dsimp only at hd
      generalize h₃ : getUint 2 b₂ = r₃ at hd
      obtain ⟨n₃, b₃⟩ := r₃
      obtain ⟨rfl, hn₃⟩ := eq_of_getUint (by omega) h₃
      rw [List.length_append, BigEndian.length_bytes] at hlen
      dsimp only at hd
      generalize h₄ : getUint 4 b₃ = r₄ at hd
      obtain ⟨n₄, b₄⟩ := r₄
      obtain ⟨rfl, hn₄⟩ := eq_of_getUint (by omega) h₄
      rw [List.length_append, BigEndian.length_bytes] at hlen
      dsimp only at hd
      generalize h₅ : getUint 4 b₄ = r₅ at hd
      obtain ⟨n₅, b₅⟩ := r₅
      obtain ⟨rfl, hn₅⟩ := eq_of_getUint (by omega) h₅
      rw [List.length_append, BigEndian.length_bytes] at hlen
      dsimp only at hd
      generalize h₆ : getUint 4 b₅ = r₆ at hd
      obtain ⟨n₆, b₆⟩ := r₆
      obtain ⟨rfl, hn₆⟩ := eq_of_getUint (by omega) h₆
      cases hd
      refine ⟨?_, Bool.eq_false_iff.mpr hc, ⟨hn₁, hn₂, hn₃, hn₄, hn₅, hn₆⟩⟩
      rw [encode, ← Command.toU8_of_fromU8 hb]
      simp only [List.cons_append, List.append_assoc]

end ShortHeader

namespace LongHeader

def encode (h : LongHeader) : Bytes :=
  h.command.toU8 :: (BigEndian.bytes 1 h.protocolVersion ++
    (BigEndian.bytes 4 h.destinationCid ++ BigEndian.bytes 4 h.sourceCid))

def decode (buf : Bytes) : Option (LongHeader × Bytes) :=
  if buf.length < 1 + encodedSize then none
  else
    match buf with
    | [] => none
    | byte :: buf =>
      match Command.fromU8 byte with
      | none => none
      | some command =>
        if !command.isLongHeader then none
        else
          let (protocolVersion, buf) := getUint 1 buf
          let (destinationCid, buf) := getUint 4 buf
          let (sourceCid, buf) := getUint 4 buf
          some ({ command, protocolVersion, destinationCid, sourceCid }, buf)

structure Fits (h : LongHeader) : Prop where
  protocolVersion : h.protocolVersion < 256
  destinationCid : h.destinationCid < u32Size
  sourceCid : h.sourceCid < u32Size

variable {h : LongHeader} {buf rest : Bytes}

@[simp] theorem length_encode : h.encode.length = 1 + encodedSize := by
  simp [encode, encodedSize]

theorem decode_encode (hf : h.Fits) (hc : h.command.isLongHeader = true) (rest : Bytes) :
    decode (h.encode ++ rest) = some (h, rest) := by
  have hlen : ¬ (h.encode ++ rest).length < 1 + encodedSize := by
    rw [List.length_append, length_encode]
    omega
  rw [decode.eq_def, if_neg hlen, encode]
  simp only [List.cons_append, List.append_assoc, Command.fromU8_toU8, hc]
  rw [if_neg (by simp), getUint_bytes hf.protocolVersion, getUint_bytes hf.destinationCid,
    getUint_bytes hf.sourceCid]

theorem eq_of_decode (hd : decode buf = some (h, rest)) :
    buf = h.encode ++ rest ∧ h.command.isLongHeader = true ∧ h.Fits := by
  unfold decode at hd
  split_ifs at hd with hlen
  cases buf with
  | nil => cases hd
  | cons byte buf =>
    rw [not_lt, List.length_cons, encodedSize] at hlen
    dsimp only at hd
    cases hb : Command.fromU8 byte with
    | none =>
      rw [hb] at hd
      cases hd
    | some command =>
      rw [hb] at hd
      dsimp only at hd
      split_ifs at hd with hc
      generalize h₁ : getUint 1 buf = r₁ at hd
      obtain ⟨n₁, b₁⟩ := r₁
      obtain ⟨rfl, hn₁⟩ := eq_of_getUint (by omega) h₁
      rw [List.length_append, BigEndian.length_bytes] at hlen
      dsimp only at hd
      generalize h₂ : getUint 4 b₁ = r₂ at hd
      obtain ⟨n₂, b₂⟩ := r₂
      obtain ⟨rfl, hn₂⟩ := eq_of_getUint (by omega) h₂
      rw [List.length_append, BigEndian.length_bytes] at hlen
      dsimp only at hd
      generalize h₃ : getUint 4 b₂ = r₃ at hd
      obtain ⟨n₃, b₃⟩ := r₃
      obtain ⟨rfl, hn₃⟩ := eq_of_getUint (by omega) h₃
      cases hd
      refine ⟨?_, by simpa using hc, ⟨hn₁, hn₂, hn₃⟩⟩
      rw [encode, ← Command.toU8_of_fromU8 hb]
      simp only [List.cons_append, List.append_assoc]

end LongHeader

namespace Frame

/-- The command of a frame of this kind. -/
def command : Frame → Command
  | .syn _ => .syn
  | .synAck _ => .synAck
  | .fin _ => .fin
  | .push .. => .push
  | .ack .. => .ack
  | .ping _ => .ping
  | .pathChallenge .. => .pathChallenge
  | .pathResponse .. => .pathResponse

/-- Reads what follows a short header, by its command. -/
def decodeBody (header : ShortHeader) (cursor : Bytes) : Option (Frame × Bytes) :=
  let payloadLen := header.payloadLength
  match header.command with
  | .push => some (.push header (cursor.take payloadLen), cursor.drop payloadLen)
  | .ack => some (.ack header (cursor.take payloadLen), cursor.drop payloadLen)
  | .ping => some (.ping header, cursor)
  | .fin => some (.fin header, cursor)
  | .pathChallenge =>
    if cursor.length < 8 then none
    else
      let (challengeData, cursor) := getUint 8 cursor
      some (.pathChallenge header challengeData, cursor)
  | .pathResponse =>
    if cursor.length < 8 then none
    else
      let (challengeData, cursor) := getUint 8 cursor
      some (.pathResponse header challengeData, cursor)
  | .syn | .synAck => none

def decode (cursor : Bytes) : Option (Frame × Bytes) :=
  match cursor with
  | [] => none
  | byte :: _ =>
    match Command.fromU8 byte with
    | none => none
    | some command =>
      if command.isLongHeader then
        match LongHeader.decode cursor with
        | none => none
        | some (header, cursor) =>
          match header.command with
          | .syn => some (.syn header, cursor)
          | .synAck => some (.synAck header, cursor)
          | _ => none
      else
        match ShortHeader.decode cursor with
        | none => none
        | some (header, cursor) =>
          if header.payloadLength > 0 ∧ cursor.length < header.payloadLength then none
          else decodeBody header cursor

/-- What the debug assertions ask for before a frame is written. -/
def lengthMatches : Frame → Bool
  | .push header payload | .ack header payload => header.payloadLength = payload.length
  | .ping header | .fin header => header.payloadLength = 0
  | .syn _ | .synAck _ => true
  | .pathChallenge header _ | .pathResponse header _ => header.payloadLength = 8

def bytes : Frame → Bytes
  | .push header payload | .ack header payload => header.encode ++ payload
  | .ping header | .fin header => header.encode
  | .syn header | .synAck header => header.encode
  | .pathChallenge header challengeData | .pathResponse header challengeData =>
    header.encode ++ BigEndian.bytes 8 challengeData

/-- Writes a frame; `none` where an assertion fails. -/
def encode (f : Frame) : Option Bytes := if f.lengthMatches then some f.bytes else none

/-- The header and the challenge have the widths of their types. -/
def Fits : Frame → Prop
  | .syn header | .synAck header => header.Fits
  | .push header _ | .ack header _ | .ping header | .fin header => header.Fits
  | .pathChallenge header challengeData | .pathResponse header challengeData =>
    header.Fits ∧ challengeData < 256 ^ 8

def headerCommand : Frame → Command
  | .syn header | .synAck header => header.command
  | .push header _ | .ack header _ | .ping header | .fin header | .pathChallenge header _
  | .pathResponse header _ => header.command

/-- The fields fit, the header's command is that of the kind, and the header declares the length
of the payload. -/
structure WellFormed (f : Frame) : Prop where
  fits : f.Fits
  command_eq : f.headerCommand = f.command
  length_eq : f.lengthMatches = true

variable {f : Frame} {buf rest : Bytes}

theorem decode_of_long {header : LongHeader} (hc : header.command.isLongHeader = true)
    (hf : header.Fits) (rest : Bytes) :
    decode (header.encode ++ rest) =
      match header.command with
      | .syn => some (.syn header, rest)
      | .synAck => some (.synAck header, rest)
      | _ => none := by
  have hd := LongHeader.decode_encode hf hc rest
  rw [LongHeader.encode, List.cons_append] at hd ⊢
  rw [decode]
  simp only [Command.fromU8_toU8, hc, if_true, hd]

theorem decode_of_short {header : ShortHeader} (hc : header.command.isLongHeader = false)
    (hf : header.Fits) (rest : Bytes) :
    decode (header.encode ++ rest) =
      if header.payloadLength > 0 ∧ rest.length < header.payloadLength then none
      else decodeBody header rest := by
  have hd := ShortHeader.decode_encode hf hc rest
  rw [ShortHeader.encode, List.cons_append] at hd ⊢
  rw [decode]
  simp only [Command.fromU8_toU8, hc, Bool.false_eq_true, if_false, hd]

theorem exists_header (hd : decode buf = some (f, rest)) :
    (∃ (h : LongHeader) (cursor : Bytes), buf = h.encode ++ cursor ∧
      h.command.isLongHeader = true ∧ h.Fits) ∨
    ∃ (h : ShortHeader) (cursor : Bytes), buf = h.encode ++ cursor ∧
      h.command.isLongHeader = false ∧ h.Fits := by
  unfold decode at hd
  split at hd
  · cases hd
  · split at hd
    · cases hd
    · split_ifs at hd
      · left
        split at hd
        · cases hd
        · rename_i h cursor hh
          exact ⟨h, cursor, LongHeader.eq_of_decode hh⟩
      · right
        split at hd
        · cases hd
        · rename_i h cursor hh
          exact ⟨h, cursor, ShortHeader.eq_of_decode hh⟩

/-- What a frame that was read says about the bytes: it was written there, its header belongs to
its kind, and a payload that is kept has the declared length. -/
structure Read (buf : Bytes) (f : Frame) (rest : Bytes) : Prop where
  bytes_eq : buf = f.bytes ++ rest
  command_eq : f.headerCommand = f.command
  fits : f.Fits
  payload_eq : f.command = .push ∨ f.command = .ack → f.lengthMatches = true

theorem read_of_decodeBody {header : ShortHeader} {cursor : Bytes} (hf : header.Fits)
    (hle : header.payloadLength ≤ cursor.length) (hd : decodeBody header cursor = some (f, rest)) :
    Read (header.encode ++ cursor) f rest := by
  have hlen : decide (header.payloadLength = (cursor.take header.payloadLength).length) = true := by
    simpa using hle
  unfold decodeBody at hd
  dsimp only at hd
  split at hd
  · cases hd
    refine ⟨?_, ‹_›, hf, fun _ => hlen⟩
    rw [bytes, List.append_assoc, List.take_append_drop]
  · cases hd
    refine ⟨?_, ‹_›, hf, fun _ => hlen⟩
    rw [bytes, List.append_assoc, List.take_append_drop]
  · cases hd
    exact ⟨rfl, ‹_›, hf, by simp [command]⟩
  · cases hd
    exact ⟨rfl, ‹_›, hf, by simp [command]⟩
  · split at hd
    · cases hd
    · rename_i hc h8
      cases hd
      obtain ⟨he, hlt⟩ := eq_of_getUint (not_lt.mp h8) rfl
      refine ⟨?_, hc, ⟨hf, hlt⟩, by simp [command]⟩
      rw [bytes, List.append_assoc]
      exact congrArg (header.encode ++ ·) he
  · split at hd
    · cases hd
    · rename_i hc h8
      cases hd
      obtain ⟨he, hlt⟩ := eq_of_getUint (not_lt.mp h8) rfl
      refine ⟨?_, hc, ⟨hf, hlt⟩, by simp [command]⟩
      rw [bytes, List.append_assoc]
      exact congrArg (header.encode ++ ·) he
  · cases hd
  · cases hd

theorem read_of_decode (hd : decode buf = some (f, rest)) : Read buf f rest := by
  rcases exists_header hd with ⟨h, cursor, rfl, hc, hf⟩ | ⟨h, cursor, rfl, hc, hf⟩
  · rw [decode_of_long hc hf] at hd
    split at hd <;> cases hd
    · exact ⟨rfl, ‹_›, hf, by simp [command]⟩
    · exact ⟨rfl, ‹_›, hf, by simp [command]⟩
  · rw [decode_of_short hc hf] at hd
    split at hd
    · cases hd
    · rename_i hlen
      exact read_of_decodeBody hf (by omega) hd

theorem decode_bytes (h : f.WellFormed) (rest : Bytes) :
    decode (f.bytes ++ rest) = some (f, rest) := by
  obtain ⟨hf, hc, hl⟩ := h
  cases f with
  | push header payload | ack header payload =>
    have hc : header.command = _ := hc
    have hl : header.payloadLength = payload.length := of_decide_eq_true hl
    rw [bytes, List.append_assoc, decode_of_short (by rw [hc]; rfl) hf, if_neg (by simp [hl]),
      decodeBody, hc, hl]
    simp only [command, List.take_left, List.drop_left]
  | ping header | fin header =>
    have hc : header.command = _ := hc
    have hl : header.payloadLength = 0 := of_decide_eq_true hl
    rw [bytes, decode_of_short (by rw [hc]; rfl) hf, if_neg (by simp [hl]), decodeBody, hc]
    rfl
  | syn header | synAck header =>
    have hc : header.command = _ := hc
    rw [bytes, decode_of_long (by rw [hc]; rfl) hf, hc]
    rfl
  | pathChallenge header data | pathResponse header data =>
    have hc : header.command = _ := hc
    have hl : header.payloadLength = 8 := of_decide_eq_true hl
    have hlen : ¬ (BigEndian.bytes 8 data ++ rest).length < 8 := by simp
    rw [bytes, List.append_assoc, decode_of_short (by rw [hc]; rfl) hf.1, if_neg (by simp [hl]),
      decodeBody, hc]
    simp only [command, if_neg hlen, getUint_bytes hf.2]

theorem decodeBody_append {header : ShortHeader} {cursor : Bytes}
    (hle : header.payloadLength ≤ cursor.length) (hd : decodeBody header cursor = some (f, rest))
    (more : Bytes) : decodeBody header (cursor ++ more) = some (f, rest ++ more) := by
  unfold decodeBody at hd ⊢
  dsimp only at hd ⊢
  rw [List.take_append_of_le_length hle, List.drop_append_of_le_length hle]
  split at hd
  · cases hd
    rfl
  · cases hd
    rfl
  · cases hd
    rfl
  · cases hd
    rfl
  · split at hd
    · cases hd
    · rename_i h8
      cases hd
      rw [if_neg (by rw [List.length_append]; omega), getUint_append (not_lt.mp h8)]
  · split at hd
    · cases hd
    · rename_i h8
      cases hd
      rw [if_neg (by rw [List.length_append]; omega), getUint_append (not_lt.mp h8)]
  · cases hd
  · cases hd

theorem decode_append (hd : decode buf = some (f, rest)) (more : Bytes) :
    decode (buf ++ more) = some (f, rest ++ more) := by
  rcases exists_header hd with ⟨h, cursor, rfl, hc, hf⟩ | ⟨h, cursor, rfl, hc, hf⟩
  · rw [decode_of_long hc hf] at hd
    rw [List.append_assoc, decode_of_long hc hf]
    split at hd <;> cases hd <;> rfl
  · rw [decode_of_short hc hf] at hd
    rw [List.append_assoc, decode_of_short hc hf]
    split at hd
    · cases hd
    · rename_i hlen
      rw [if_neg (by rw [List.length_append]; omega)]
      exact decodeBody_append (by omega) hd more

theorem bytes_ne_nil : f.bytes ≠ [] := by
  cases f <;> simp [bytes, ShortHeader.encode, LongHeader.encode]

theorem selfDelimiting : Codec.SelfDelimiting bytes decode WellFormed :=
  .of_local (fun _ h => decode_bytes h) (fun _ _ _ more h => decode_append h more)
    fun _ _ => bytes_ne_nil

theorem encode_of_wellFormed (h : f.WellFormed) : f.encode = some f.bytes := if_pos h.length_eq

end Frame

/-- Writes the frames of a datagram; `none` where an assertion fails. -/
def serializeFrames : List Frame → Option Bytes
  | [] => some []
  | f :: fs =>
    match f.encode, serializeFrames fs with
    | some b, some bs => some (b ++ bs)
    | _, _ => none

/-- Reads frames until the bytes end or a frame cannot be read. A frame takes at least one byte,
so as many rounds as bytes are enough. -/
def deserializeFrames (buffer : Bytes) : List Frame :=
  Codec.decodeAll Frame.decode buffer.length buffer

theorem serializeFrames_of_wellFormed {fs : List Frame} (h : ∀ f ∈ fs, f.WellFormed) :
    serializeFrames fs = some (fs.flatMap Frame.bytes) := by
  induction fs with
  | nil => rfl
  | cons f fs ih =>
    rw [serializeFrames, Frame.encode_of_wellFormed (h f (List.mem_cons_self ..)),
      ih fun g hg => h g (List.mem_cons_of_mem _ hg)]
    rfl

/-- How many frames at the front of a list are written wholly within so many bytes. -/
def FitsWithin (fs : List Frame) (n k : ℕ) : Prop :=
  k ≤ fs.length ∧ ∃ b, serializeFrames (fs.take k) = some b ∧ b.length ≤ n

/-- Reading the first bytes of a datagram yields the longest prefix of its frames that lies wholly
within them, and reading all of them yields all frames. -/
theorem deserialize_take_serialize {fs : List Frame} (h : ∀ f ∈ fs, f.WellFormed) :
    ∃ b, serializeFrames fs = some b ∧ deserializeFrames b = fs ∧
      ∀ n ≤ b.length, ∃ k, IsGreatest {k | FitsWithin fs n k} k ∧
        deserializeFrames (b.take n) = fs.take k := by
  have hser := serializeFrames_of_wellFormed h
  have hwithin (n k : ℕ) : FitsWithin fs n k ↔
      k ≤ fs.length ∧ ((fs.take k).flatMap Frame.bytes).length ≤ n := by
    rw [FitsWithin, serializeFrames_of_wellFormed fun f hf => h f (List.mem_of_mem_take hf)]
    simp
  have hcut (n : ℕ) (hn : n ≤ (fs.flatMap Frame.bytes).length) :
      deserializeFrames ((fs.flatMap Frame.bytes).take n) =
        fs.take (Codec.wholeItems Frame.bytes fs n) := by
    rw [deserializeFrames, List.length_take_of_le hn]
    exact Frame.selfDelimiting.decodeAll_take h le_rfl
  have hmax (n : ℕ) : IsGreatest {k | FitsWithin fs n k} (Codec.wholeItems Frame.bytes fs n) := by
    simp only [hwithin]
    exact Codec.wholeItems_isGreatest fs n
  refine ⟨_, hser, ?_, fun n hn => ⟨_, hmax n, hcut n hn⟩⟩
  have hall : fs.length ≤ Codec.wholeItems Frame.bytes fs (fs.flatMap Frame.bytes).length := by
    apply (hmax _).2
    exact ⟨le_rfl, _, by rw [List.take_length]; exact hser, le_rfl⟩
  have hfull := hcut _ le_rfl
  rwa [List.take_length, List.take_of_length_le hall] at hfull

/-- Three kinds of frames, written one after the other, with some of the bytes of the last one
missing. -/
theorem deserialize_take_serialize_sample :
    ∃ b, serializeFrames [.newSyn 1 7 0, .newPush 2 0 0 9 5 [1, 2], .newPathChallenge 2 1 5 99] =
      some b ∧ deserializeFrames b =
        [.newSyn 1 7 0, .newPush 2 0 0 9 5 [1, 2], .newPathChallenge 2 1 5 99] ∧
      ∀ n ≤ b.length, ∃ k,
        IsGreatest {k | FitsWithin
          [.newSyn 1 7 0, .newPush 2 0 0 9 5 [1, 2], .newPathChallenge 2 1 5 99] n k} k ∧
        deserializeFrames (b.take n) =
          [.newSyn 1 7 0, .newPush 2 0 0 9 5 [1, 2], .newPathChallenge 2 1 5 99].take k := by
  apply deserialize_take_serialize
  intro f hf
  simp only [List.mem_cons, List.not_mem_nil, or_false] at hf
  rcases hf with rfl | rfl | rfl
  · exact ⟨⟨by decide, by decide, by decide⟩, rfl, rfl⟩
  · exact ⟨⟨by decide, by decide, by decide, by decide, by decide, by decide⟩, rfl, rfl⟩
  · exact ⟨⟨⟨by decide, by decide, by decide, by decide, by decide, by decide⟩, by decide⟩, rfl,
      rfl⟩

namespace Frame

variable {f : Frame} {buf rest : Bytes}

/-- The payload length that bytes declare when they start with a short header. -/
def declaredLength (buf : Bytes) : ℕ := BigEndian.value ((buf.drop 5).take 2)

/-- The bytes declare the payload length that a frame of their command has. -/
def DeclaresPayload (buf : Bytes) : Prop :=
  match buf.head?.bind Command.fromU8 with
  | some .ping | some .fin => declaredLength buf = 0
  | some .pathChallenge | some .pathResponse => declaredLength buf = 8
  | _ => True

def shortHeader? : Frame → Option ShortHeader
  | .push header _ | .ack header _ | .ping header | .fin header | .pathChallenge header _
  | .pathResponse header _ => some header
  | .syn _ | .synAck _ => none

/-- Reading a frame has taken what its header says, and that is what is written for the frame. -/
structure Canonical (buf : Bytes) (f : Frame) (rest : Bytes) : Prop where
  consumed : ∀ h, f.shortHeader? = some h →
    buf.length - rest.length = 1 + ShortHeader.encodedSize + h.payloadLength
  encoded : f.encode = some (buf.take (buf.length - rest.length))
  decoded : decode (buf.take (buf.length - rest.length)) = some (f, [])

theorem declaredLength_encode {h : ShortHeader} (hf : h.Fits) (rest : Bytes) :
    declaredLength (h.encode ++ rest) = h.payloadLength := by
  have hdrop (l : Bytes) : (BigEndian.bytes 4 h.connectionId ++ l).drop 4 = l :=
    List.drop_left' (BigEndian.length_bytes ..)
  have htake (l : Bytes) : (BigEndian.bytes 2 h.payloadLength ++ l).take 2 =
      BigEndian.bytes 2 h.payloadLength := List.take_left' (BigEndian.length_bytes ..)
  rw [declaredLength, ShortHeader.encode, List.cons_append, List.drop_succ_cons, List.append_assoc,
    hdrop, List.append_assoc, htake, BigEndian.value_bytes_of_lt hf.payloadLength]

/-- The assertions hold for a frame that was read exactly when the bytes declare its length. -/
theorem Read.lengthMatches_iff (h : Read buf f rest) :
    f.lengthMatches = true ↔ DeclaresPayload buf := by
  obtain ⟨rfl, hc, hf, hp⟩ := h
  have hhead (header : ShortHeader) (l : Bytes) :
      (header.encode ++ l).head?.bind Command.fromU8 = some header.command :=
    Command.fromU8_toU8 _
  have hlong (header : LongHeader) (l : Bytes) :
      (header.encode ++ l).head?.bind Command.fromU8 = some header.command :=
    Command.fromU8_toU8 _
  cases f with
  | push header payload | ack header payload =>
    have hc : header.command = _ := hc
    rw [DeclaresPayload, bytes, List.append_assoc, hhead, hc]
    exact iff_of_true (hp (by simp [command])) trivial
  | ping header | fin header =>
    have hc : header.command = _ := hc
    rw [DeclaresPayload, bytes, hhead, hc, declaredLength_encode hf]
    exact decide_eq_true_iff
  | syn header | synAck header =>
    have hc : header.command = _ := hc
    rw [DeclaresPayload, bytes, hlong, hc]
    exact iff_of_true rfl trivial
  | pathChallenge header data | pathResponse header data =>
    have hc : header.command = _ := hc
    rw [DeclaresPayload, bytes, List.append_assoc, hhead, hc, declaredLength_encode hf.1]
    exact decide_eq_true_iff

theorem length_bytes_of_shortHeader {h : ShortHeader} (hh : f.shortHeader? = some h)
    (hl : f.lengthMatches = true) :
    f.bytes.length = 1 + ShortHeader.encodedSize + h.payloadLength := by
  cases f with
  | syn | synAck => cases hh
  | push header payload | ack header payload =>
    cases hh
    have hl : h.payloadLength = payload.length := of_decide_eq_true hl
    rw [bytes, List.length_append, ShortHeader.length_encode, hl]
  | ping | fin =>
    cases hh
    have hl : h.payloadLength = 0 := of_decide_eq_true hl
    rw [bytes, ShortHeader.length_encode, hl, Nat.add_zero]
  | pathChallenge | pathResponse =>
    cases hh
    have hl : h.payloadLength = 8 := of_decide_eq_true hl
    rw [bytes, List.length_append, ShortHeader.length_encode, BigEndian.length_bytes, hl]

/-- Reading is canonical exactly where the bytes declare the payload length of their command. -/
theorem decode_canonical_iff (hd : decode buf = some (f, rest)) :
    Canonical buf f rest ↔ DeclaresPayload buf := by
  have hr := read_of_decode hd
  have htaken : buf.length - rest.length = f.bytes.length ∧
      buf.take (buf.length - rest.length) = f.bytes := by
    rw [hr.bytes_eq, List.length_append, Nat.add_sub_cancel]
    exact ⟨rfl, List.take_left⟩
  rw [← hr.lengthMatches_iff]
  constructor
  · rintro ⟨-, henc, -⟩
    unfold encode at henc
    split at henc
    · assumption
    · cases henc
  · intro hl
    have hwf : f.WellFormed := ⟨hr.fits, hr.command_eq, hl⟩
    constructor
    · intro h hh
      rw [htaken.1]
      exact length_bytes_of_shortHeader hh hl
    · rw [htaken.2]
      exact encode_of_wellFormed hwf
    · rw [htaken.2]
      have hback := decode_bytes hwf []
      rwa [List.append_nil] at hback

/-- The header of a PING that declares a payload of some length. -/
def pingHeader (declared : ℕ) : ShortHeader := ⟨.ping, 2, declared, 9, 0, 0, 0⟩

def finHeader : ShortHeader := ⟨.fin, 2, 0, 9, 0, 5, 0⟩

/-- A PING followed by a FIN is read as a PING, whatever payload it declares. -/
theorem decode_ping_fin (declared : ℕ) (h : declared ≤ 21) :
    decode ((pingHeader declared).encode ++ finHeader.encode) =
      some (.ping (pingHeader declared), finHeader.encode) := by
  have hlen : finHeader.encode.length = 21 := ShortHeader.length_encode
  have hfits : (pingHeader declared).Fits := by
    constructor <;> simp only [pingHeader, u16Size, u32Size] <;> omega
  rw [decode_of_short rfl hfits, if_neg (by rw [hlen]; simp only [pingHeader]; omega)]
  rfl

theorem decode_canonical_iff_sample :
    Canonical ((pingHeader 0).encode ++ finHeader.encode) (.ping (pingHeader 0)) finHeader.encode ↔
      DeclaresPayload ((pingHeader 0).encode ++ finHeader.encode) :=
  decode_canonical_iff (decode_ping_fin 0 (by decide))

/-- When the PING declares the FIN as its payload, the FIN is still read as a frame. -/
theorem ping_payload_read_as_frame :
    decode ((pingHeader 21).encode ++ finHeader.encode) =
      some (.ping (pingHeader 21), finHeader.encode) ∧
    ¬ Canonical ((pingHeader 21).encode ++ finHeader.encode) (.ping (pingHeader 21))
      finHeader.encode ∧
    deserializeFrames ((pingHeader 21).encode ++ finHeader.encode) =
      [.ping (pingHeader 21), .fin finHeader] := by
  have hping := decode_ping_fin 21 le_rfl
  have hlen (h : ShortHeader) : h.encode.length = 21 := ShortHeader.length_encode
  refine ⟨hping, ?_, ?_⟩
  · intro h
    have hconsumed := h.consumed _ rfl
    rw [List.length_append, hlen, hlen] at hconsumed
    revert hconsumed
    decide
  · have hfin : decode (finHeader.encode ++ []) = some (.fin finHeader, []) := by
      apply decode_bytes (f := .fin finHeader)
      exact ⟨⟨by decide, by decide, by decide, by decide, by decide, by decide⟩, rfl, rfl⟩
    have hne : finHeader.encode.isEmpty = false := rfl
    have hne' : ((pingHeader 21).encode ++ finHeader.encode).isEmpty = false := rfl
    rw [List.append_nil] at hfin
    rw [deserializeFrames, List.length_append, hlen, hlen]
    simp only [Codec.decodeAll, hping, hfin, hne, hne', Bool.false_eq_true, if_false,
      List.isEmpty_nil, if_true]

end Frame

end Kestrel
