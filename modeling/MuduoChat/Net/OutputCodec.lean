import MuduoChat.Net.Buffer

/-!
# Encoding of messages

How a message becomes the bytes that go over the wire.  A connection has one of two codecs, or
none: a line codec that adds a line feed, and a frame codec that puts a header of twenty bytes
in front.  Both write into a buffer.  `OutputCodec.frame?` says what they are for: the bytes of
a message, or nothing if the message is too long.
-/

namespace MuduoChat

/-- How encoding ends. -/
inductive EncodeResult where
  | ok
  | tooLarge
  | invalidFrame
  deriving DecidableEq, Repr

/-! ### Frames -/

structure Frame where
  magic : UInt32 := 0
  version : UInt8 := 0
  flags : UInt8 := 0
  headerLength : UInt16 := 0
  bodyLength : UInt32 := 0
  messageType : UInt16 := 0
  contentType : UInt8 := 0
  reserved : UInt8 := 0
  requestId : UInt32 := 0
  body : List UInt8 := []
  deriving DecidableEq

/-- Two bytes, the more significant one first. -/
def writeBe16 (v : UInt16) : List UInt8 := [(v >>> 8).toUInt8, v.toUInt8]

/-- Four bytes, the most significant one first. -/
def writeBe32 (v : UInt32) : List UInt8 :=
  [(v >>> 24).toUInt8, (v >>> 16).toUInt8, (v >>> 8).toUInt8, v.toUInt8]

/-- The codec of frames, with the greatest length of a body. -/
structure StreamCodec where
  maxBodyLength : UInt32
  deriving DecidableEq

namespace StreamCodec

def kMagic : UInt32 := 0x4D434854

def kVersion : UInt8 := 2

def kHeaderLength : UInt16 := 20

def kDefaultMaxBodyLength : UInt32 := 1024 * 1024

def kHardMaxBodyLength : UInt32 := 16 * 1024 * 1024

def kContentTypeJson : UInt8 := 1

/-- A limit is not above the hard one. -/
def clip (maxBodyLength : UInt32) : UInt32 :=
  if maxBodyLength < kHardMaxBodyLength then maxBodyLength else kHardMaxBodyLength

def new (maxBodyLength : UInt32 := kDefaultMaxBodyLength) : StreamCodec := ⟨clip maxBodyLength⟩

def header (frame : Frame) : List UInt8 :=
  writeBe32 frame.magic ++ [frame.version, frame.flags] ++ writeBe16 frame.headerLength ++
    writeBe32 frame.bodyLength ++ writeBe16 frame.messageType ++
    [frame.contentType, frame.reserved] ++ writeBe32 frame.requestId

def encode (codec : StreamCodec) (frame : Frame) (output : Buffer) : EncodeResult × Buffer :=
  if frame.magic ≠ kMagic ∨ frame.version ≠ kVersion ∨ frame.headerLength ≠ kHeaderLength ∨
      frame.flags ≠ 0 ∨ frame.reserved ≠ 0 ∨ frame.contentType ≠ kContentTypeJson then
    (.invalidFrame, output)
  else if frame.bodyLength.toNat ≠ frame.body.length then
    (.invalidFrame, output)
  else if frame.body.length > codec.maxBodyLength.toNat then
    (.tooLarge, output)
  else
    let output := output.append (header frame)
    (.ok, if frame.body.isEmpty then output else output.append frame.body)

@[simp] lemma length_header (frame : Frame) : (header frame).length = 20 := rfl

end StreamCodec

/-! ### Codecs of messages -/

/-- The codecs of a connection: lines, and frames with a greatest length of a body. -/
inductive OutputCodec where
  | legacyJsonLine
  | binaryFrame (maxBodyLength : UInt32)
  deriving DecidableEq

/-- The greatest number of type `size_t`. -/
def sizeMax : ℕ := 2 ^ 64 - 1

namespace BinaryFrameCodec

def frame (message : List UInt8) : Frame where
  magic := StreamCodec.kMagic
  version := StreamCodec.kVersion
  headerLength := StreamCodec.kHeaderLength
  bodyLength := UInt32.ofNat message.length
  messageType := 1
  contentType := StreamCodec.kContentTypeJson
  body := message

def encode (maxBodyLength : UInt32) (message : List UInt8) (output : Buffer) :
    EncodeResult × Buffer :=
  if message.length > (StreamCodec.clip maxBodyLength).toNat then (.tooLarge, output)
  else (StreamCodec.new maxBodyLength).encode (frame message) output

def encodedSize (maxBodyLength : UInt32) (payloadBytes : ℕ) : ℕ :=
  if payloadBytes > (StreamCodec.clip maxBodyLength).toNat then sizeMax
  else StreamCodec.kHeaderLength.toNat + payloadBytes

end BinaryFrameCodec

namespace LegacyJsonLineCodec

def encode (message : List UInt8) (output : Buffer) : EncodeResult × Buffer :=
  (.ok, (output.append message).append [0x0A])

def encodedSize (payloadBytes : ℕ) : ℕ := payloadBytes + 1

end LegacyJsonLineCodec

namespace OutputCodec

def encode : OutputCodec → List UInt8 → Buffer → EncodeResult × Buffer
  | legacyJsonLine => LegacyJsonLineCodec.encode
  | binaryFrame maxBodyLength => BinaryFrameCodec.encode maxBodyLength

/-- The number of bytes of an encoded message, or the greatest number if it is too long. -/
def encodedSize : OutputCodec → ℕ → ℕ
  | legacyJsonLine => LegacyJsonLineCodec.encodedSize
  | binaryFrame maxBodyLength => BinaryFrameCodec.encodedSize maxBodyLength

/-- The bytes of a message, if it is not too long. -/
def frame? : OutputCodec → List UInt8 → Option (List UInt8)
  | legacyJsonLine, message => some (message ++ [0x0A])
  | binaryFrame maxBodyLength, message =>
    if message.length ≤ (StreamCodec.clip maxBodyLength).toNat then
      some (StreamCodec.header (BinaryFrameCodec.frame message) ++ message)
    else none

lemma toNat_clip_le (maxBodyLength : UInt32) :
    (StreamCodec.clip maxBodyLength).toNat ≤ 16 * 1024 * 1024 := by
  unfold StreamCodec.clip
  split
  · rename_i hlt
    have hle := UInt32.le_iff_toNat_le.1 (UInt32.le_of_lt hlt)
    exact hle
  · exact le_rfl

lemma encode_of_frame {codec : OutputCodec} {message bytes : List UInt8}
    (h : codec.frame? message = some bytes) (output : Buffer) :
    (codec.encode message output).1 = .ok ∧
      (codec.encode message output).2.contents = output.contents ++ bytes := by
  cases codec with
  | legacyJsonLine =>
    cases h
    simp [encode, LegacyJsonLineCodec.encode]
  | binaryFrame maxBodyLength =>
    simp only [frame?] at h
    split at h
    · rename_i hlen
      cases h
      have hclip := toNat_clip_le maxBodyLength
      -- the length survives the conversion to 32 bits
      have hbody : (UInt32.ofNat message.length).toNat = message.length := by
        rw [UInt32.toNat_ofNat', Nat.mod_eq_of_lt]
        omega
      have hlong : ¬message.length > (StreamCodec.clip maxBodyLength).toNat := by omega
      simp only [encode, BinaryFrameCodec.encode, if_neg hlong, StreamCodec.encode,
        StreamCodec.new, BinaryFrameCodec.frame, hbody, ne_eq, not_true_eq_false, or_self,
        if_false]
      by_cases hempty : message = []
      · simp [hempty]
      · simp [hempty, Nat.not_lt.2 hlen]
    · cases h

lemma encodedSize_of_frame {codec : OutputCodec} {message bytes : List UInt8}
    (h : codec.frame? message = some bytes) : codec.encodedSize message.length = bytes.length := by
  cases codec with
  | legacyJsonLine =>
    cases h
    simp [encodedSize, LegacyJsonLineCodec.encodedSize]
  | binaryFrame maxBodyLength =>
    simp only [frame?] at h
    split at h
    · rename_i hlen
      cases h
      have hlong : ¬message.length > (StreamCodec.clip maxBodyLength).toNat := by omega
      simp only [encodedSize, BinaryFrameCodec.encodedSize, if_neg hlong, List.length_append,
        StreamCodec.length_header]
      rfl
    · cases h

lemma encodedSize_of_none {codec : OutputCodec} {message : List UInt8}
    (h : codec.frame? message = none) : codec.encodedSize message.length = sizeMax := by
  cases codec with
  | legacyJsonLine => cases h
  | binaryFrame maxBodyLength =>
    simp only [frame?] at h
    split at h
    · cases h
    · rename_i hlen
      have hlong : message.length > (StreamCodec.clip maxBodyLength).toNat := by omega
      simp [encodedSize, BinaryFrameCodec.encodedSize, hlong]

end OutputCodec

end MuduoChat
