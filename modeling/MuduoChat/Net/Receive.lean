import MuduoChat.Lib.Incremental
import MuduoChat.Net.OutputCodec

/-!
# Decoding of messages

The input side of a connection.  Bytes are appended to the input buffer as they are read from the
socket, and after each read `ChatServer::onMessage` takes the complete messages off its front: with
the frame codec until there is no complete frame or a header is not acceptable, with the line codec
as long as there is a line.  Both codecs are decoders in the sense of `Decoder`, so the messages do
not depend on how the stream was cut into reads.
-/

namespace MuduoChat

/-! ### The frame codec -/

/-- How decoding a frame ends. -/
inductive DecodeResult where
  | needMore
  | frameReady (frame : Frame)
  | unsupportedVersion
  | protocolError
  deriving DecidableEq

/-- The byte at a place behind the read index. -/
def byteAt (p : List UInt8) (i : ℕ) : UInt8 := p.getD i 0

def readBe16 (p : List UInt8) (i : ℕ) : UInt16 :=
  (byteAt p i).toUInt16 <<< 8 ||| (byteAt p (i + 1)).toUInt16

def readBe32 (p : List UInt8) (i : ℕ) : UInt32 :=
  (byteAt p i).toUInt32 <<< 24 ||| (byteAt p (i + 1)).toUInt32 <<< 16 |||
    (byteAt p (i + 2)).toUInt32 <<< 8 ||| (byteAt p (i + 3)).toUInt32

/-- Take a frame off the front of the buffer. -/
def StreamCodec.decode (codec : StreamCodec) (input : Buffer) : DecodeResult × Buffer :=
  if input.readableBytes < kHeaderLength.toNat then (.needMore, input)
  else
    let p := input.contents
    let magic := readBe32 p 0
    let version := byteAt p 4
    let flags := byteAt p 5
    let headerLength := readBe16 p 6
    let bodyLength := readBe32 p 8
    let messageType := readBe16 p 12
    let contentType := byteAt p 14
    let reserved := byteAt p 15
    let requestId := readBe32 p 16
    if magic ≠ kMagic then (.protocolError, input)
    else if version ≠ kVersion then (.unsupportedVersion, input)
    else if headerLength ≠ kHeaderLength then (.protocolError, input)
    else if flags ≠ 0 then (.protocolError, input)
    else if reserved ≠ 0 then (.protocolError, input)
    else if bodyLength > codec.maxBodyLength then (.protocolError, input)
    else if contentType ≠ kContentTypeJson then (.protocolError, input)
    -- the sum is one of 32 bits
    else if input.readableBytes < (kHeaderLength.toUInt32 + bodyLength).toNat then
      (.needMore, input)
    else
      (.frameReady
        { magic, version, flags, headerLength, bodyLength, messageType, contentType, reserved,
          requestId, body := (p.drop kHeaderLength.toNat).take bodyLength.toNat },
        input.retrieve (kHeaderLength.toUInt32 + bodyLength).toNat)

/-- How decoding a message ends. -/
inductive CodecResult where
  | message (message : List UInt8)
  | needMore
  | protocolError
  deriving DecidableEq

def BinaryFrameCodec.decode (maxBodyLength : UInt32) (input : Buffer) : CodecResult × Buffer :=
  match (StreamCodec.new maxBodyLength).decode input with
  | (.frameReady frame, input) => (.message frame.body, input)
  | (.needMore, input) => (.needMore, input)
  | (_, input) => (.protocolError, input)

/-! ### The line codec -/

/-- The line without one carriage return at its end. -/
def withoutCR (line : List UInt8) : List UInt8 :=
  if line.getLast? = some 0x0D then line.dropLast else line

/-- Take a line off the front of the buffer.  Empty lines are passed over. -/
def LegacyJsonLineCodec.decode (input : Buffer) : Option (List UInt8) × Buffer :=
  if _h : input.readableBytes = 0 then (none, input)
  else
    match input.contents.idxOf? 0x0A with
    | none => (none, input)
    | some lineLen =>
      let line := withoutCR (input.contents.take lineLen)
      if line.isEmpty then LegacyJsonLineCodec.decode (input.retrieve (lineLen + 1))
      else (some line, input.retrieve (lineLen + 1))
termination_by input.readableBytes
decreasing_by
  rw [Buffer.readableBytes_retrieve]
  omega

/-! ### What the codecs decode -/

/-- The header is one of a frame that is accepted. -/
def HeaderOk (maxBodyLength : UInt32) (p : List UInt8) : Prop :=
  readBe32 p 0 = StreamCodec.kMagic ∧ byteAt p 4 = StreamCodec.kVersion ∧
    readBe16 p 6 = StreamCodec.kHeaderLength ∧ byteAt p 5 = 0 ∧ byteAt p 15 = 0 ∧
    readBe32 p 8 ≤ StreamCodec.clip maxBodyLength ∧ byteAt p 14 = StreamCodec.kContentTypeJson

instance (maxBodyLength : UInt32) (p : List UInt8) : Decidable (HeaderOk maxBodyLength p) :=
  inferInstanceAs (Decidable (_ ∧ _))

/-- The number of bytes behind the header that belong to its frame. -/
def bodySize (p : List UInt8) : ℕ := (readBe32 p 8).toNat

section Frames

variable {maxBodyLength : UInt32} {p q : List UInt8} {i : ℕ}

lemma byteAt_append (h : i < p.length) : byteAt (p ++ q) i = byteAt p i := by
  rw [byteAt, byteAt, List.getD_eq_getElem?_getD, List.getD_eq_getElem?_getD,
    List.getElem?_append_left h]

lemma readBe16_append (h : i + 2 ≤ p.length) : readBe16 (p ++ q) i = readBe16 p i := by
  rw [readBe16, readBe16, byteAt_append (by omega), byteAt_append (by omega)]

lemma readBe32_append (h : i + 4 ≤ p.length) : readBe32 (p ++ q) i = readBe32 p i := by
  rw [readBe32, readBe32, byteAt_append (by omega), byteAt_append (by omega),
    byteAt_append (by omega), byteAt_append (by omega)]

lemma headerOk_append (h : 20 ≤ p.length) :
    HeaderOk maxBodyLength (p ++ q) ↔ HeaderOk maxBodyLength p := by
  simp only [HeaderOk]
  rw [readBe32_append (by omega), readBe32_append (by omega), readBe16_append (by omega),
    byteAt_append (by omega), byteAt_append (by omega), byteAt_append (by omega),
    byteAt_append (by omega)]

lemma bodySize_append (h : 20 ≤ p.length) : bodySize (p ++ q) = bodySize p := by
  rw [bodySize, bodySize, readBe32_append (by omega)]

/-- The sum of 32 bits is the sum, since the body is not longer than the hard limit. -/
lemma toNat_headerLength_add {bodyLength : UInt32}
    (h : bodyLength ≤ StreamCodec.clip maxBodyLength) :
    (StreamCodec.kHeaderLength.toUInt32 + bodyLength).toNat = 20 + bodyLength.toNat := by
  have hclip := OutputCodec.toNat_clip_le maxBodyLength
  have hle := UInt32.le_iff_toNat_le.1 h
  have hheader : StreamCodec.kHeaderLength.toUInt32.toNat = 20 := rfl
  rw [UInt32.toNat_add, hheader, Nat.mod_eq_of_lt (by omega)]

/-- The frame at the front of some bytes. -/
def frameAt (p : List UInt8) : Frame where
  magic := readBe32 p 0
  version := byteAt p 4
  flags := byteAt p 5
  headerLength := readBe16 p 6
  bodyLength := readBe32 p 8
  messageType := readBe16 p 12
  contentType := byteAt p 14
  reserved := byteAt p 15
  requestId := readBe32 p 16
  body := (p.drop 20).take (bodySize p)

/-- How a header that is not accepted is refused. -/
def refusal (p : List UInt8) : DecodeResult :=
  if readBe32 p 0 = StreamCodec.kMagic ∧ byteAt p 4 ≠ StreamCodec.kVersion then .unsupportedVersion
  else .protocolError

lemma StreamCodec.decode_eq (maxBodyLength : UInt32) (input : Buffer) :
    (new maxBodyLength).decode input =
      if input.contents.length < 20 then (.needMore, input)
      else if ¬HeaderOk maxBodyLength input.contents then (refusal input.contents, input)
      else if input.contents.length < 20 + bodySize input.contents then (.needMore, input)
      else (.frameReady (frameAt input.contents), input.retrieve (20 + bodySize input.contents)) := by
  have hheader : kHeaderLength.toNat = 20 := rfl
  have hmax : (new maxBodyLength).maxBodyLength = clip maxBodyLength := rfl
  unfold decode
  simp only [hheader, hmax, Buffer.readableBytes_eq]
  by_cases hshort : input.contents.length < 20
  · simp only [hshort, if_true]
  by_cases hok : HeaderOk maxBodyLength input.contents
  · have hsum := toNat_headerLength_add hok.2.2.2.2.2.1
    obtain ⟨hmagic, hversion, hlength, hflags, hreserved, hbody, htype⟩ := id hok
    simp only [hshort, hmagic, hversion, hlength, hflags, hreserved, UInt32.not_lt.2 hbody, htype,
      hok, hsum, frameAt, bodySize, ne_eq, not_true_eq_false, if_false]
  · -- one of the checks fails
    simp only [hshort, hok, refusal, not_false_eq_true, if_true, if_false]
    by_cases hmagic : readBe32 input.contents 0 = kMagic
    · by_cases hversion : byteAt input.contents 4 = kVersion
      · simp only [HeaderOk, hmagic, hversion, true_and, ← UInt32.not_lt] at hok
        simp only [hmagic, hversion, ne_eq, not_true_eq_false, and_false, if_false]
        split_ifs with h3 h4 h5 h6 h7 <;> first | rfl | simp_all
      · simp [hmagic, hversion]
    · simp [hmagic]

lemma BinaryFrameCodec.decode_eq (maxBodyLength : UInt32) (input : Buffer) :
    decode maxBodyLength input =
      if input.contents.length < 20 then (.needMore, input)
      else if ¬HeaderOk maxBodyLength input.contents then (.protocolError, input)
      else if input.contents.length < 20 + bodySize input.contents then (.needMore, input)
      else
        (.message ((input.contents.drop 20).take (bodySize input.contents)),
          input.retrieve (20 + bodySize input.contents)) := by
  rw [decode, StreamCodec.decode_eq]
  unfold refusal
  split_ifs <;> rfl

/-- The frame codec as a decoder of bytes.  A complete header has its final verdict, and a complete
frame stays what it is when more bytes arrive. -/
def frameDecoder (maxBodyLength : UInt32) : Decoder UInt8 (List UInt8) where
  decode s :=
    if s.length < 20 then .needMore
    else if ¬HeaderOk maxBodyLength s then .fault
    else if s.length < 20 + bodySize s then .needMore
    else .message ((s.drop 20).take (bodySize s)) (s.drop (20 + bodySize s))
  shrinks {s rest m} h := by
    split_ifs at h with hshort hok hmore
    cases h
    rw [List.length_drop]
    omega
  message_append {s rest m} h t := by
    split_ifs at h with hshort hok hmore
    cases h
    have hok' : ¬¬HeaderOk maxBodyLength (s ++ t) := by
      rw [headerOk_append (by omega)]
      exact not_not.2 hok
    rw [if_neg (by rw [List.length_append]; omega), if_neg hok', bodySize_append (by omega),
      if_neg (by rw [List.length_append]; omega), List.drop_append_of_le_length (by omega),
      List.drop_append_of_le_length (by omega),
      List.take_append_of_le_length (by rw [List.length_drop]; omega)]
  fault_append {s} h t := by
    split_ifs at h with hshort hok hmore
    have hok' : ¬HeaderOk maxBodyLength (s ++ t) := by
      rwa [headerOk_append (by omega)]
    rw [if_neg (by rw [List.length_append]; omega), if_pos hok']

/-- The frame codec on a buffer is the decoder on its contents. -/
lemma BinaryFrameCodec.decode_spec (maxBodyLength : UInt32) (input : Buffer) :
    match decode maxBodyLength input with
    | (.message message, input') =>
      (frameDecoder maxBodyLength).decode input.contents = .message message input'.contents
    | (.protocolError, input') =>
      (frameDecoder maxBodyLength).decode input.contents = .fault ∧ input' = input
    | (.needMore, input') =>
      (frameDecoder maxBodyLength).decode input.contents = .needMore ∧ input' = input := by
  rw [decode_eq]
  simp only [frameDecoder]
  split_ifs <;> simp

end Frames

section Lines

variable {s t rest line : List UInt8}

/-- The first line of a text and what follows it, if there is a line feed. -/
def nextLine (s : List UInt8) : Option (List UInt8 × List UInt8) :=
  (s.idxOf? 0x0A).map fun n => (s.take n, s.drop (n + 1))

lemma nextLine_eq_none (s : List UInt8) : nextLine s = none ↔ 0x0A ∉ s := by
  rw [nextLine, Option.map_eq_none_iff, List.idxOf?_eq_none_iff]

lemma idxOf_lineFeed (h : 0x0A ∉ line) (rest : List UInt8) :
    (line ++ 0x0A :: rest).idxOf? 0x0A = some line.length := by
  induction line with
  | nil => simp [List.idxOf?_cons]
  | cons b line ih =>
    obtain ⟨hb, hline⟩ : 0x0A ≠ b ∧ 0x0A ∉ line := by simpa using h
    have hne : (b == 0x0A) = false := beq_eq_false_iff_ne.2 hb.symm
    rw [List.cons_append, List.idxOf?_cons, hne, ih hline]
    simp

lemma nextLine_append (h : 0x0A ∉ line) (rest : List UInt8) :
    nextLine (line ++ 0x0A :: rest) = some (line, rest) := by
  rw [nextLine, idxOf_lineFeed h]
  simp

lemma exists_line (h : 0x0A ∈ s) : ∃ line rest, s = line ++ 0x0A :: rest ∧ 0x0A ∉ line := by
  obtain ⟨line, rest, rfl, hline⟩ := List.eq_append_cons_of_mem h
  exact ⟨line, rest, rfl, hline⟩

lemma cut_at_lineFeed {n : ℕ} (h : s.idxOf? 0x0A = some n) :
    s = s.take n ++ 0x0A :: s.drop (n + 1) ∧ 0x0A ∉ s.take n := by
  have hs : 0x0A ∈ s := by
    by_contra hs
    rw [List.idxOf?_eq_none_iff.2 hs] at h
    cases h
  obtain ⟨line, rest, rfl, hline⟩ := exists_line hs
  rw [idxOf_lineFeed hline] at h
  cases h
  simpa using hline

/-- The line codec as a decoder of bytes, before empty lines are dropped. -/
def lineDecoder : Decoder UInt8 (List UInt8) where
  decode s :=
    match nextLine s with
    | none => .needMore
    | some (line, rest) => .message (withoutCR line) rest
  shrinks {s rest m} h := by
    by_cases hs : 0x0A ∈ s
    · obtain ⟨line, tail, rfl, hline⟩ := exists_line hs
      rw [nextLine_append hline] at h
      cases h
      simp
      omega
    · rw [(nextLine_eq_none s).2 hs] at h
      cases h
  message_append {s rest m} h t := by
    by_cases hs : 0x0A ∈ s
    · obtain ⟨line, tail, rfl, hline⟩ := exists_line hs
      rw [nextLine_append hline] at h
      cases h
      rw [List.append_assoc, List.cons_append, nextLine_append hline]
    · rw [(nextLine_eq_none s).2 hs] at h
      cases h
  fault_append {s} h t := by
    cases hs : nextLine s with
    | none | some p =>
      rw [hs] at h
      cases h

lemma decode_line (h : 0x0A ∉ line) (rest : List UInt8) :
    lineDecoder.decode (line ++ 0x0A :: rest) = .message (withoutCR line) rest := by
  simp only [lineDecoder, nextLine_append h]

lemma decode_tail (h : 0x0A ∉ s) : lineDecoder.decode s = .needMore := by
  simp only [lineDecoder, (nextLine_eq_none s).2 h]

lemma drain_lines (s : List UInt8) :
    ∃ (lines : List (List UInt8)) (tail : List UInt8),
      s = (lines.map (· ++ [0x0A])).flatten ++ tail ∧ (∀ line ∈ lines, 0x0A ∉ line) ∧ 0x0A ∉ tail ∧
      lineDecoder.drain s = { messages := lines.map withoutCR, rest := tail } := by
  induction hn : s.length using Nat.strong_induction_on generalizing s with
  | _ n ih =>
    by_cases hs : 0x0A ∈ s
    · obtain ⟨line, rest, rfl, hline⟩ := exists_line hs
      obtain ⟨lines, tail, hrest, hlines, htail, hdrain⟩ :=
        ih rest.length (by rw [← hn, List.length_append, List.length_cons]; omega) rest rfl
      refine ⟨line :: lines, tail, ?_, ?_, htail, ?_⟩
      · rw [List.map_cons, List.flatten_cons, List.append_assoc, ← hrest, List.append_assoc]
        rfl
      · exact List.forall_mem_cons.2 ⟨hline, hlines⟩
      · rw [Decoder.drain_message (decode_line hline rest), hdrain]
        rfl
    · exact ⟨[], s, rfl, by simp, hs, Decoder.drain_needMore (decode_tail hs)⟩

/-- The lines of a text that are not empty. -/
def keptLines (s : List UInt8) : List (List UInt8) :=
  (lineDecoder.drain s).messages.filter (!·.isEmpty)

lemma drain_at_lineFeed {n : ℕ} (h : s.idxOf? 0x0A = some n) :
    keptLines s =
        (if (withoutCR (s.take n)).isEmpty then [] else [withoutCR (s.take n)]) ++
          keptLines (s.drop (n + 1)) ∧
      (lineDecoder.drain s).rest = (lineDecoder.drain (s.drop (n + 1))).rest := by
  obtain ⟨hcut, hfree⟩ := cut_at_lineFeed h
  have hdrain := Decoder.drain_message (decode_line hfree (s.drop (n + 1)))
  rw [← hcut] at hdrain
  refine ⟨?_, by rw [hdrain]⟩
  rw [keptLines, hdrain, List.filter_cons]
  by_cases hempty : (withoutCR (s.take n)).isEmpty = true
  · simp [hempty, keptLines]
  · simp [hempty, keptLines]

end Lines

/-! ### The callback of the server -/

/-- The input side of a connection: its buffer, the messages that have been handed to the service,
and whether the connection has been closed by force. -/
structure Receiver where
  inputBuffer : Buffer := .new
  handled : List (List UInt8) := []
  closed : Bool := false

lemma BinaryFrameCodec.readableBytes_lt {maxBodyLength : UInt32} {input input' : Buffer}
    {message : List UInt8} (h : decode maxBodyLength input = (.message message, input')) :
    input'.readableBytes < input.readableBytes := by
  rw [decode_eq] at h
  split_ifs at h with hshort hok hmore <;> try cases h
  rw [Buffer.readableBytes_retrieve, Buffer.readableBytes_eq]
  omega

/-- Hand over the complete frames. -/
def ChatServer.onFrames (maxBodyLength : UInt32) (r : Receiver) : Receiver :=
  match _h : BinaryFrameCodec.decode maxBodyLength r.inputBuffer with
  | (.message message, input) =>
    onFrames maxBodyLength { r with inputBuffer := input, handled := r.handled ++ [message] }
  | (.protocolError, input) => { r with inputBuffer := input, closed := true }
  | (.needMore, input) => { r with inputBuffer := input }
termination_by r.inputBuffer.readableBytes
decreasing_by exact BinaryFrameCodec.readableBytes_lt _h

/-- What the line codec returns, in terms of the decoder: the first of the lines that are not
empty, or nothing if there is none. -/
lemma LegacyJsonLineCodec.decode_spec (input : Buffer) :
    match decode input with
    | (none, input') =>
      keptLines input.contents = [] ∧ (lineDecoder.drain input.contents).rest = input'.contents
    | (some message, input') =>
      keptLines input.contents = message :: keptLines input'.contents ∧
        (lineDecoder.drain input.contents).rest = (lineDecoder.drain input'.contents).rest ∧
        input'.readableBytes < input.readableBytes := by
  fun_induction decode input with
  | case1 input hempty =>
    have hnil : input.contents = [] := by
      rwa [Buffer.readableBytes_eq, List.length_eq_zero_iff] at hempty
    simp [keptLines, hnil, Decoder.drain_needMore (decode_tail (s := []) (by simp))]
  | case2 input hempty hnone =>
    simp [keptLines, Decoder.drain_needMore (decode_tail (List.idxOf?_eq_none_iff.1 hnone))]
  | case3 input hempty lineLen hsome line hline ih =>
    obtain ⟨hkept, hrest⟩ := drain_at_lineFeed hsome
    rw [if_pos hline, List.nil_append, ← Buffer.contents_retrieve] at hkept
    rw [← Buffer.contents_retrieve] at hrest
    rw [hkept, hrest]
    have hshort := Buffer.readableBytes_retrieve input (lineLen + 1)
    split at ih
    · exact ih
    · exact ⟨ih.1, ih.2.1, by omega⟩
  | case4 input hempty lineLen hsome line hline =>
    obtain ⟨hkept, hrest⟩ := drain_at_lineFeed hsome
    rw [if_neg hline, List.singleton_append, ← Buffer.contents_retrieve] at hkept
    rw [← Buffer.contents_retrieve] at hrest
    refine ⟨hkept, hrest, ?_⟩
    rw [Buffer.readableBytes_retrieve]
    omega

lemma LegacyJsonLineCodec.readableBytes_lt {input input' : Buffer} {message : List UInt8}
    (h : decode input = (some message, input')) :
    input'.readableBytes < input.readableBytes := by
  have hspec := decode_spec input
  rw [h] at hspec
  exact hspec.2.2

/-- Hand over the complete lines. -/
def ChatServer.onLines (r : Receiver) : Receiver :=
  match _h : LegacyJsonLineCodec.decode r.inputBuffer with
  | (some message, input) =>
    onLines { r with inputBuffer := input, handled := r.handled ++ [message] }
  | (none, input) => { r with inputBuffer := input }
termination_by r.inputBuffer.readableBytes
decreasing_by exact LegacyJsonLineCodec.readableBytes_lt _h

def ChatServer.onMessage (codec : OutputCodec) (r : Receiver) : Receiver :=
  match codec with
  | .binaryFrame maxBodyLength => ChatServer.onFrames maxBodyLength r
  | .legacyJsonLine => ChatServer.onLines r

/-- A read: bytes are appended to the input buffer, and the callback is called. -/
def Receiver.handleRead (codec : OutputCodec) (r : Receiver) (data : List UInt8) : Receiver :=
  ChatServer.onMessage codec { r with inputBuffer := r.inputBuffer.append data }

/-- A connection after some reads. -/
def Receiver.receive (codec : OutputCodec) (reads : List (List UInt8)) : Receiver :=
  reads.foldl (Receiver.handleRead codec) {}

/-! ### Reads do not matter -/

lemma ChatServer.onFrames_spec (maxBodyLength : UInt32) (r : Receiver) :
    let d := (frameDecoder maxBodyLength).drain r.inputBuffer.contents
    let r' := ChatServer.onFrames maxBodyLength r
    r'.inputBuffer.contents = d.rest ∧ r'.handled = r.handled ++ d.messages ∧
      r'.closed = (r.closed || d.fault) := by
  fun_induction ChatServer.onFrames maxBodyLength r with
  | case1 r message input hdecode ih =>
    have hspec := BinaryFrameCodec.decode_spec maxBodyLength r.inputBuffer
    rw [hdecode] at hspec
    rw [Decoder.drain_message hspec]
    simpa using ih
  | case2 r input hdecode =>
    have hspec := BinaryFrameCodec.decode_spec maxBodyLength r.inputBuffer
    rw [hdecode] at hspec
    obtain ⟨hfault, rfl⟩ := hspec
    rw [Decoder.drain_fault hfault]
    simp
  | case3 r input hdecode =>
    have hspec := BinaryFrameCodec.decode_spec maxBodyLength r.inputBuffer
    rw [hdecode] at hspec
    obtain ⟨hmore, rfl⟩ := hspec
    rw [Decoder.drain_needMore hmore]
    simp

lemma ChatServer.onLines_spec (r : Receiver) :
    (ChatServer.onLines r).inputBuffer.contents =
        (lineDecoder.drain r.inputBuffer.contents).rest ∧
      (ChatServer.onLines r).handled = r.handled ++ keptLines r.inputBuffer.contents ∧
      (ChatServer.onLines r).closed = r.closed := by
  fun_induction ChatServer.onLines r with
  | case1 r message input hdecode ih =>
    have hspec := LegacyJsonLineCodec.decode_spec r.inputBuffer
    rw [hdecode] at hspec
    obtain ⟨hkept, hrest, -⟩ := hspec
    rw [hkept, hrest]
    simpa using ih
  | case2 r input hdecode =>
    have hspec := LegacyJsonLineCodec.decode_spec r.inputBuffer
    rw [hdecode] at hspec
    obtain ⟨hkept, hrest⟩ := hspec
    rw [hkept, hrest]
    simp

namespace Receiver

/-- A connection with the frame codec, as a stage of decoding. -/
def drained (r : Receiver) : Drained UInt8 (List UInt8) where
  messages := r.handled
  rest := r.inputBuffer.contents
  fault := r.closed

/-- **The step lemma.**  A read feeds the decoder. -/
lemma drained_handleRead (maxBodyLength : UInt32) (r : Receiver) (data : List UInt8) :
    (handleRead (.binaryFrame maxBodyLength) r data).drained =
      (frameDecoder maxBodyLength).feed r.drained data := by
  obtain ⟨hrest, hhandled, hclosed⟩ := ChatServer.onFrames_spec maxBodyLength
    { r with inputBuffer := r.inputBuffer.append data }
  rw [Buffer.contents_append] at hrest hhandled hclosed
  simp only [drained, Decoder.feed, Drained.mk.injEq]
  exact ⟨hhandled, hrest, hclosed⟩

lemma drained_receive (maxBodyLength : UInt32) (reads : List (List UInt8)) :
    (receive (.binaryFrame maxBodyLength) reads).drained =
      (frameDecoder maxBodyLength).drain reads.flatten := by
  have hmore : (frameDecoder maxBodyLength).decode [] = .needMore := rfl
  have hinit : drained {} = (frameDecoder maxBodyLength).drain [] := by
    rw [Decoder.drain_needMore hmore, drained, Buffer.contents_new]
  rw [← Decoder.foldl_feed, ← hinit, receive]
  exact (List.foldl_hom drained fun r data => (drained_handleRead maxBodyLength r data).symm).symm

lemma receive_lines (reads : List (List UInt8)) :
    let r := receive .legacyJsonLine reads
    r.inputBuffer.contents = (lineDecoder.drain reads.flatten).rest ∧
      r.handled = keptLines reads.flatten := by
  induction reads using List.reverseRecOn with
  | nil =>
    have hmore : lineDecoder.decode [] = .needMore := rfl
    simp [receive, keptLines, Decoder.drain_needMore hmore]
  | append_singleton reads data ih =>
    obtain ⟨hrest, hhandled⟩ := ih
    have hread : receive .legacyJsonLine (reads ++ [data]) =
        handleRead .legacyJsonLine (receive .legacyJsonLine reads) data := by
      rw [receive, List.foldl_append]
      rfl
    obtain ⟨hcontents, hlines, -⟩ := ChatServer.onLines_spec
      { receive .legacyJsonLine reads with
        inputBuffer := (receive .legacyJsonLine reads).inputBuffer.append data }
    have hkept : keptLines (reads.flatten ++ data) =
        keptLines reads.flatten ++ keptLines ((lineDecoder.drain reads.flatten).rest ++ data) := by
      rw [keptLines, Decoder.drain_append, Decoder.feed, List.filter_append]
      rfl
    rw [hread, List.flatten_append, List.flatten_singleton, hkept, Decoder.drain_append,
      Decoder.feed, ← hrest, ← hhandled]
    rw [Buffer.contents_append] at hcontents hlines
    exact ⟨hcontents, hlines⟩

/-- **Messages do not depend on packet boundaries.**  With the frame codec two ways of cutting a
stream into reads hand over the same messages and close the connection both or neither, and after
it has been closed nothing is handed over.  With the line codec the messages are the lines of the
stream without a carriage return at the end, but for the empty ones, and what follows the last line
feed stays in the buffer. -/
theorem extraction_ignores_boundaries (maxBodyLength : UInt32) :
    (∀ reads reads' : List (List UInt8), reads.flatten = reads'.flatten →
      (receive (.binaryFrame maxBodyLength) reads).handled =
          (receive (.binaryFrame maxBodyLength) reads').handled ∧
        (receive (.binaryFrame maxBodyLength) reads).closed =
          (receive (.binaryFrame maxBodyLength) reads').closed) ∧
    (∀ reads more : List (List UInt8), (receive (.binaryFrame maxBodyLength) reads).closed = true →
      (receive (.binaryFrame maxBodyLength) (reads ++ more)).handled =
        (receive (.binaryFrame maxBodyLength) reads).handled) ∧
    ∀ reads : List (List UInt8), ∃ (lines : List (List UInt8)) (tail : List UInt8),
      reads.flatten = (lines.map (· ++ [0x0A])).flatten ++ tail ∧
        (∀ line ∈ lines, 0x0A ∉ line) ∧ 0x0A ∉ tail ∧
        (receive .legacyJsonLine reads).handled = (lines.map withoutCR).filter (!·.isEmpty) ∧
        (receive .legacyJsonLine reads).inputBuffer.contents = tail := by
  refine ⟨fun reads reads' hsame => ?_, fun reads more hclosed => ?_, fun reads => ?_⟩
  · have hview : (receive (.binaryFrame maxBodyLength) reads).drained =
        (receive (.binaryFrame maxBodyLength) reads').drained := by
      rw [drained_receive, drained_receive, hsame]
    exact ⟨congrArg Drained.messages hview, congrArg Drained.fault hview⟩
  · have hview := drained_receive maxBodyLength reads
    have hfault : (receive (.binaryFrame maxBodyLength) reads).drained.fault = true := hclosed
    have hafter := drained_receive maxBodyLength (reads ++ more)
    rw [List.flatten_append, Decoder.drain_append, ← hview] at hafter
    rw [hview] at hfault
    have hstuck := Decoder.decode_rest_of_fault _ hfault
    rw [← hview] at hstuck
    exact (congrArg Drained.messages hafter).trans
      (Decoder.messages_feed_of_fault hstuck more.flatten).1
  · obtain ⟨hrest, hhandled⟩ := receive_lines reads
    obtain ⟨lines, tail, hflat, hlines, htail, hdrain⟩ := drain_lines reads.flatten
    refine ⟨lines, tail, hflat, hlines, htail, ?_, ?_⟩
    · rw [hhandled, keptLines, hdrain]
    · rw [hrest, hdrain]

/-- A frame with a body of two bytes, and twenty zeros, which are not a header. -/
def framed : List UInt8 :=
  [0x4D, 0x43, 0x48, 0x54, 2, 0, 0, 20, 0, 0, 0, 2, 0, 1, 1, 0, 0, 0, 0, 9, 7, 8] ++
    List.replicate 20 0

/-- The body is handed over and the connection is closed, in one read or in three, and what comes
afterwards is not looked at. -/
theorem extraction_ignores_boundaries_framed :
    (receive (.binaryFrame 1024) [framed]).handled = [[7, 8]] ∧
      (receive (.binaryFrame 1024) [framed]).closed = true ∧
      (receive (.binaryFrame 1024) [framed.take 9, (framed.drop 9).take 12, framed.drop 21]).handled =
        (receive (.binaryFrame 1024) [framed]).handled ∧
      (receive (.binaryFrame 1024) ([framed] ++ [framed])).handled =
        (receive (.binaryFrame 1024) [framed]).handled := by
  have hframe : (frameDecoder 1024).decode framed = .message [7, 8] (List.replicate 20 0) := rfl
  have hbad : (frameDecoder 1024).decode (List.replicate 20 0) = .fault := rfl
  have hview := drained_receive 1024 [framed]
  rw [List.flatten_singleton, Decoder.drain_message hframe, Decoder.drain_fault hbad] at hview
  have hclosed : (receive (.binaryFrame 1024) [framed]).closed = true := congrArg Drained.fault hview
  obtain ⟨hsplit, hafter, -⟩ := extraction_ignores_boundaries 1024
  exact ⟨congrArg Drained.messages hview, hclosed, (hsplit _ _ (by decide)).1, hafter _ _ hclosed⟩

end Receiver

end MuduoChat
