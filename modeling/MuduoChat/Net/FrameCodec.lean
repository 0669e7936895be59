import MuduoChat.Net.Receive

/-!
# Frames and their bytes

The encoder of frames accepts the frames that the decoder gives, and no others, and writes the
bytes that the decoder takes off the buffer.  Numbers are compared bit by bit, and then the header
field by field.
-/

namespace MuduoChat

/-! ### Numbers -/

lemma joined16 (v : UInt16) : (v >>> 8).toUInt8.toUInt16 <<< 8 ||| v.toUInt8.toUInt16 = v := by
  apply UInt16.toBitVec_inj.1
  ext i hi
  simp [-UInt16.toUInt16_toUInt8]
  grind

lemma joined32 (v : UInt32) :
    (v >>> 24).toUInt8.toUInt32 <<< 24 ||| (v >>> 16).toUInt8.toUInt32 <<< 16 |||
      (v >>> 8).toUInt8.toUInt32 <<< 8 ||| v.toUInt8.toUInt32 = v := by
  apply UInt32.toBitVec_inj.1
  ext i hi
  simp [-UInt32.toUInt32_toUInt8]
  grind

lemma writeBe16_readBe16 (p : List UInt8) (i : ℕ) :
    writeBe16 (readBe16 p i) = [byteAt p i, byteAt p (i + 1)] := by
  simp only [writeBe16, readBe16, List.cons.injEq, and_true]
  constructor <;> (apply UInt8.toBitVec_inj.1; ext j hj; simp)
  grind

lemma writeBe32_readBe32 (p : List UInt8) (i : ℕ) :
    writeBe32 (readBe32 p i) =
      [byteAt p i, byteAt p (i + 1), byteAt p (i + 2), byteAt p (i + 3)] := by
  simp only [writeBe32, readBe32, List.cons.injEq, and_true]
  refine ⟨?_, ?_, ?_, ?_⟩ <;> (apply UInt8.toBitVec_inj.1; ext j hj; simp) <;> grind

namespace StreamCodec

/-! ### The header -/

section Header

variable {maxBodyLength : UInt32} {frame : Frame} {p : List UInt8}

lemma header_frameAt (h : 20 ≤ p.length) : header (frameAt p) = p.take 20 := by
  have hbytes : p.take 20 = (List.range 20).map (byteAt p) := by
    refine List.ext_getElem (by simpa using h) fun i hi hi' => ?_
    rw [List.length_map, List.length_range] at hi'
    rw [List.getElem_take, List.getElem_map, List.getElem_range, byteAt,
      List.getD_eq_getElem p 0 (by omega)]
  rw [hbytes]
  simp only [header, frameAt, writeBe32_readBe32, writeBe16_readBe16]
  rfl

lemma frameAt_header (hbody : frame.bodyLength.toNat = frame.body.length) (rest : List UInt8) :
    frameAt (header frame ++ frame.body ++ rest) = frame := by
  have hmagic : readBe32 (header frame ++ frame.body ++ rest) 0 = frame.magic := joined32 _
  have hlength : readBe16 (header frame ++ frame.body ++ rest) 6 = frame.headerLength := joined16 _
  have hsize : readBe32 (header frame ++ frame.body ++ rest) 8 = frame.bodyLength := joined32 _
  have htype : readBe16 (header frame ++ frame.body ++ rest) 12 = frame.messageType := joined16 _
  have hid : readBe32 (header frame ++ frame.body ++ rest) 16 = frame.requestId := joined32 _
  rw [frameAt, bodySize, hmagic, hlength, hsize, htype, hid, hbody, List.append_assoc,
    List.drop_left' (length_header frame), List.take_left]
  rfl

/-- What the encoder asks of a frame. -/
structure Accepted (maxBodyLength : UInt32) (frame : Frame) : Prop where
  magic : frame.magic = kMagic
  version : frame.version = kVersion
  headerLength : frame.headerLength = kHeaderLength
  flags : frame.flags = 0
  reserved : frame.reserved = 0
  contentType : frame.contentType = kContentTypeJson
  bodyLength : frame.bodyLength.toNat = frame.body.length
  size : frame.body.length ≤ (clip maxBodyLength).toNat

lemma encode_cases (maxBodyLength : UInt32) (frame : Frame) (output : Buffer) :
    let result := (new maxBodyLength).encode frame output
    (Accepted maxBodyLength frame ∧ result.1 = .ok ∧
        result.2.contents = output.contents ++ (header frame ++ frame.body)) ∨
      (¬Accepted maxBodyLength frame ∧ result.1 ≠ .ok ∧ result.2 = output) := by
  by_cases hfields : frame.magic ≠ kMagic ∨ frame.version ≠ kVersion ∨
      frame.headerLength ≠ kHeaderLength ∨ frame.flags ≠ 0 ∨ frame.reserved ≠ 0 ∨
      frame.contentType ≠ kContentTypeJson
  · rw [encode, if_pos hfields]
    refine .inr ⟨fun h => ?_, by simp, rfl⟩
    simp [h.magic, h.version, h.headerLength, h.flags, h.reserved, h.contentType] at hfields
  by_cases hbody : frame.bodyLength.toNat ≠ frame.body.length
  · rw [encode, if_neg hfields, if_pos hbody]
    exact .inr ⟨fun h => hbody h.bodyLength, by simp, rfl⟩
  by_cases hsize : frame.body.length > (clip maxBodyLength).toNat
  · rw [encode, if_neg hfields, if_neg hbody, new, if_pos hsize]
    exact .inr ⟨fun h => absurd h.size (Nat.not_le.2 hsize), by simp, rfl⟩
  rw [encode, if_neg hfields, if_neg hbody, new, if_neg hsize]
  simp only [not_or, not_not] at hfields hbody
  obtain ⟨hmagic, hversion, hlength, hflags, hreserved, htype⟩ := hfields
  refine .inl ⟨⟨hmagic, hversion, hlength, hflags, hreserved, htype, hbody, Nat.not_lt.1 hsize⟩,
    rfl, ?_⟩
  split
  · rename_i hempty
    rw [Buffer.contents_append, List.isEmpty_iff.1 hempty, List.append_nil]
  · rw [Buffer.contents_append, Buffer.contents_append, List.append_assoc]

/-- The decoder gives the frame at the front, if it is a complete one with a header that is
accepted, and leaves the buffer alone otherwise. -/
lemma decode_cases (maxBodyLength : UInt32) (input : Buffer) :
    let result := (new maxBodyLength).decode input
    ((HeaderOk maxBodyLength input.contents ∧ 20 + bodySize input.contents ≤ input.contents.length) ∧
        result.1 = .frameReady (frameAt input.contents) ∧
        result.2.contents = input.contents.drop (20 + bodySize input.contents)) ∨
      (¬(HeaderOk maxBodyLength input.contents ∧
          20 + bodySize input.contents ≤ input.contents.length) ∧
        (∀ frame, result.1 ≠ .frameReady frame) ∧ result.2 = input) := by
  rw [decode_eq]
  unfold refusal
  split_ifs with hshort hok hmore
  · exact .inr ⟨fun h => by omega, by simp, rfl⟩
  · exact .inr ⟨fun h => by omega, by simp, rfl⟩
  · exact .inl ⟨⟨hok, Nat.not_lt.1 hmore⟩, rfl, Buffer.contents_retrieve _ _⟩
  · exact .inr ⟨fun h => hok h.1, by simp, rfl⟩
  · exact .inr ⟨fun h => hok h.1, by simp, rfl⟩

lemma Accepted.headerOk (h : Accepted maxBodyLength frame) (hp : frameAt p = frame) :
    HeaderOk maxBodyLength p := by
  subst hp
  refine ⟨h.magic, h.version, h.headerLength, h.flags, h.reserved, ?_, h.contentType⟩
  have hsize := h.size
  rw [← h.bodyLength] at hsize
  exact UInt32.le_iff_toNat_le.2 hsize

lemma accepted_frameAt (h : HeaderOk maxBodyLength p) (hsize : 20 + bodySize p ≤ p.length) :
    Accepted maxBodyLength (frameAt p) := by
  obtain ⟨hmagic, hversion, hlength, hflags, hreserved, hbody, htype⟩ := h
  have hlen : (frameAt p).body.length = bodySize p := by
    simp only [frameAt, List.length_take, List.length_drop]
    omega
  exact ⟨hmagic, hversion, hlength, hflags, hreserved, htype, hlen.symm,
    hlen.trans_le (UInt32.le_iff_toNat_le.1 hbody)⟩

end Header

/-- **Encoder and decoder of frames are inverse to each other.**  For every limit: what the encoder
writes for a frame, followed by any bytes, is decoded to the frame and leaves these bytes; the
encoder accepts what the decoder gives, and writes the bytes that were taken; and where the decoder
gives no frame, or the encoder does not end well, the buffer is left alone. -/
theorem encode_decode_inverse (maxBodyLength : UInt32) :
    (∀ (frame : Frame) (output : Buffer),
      ((StreamCodec.new maxBodyLength).encode frame output).1 = .ok →
      ∃ bytes, ((StreamCodec.new maxBodyLength).encode frame output).2.contents =
        output.contents ++ bytes ∧
        ∀ (input : Buffer) (rest : List UInt8), input.contents = bytes ++ rest →
          ((StreamCodec.new maxBodyLength).decode input).1 = .frameReady frame ∧
            ((StreamCodec.new maxBodyLength).decode input).2.contents = rest) ∧
    (∀ (input : Buffer) (frame : Frame),
      ((StreamCodec.new maxBodyLength).decode input).1 = .frameReady frame → ∀ output : Buffer,
        ((StreamCodec.new maxBodyLength).encode frame output).1 = .ok ∧
        ∃ bytes, ((StreamCodec.new maxBodyLength).encode frame output).2.contents =
          output.contents ++ bytes ∧
          input.contents = bytes ++ ((StreamCodec.new maxBodyLength).decode input).2.contents) ∧
    (∀ input : Buffer,
      (∀ frame, ((StreamCodec.new maxBodyLength).decode input).1 ≠ .frameReady frame) →
      ((StreamCodec.new maxBodyLength).decode input).2 = input) ∧
    ∀ (frame : Frame) (output : Buffer),
      ((StreamCodec.new maxBodyLength).encode frame output).1 ≠ .ok →
      ((StreamCodec.new maxBodyLength).encode frame output).2 = output := by
  refine ⟨fun frame output hok => ?_, fun input frame hready output => ?_, fun input hother => ?_,
    fun frame output hother => ?_⟩
  · obtain ⟨haccepted, -, hwritten⟩ | ⟨-, hnot, -⟩ := encode_cases maxBodyLength frame output
    · refine ⟨_, hwritten, fun input rest hinput => ?_⟩
      have hframe := frameAt_header haccepted.bodyLength rest
      rw [← hinput] at hframe
      have hsize : 20 + bodySize input.contents = (header frame ++ frame.body).length := by
        rw [List.length_append, length_header, ← haccepted.bodyLength, ← hframe]
        rfl
      obtain ⟨-, hready, hrest⟩ | ⟨hnot, -⟩ := decode_cases maxBodyLength input
      · rw [hframe] at hready
        rw [hsize, hinput, List.drop_left] at hrest
        exact ⟨hready, hrest⟩
      · refine absurd ⟨haccepted.headerOk hframe, ?_⟩ hnot
        rw [hsize, hinput]
        exact (List.sublist_append_left _ rest).length_le
    · exact absurd hok hnot
  · obtain ⟨⟨hheader, hsize⟩, hframe, hrest⟩ | ⟨-, hnot, -⟩ := decode_cases maxBodyLength input
    · obtain rfl := DecodeResult.frameReady.inj (hframe.symm.trans hready)
      have haccepted := accepted_frameAt hheader hsize
      obtain ⟨-, hok, hwritten⟩ | ⟨hnot, -⟩ :=
        encode_cases maxBodyLength (frameAt input.contents) output
      · refine ⟨hok, _, hwritten, ?_⟩
        have hbody : (frameAt input.contents).body =
            (input.contents.drop 20).take (bodySize input.contents) := rfl
        rw [hrest, header_frameAt (by omega), hbody, ← List.take_add, List.take_append_drop]
      · exact absurd haccepted hnot
    · exact absurd hready (hnot frame)
  · obtain ⟨-, hready, -⟩ | ⟨-, -, hsame⟩ := decode_cases maxBodyLength input
    · exact absurd hready (hother _)
    · exact hsame
  · obtain ⟨-, hok, -⟩ | ⟨-, -, hsame⟩ := encode_cases maxBodyLength frame output
    · exact absurd hok hother
    · exact hsame

end StreamCodec

end MuduoChat
