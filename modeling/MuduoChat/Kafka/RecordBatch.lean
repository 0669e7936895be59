import MuduoChat.Kafka.RecordSet

/-!
# Record batches

A record batch as the format has it, with its records in the clear, and what the parser makes of a
sequence of batches: it finds their records.  The batches that the publisher writes are such
batches.  A broker cuts what it returns at a limit of bytes, so the last batch may not be complete.
-/

namespace MuduoChat

namespace RecordSet

open KafkaWire

/-! ### The format -/

/-- The length that is written for bytes that may be absent. -/
def declaredSize (o : Option (List UInt8)) : ℤ := o.elim (-1) fun b => b.length

/-- Bytes that may be absent, behind their length. -/
def nullable (o : Option (List UInt8)) : List UInt8 := varint (declaredSize o) ++ o.getD []

/-- A record.  No bit of its attributes has a meaning, the highest one is not set. -/
structure Record where
  attributes : UInt8 := 0
  timestampDelta : ℤ := 0
  offsetDelta : ℤ
  key : Option (List UInt8)
  value : Option (List UInt8)
  headers : List (List UInt8 × Option (List UInt8)) := []

structure Record.WellFormed (r : Record) : Prop where
  attributes : r.attributes.toNat < 128
  timestampDelta : -2 ^ 63 ≤ r.timestampDelta ∧ r.timestampDelta < 2 ^ 63
  offsetDelta : -2 ^ 31 ≤ r.offsetDelta ∧ r.offsetDelta < 2 ^ 31

def encodeHeader (h : List UInt8 × Option (List UInt8)) : List UInt8 :=
  nullable (some h.1) ++ nullable h.2

def Record.body (r : Record) : List UInt8 :=
  r.attributes :: (varint r.timestampDelta ++ (varint r.offsetDelta ++ (nullable r.key ++
    (nullable r.value ++ (varint r.headers.length ++ r.headers.flatMap encodeHeader)))))

/-- A record behind its length. -/
def Record.encode (r : Record) : List UInt8 := varint r.body.length ++ r.body

structure Batch where
  baseOffset : ℤ := 0
  partitionLeaderEpoch : ℤ := -1
  crc : ℤ := 0
  attributes : ℤ := 0
  lastOffsetDelta : ℤ := 0
  firstTimestamp : ℤ := 0
  maxTimestamp : ℤ := 0
  producerId : ℤ := -1
  producerEpoch : ℤ := -1
  baseSequence : ℤ := -1
  records : List Record

/-- The fields of the header between the magic byte and the number of records. -/
def Batch.middle (b : Batch) : List UInt8 :=
  appendI32 b.crc ++ (appendI16 b.attributes ++ (appendI32 b.lastOffsetDelta ++
    (appendI64 b.firstTimestamp ++ (appendI64 b.maxTimestamp ++ (appendI64 b.producerId ++
      (appendI16 b.producerEpoch ++ appendI32 b.baseSequence))))))

/-- A batch behind its length. -/
def Batch.body (b : Batch) : List UInt8 :=
  appendI32 b.partitionLeaderEpoch ++ (2 :: (b.middle ++ (appendI32 b.records.length ++
    b.records.flatMap Record.encode)))

def Batch.encode (b : Batch) : List UInt8 :=
  appendI64 b.baseOffset ++ (appendI32 b.body.length ++ b.body)

/-- The numbers of a batch fit into their fields. -/
structure Batch.WellFormed (b : Batch) : Prop where
  records : ∀ r ∈ b.records, r.WellFormed
  size : b.body.length < 2 ^ 31
  baseOffset : -2 ^ 63 ≤ b.baseOffset ∧ b.baseOffset < 2 ^ 63
  offset : ∀ r ∈ b.records, -2 ^ 63 ≤ b.baseOffset + r.offsetDelta ∧
    b.baseOffset + r.offsetDelta < 2 ^ 63

/-- The records of a batch as they are to be fetched. -/
def Batch.fetched (partition : ℤ) (b : Batch) : List FetchedRecord :=
  b.records.map fun r => ⟨partition, b.baseOffset + r.offsetDelta, r.value.getD []⟩

@[simp] lemma Batch.length_middle (b : Batch) : b.middle.length = 40 := by
  simp [Batch.middle]

lemma Batch.length_body (b : Batch) :
    b.body.length = 49 + (b.records.flatMap Record.encode).length := by
  simp only [Batch.body, List.length_append, List.length_cons, length_appendI32, length_middle]
  omega

lemma Batch.length_encode (b : Batch) : b.encode.length = 12 + b.body.length := by
  simp only [Batch.encode, List.length_append, length_appendI32, length_appendI64]
  omega

/-! ### Reading what is written -/

section

variable {data enc rest : List UInt8} {pos w : ℕ} {partition : ℤ}

lemma drop_of_length (h : data.drop pos = enc ++ rest) (hw : enc.length = w) :
    data.drop (pos + w) = rest := by
  rw [← List.drop_drop, h, ← hw, List.drop_left]

lemma drop_behind (h : data.drop pos = enc ++ rest) : data.drop (pos + enc.length) = rest :=
  drop_of_length h rfl

lemma take_of_drop (h : data.drop pos = enc ++ rest) (hw : enc.length = w) :
    (data.drop pos).take w = enc := by
  rw [h, ← hw, List.take_left]

lemma stop_le (h : data.drop pos = enc ++ rest) (hne : enc ≠ []) :
    pos + enc.length ≤ data.length := by
  have hlen := congrArg List.length h
  have hpos := List.length_pos_iff.2 hne
  rw [List.length_drop, List.length_append] at hlen
  omega

lemma varintAt_varint {v : ℤ} (hlo : -2 ^ 63 ≤ v) (hhi : v < 2 ^ 63)
    (h : data.drop pos = varint v ++ rest) :
    varintAt data pos = .ok (v, pos + (varint v).length) := by
  rw [varintAt, (readVarint_varint hlo hhi h).1]

lemma varint_unzigzag (n : Fin 128) : varint (unzigzag n) = [UInt8.ofNat n] := by
  revert n
  decide +kernel

lemma varintAt_byte {a : UInt8} (ha : a.toNat < 128) (h : data.drop pos = a :: rest) :
    varintAt data pos = .ok (unzigzag a.toNat, pos + 1) := by
  have hvarint : varint (unzigzag a.toNat) = [a] := by
    rw [varint_unzigzag ⟨a.toNat, ha⟩, UInt8.ofNat_toNat]
  have hhalf : a.toNat >>> 1 = a.toNat / 2 := Nat.shiftRight_eq_div_pow _ 1
  have hbounds : -2 ^ 63 ≤ unzigzag a.toNat ∧ unzigzag a.toNat < 2 ^ 63 := by
    rw [unzigzag, hhalf]
    split <;> omega
  have hdrop : data.drop pos = varint (unzigzag a.toNat) ++ rest := by rw [h, hvarint]; rfl
  rw [varintAt_varint hbounds.1 hbounds.2 hdrop, hvarint, List.length_singleton]

lemma nullable_ne_nil {o : Option (List UInt8)} : nullable o ≠ [] :=
  List.append_ne_nil_of_left_ne_nil (groups_ne_nil _ _) _

lemma length_le_flatMap {α : Type} {f : α → List UInt8} (hf : ∀ a, f a ≠ []) (l : List α) :
    l.length ≤ (l.flatMap f).length := by
  induction l with
  | nil => exact Nat.zero_le _
  | cons a l ih =>
    have hpos := List.length_pos_iff.2 (hf a)
    rw [List.flatMap_cons, List.length_append, List.length_cons]
    omega

lemma encodeHeader_ne_nil (h : List UInt8 × Option (List UInt8)) : encodeHeader h ≠ [] :=
  List.append_ne_nil_of_left_ne_nil nullable_ne_nil _

lemma Record.encode_ne_nil (r : Record) : r.encode ≠ [] :=
  List.append_ne_nil_of_left_ne_nil (groups_ne_nil _ _) _

lemma header_of_drop {base len : ℤ} (hlo : -2 ^ 31 ≤ len) (hhi : len < 2 ^ 31)
    (h : data.drop pos = appendI64 base ++ (appendI32 len ++ rest)) :
    (data.drop pos).take 8 = appendI64 base ∧ lengthField data pos = len ∧
      data.drop (pos + 12) = rest ∧ pos + 12 ≤ data.length := by
  have hbase := take_of_drop h (length_appendI64 base)
  have h8 : data.drop (pos + 8) = appendI32 len ++ rest :=
    drop_of_length h (length_appendI64 base)
  have hne : appendI32 len ≠ [] := List.length_pos_iff.1 (by rw [length_appendI32]; norm_num)
  have hle := stop_le h8 hne
  rw [length_appendI32] at hle
  have h12 := drop_of_length h8 (length_appendI32 len)
  refine ⟨hbase, ?_, h12, hle⟩
  rw [lengthField, take_of_drop h8 (length_appendI32 len), signed_appendI32 hlo hhi]

section Sized

variable (hsize : data.length < 2 ^ 63) {baseOffset : ℤ} {batchEnd : ℕ} {b : Batch}

include hsize

lemma nullable_at {o : Option (List UInt8)} (h : data.drop pos = nullable o ++ rest) :
    ∃ start, varintAt data pos = .ok (declaredSize o, start) ∧
      readValue data start (declaredSize o) = .ok (o.getD []) ∧
      skip start (declaredSize o) = pos + (nullable o).length := by
  have hstop := stop_le h nullable_ne_nil
  rw [nullable, List.append_assoc] at h
  rw [nullable, List.length_append] at hstop ⊢
  have hinside := drop_behind h
  have hbounds : -2 ^ 63 ≤ declaredSize o ∧ declaredSize o < 2 ^ 63 ∧
      (declaredSize o).toNat = (o.getD []).length := by
    cases o with
    | none => simp [declaredSize]
    | some b =>
      simp only [declaredSize, Option.elim_some, Option.getD_some] at hstop ⊢
      omega
  obtain ⟨hlo, hhi, hlen⟩ := hbounds
  refine ⟨_, varintAt_varint hlo hhi h, ?_, ?_⟩
  · cases o with
    | none => rfl
    | some b =>
      have hnonneg : 0 ≤ declaredSize (some b) := Int.natCast_nonneg _
      have hle : ¬ pos + (varint (declaredSize (some b))).length > data.length := by omega
      rw [readValue, if_pos hnonneg, assign, if_neg hle, hinside, hlen, List.take_left]
  · rw [skip_eq hsize (by omega) hhi, hlen, Nat.add_assoc]

lemma parseHeaders_encode (hs : List (List UInt8 × Option (List UInt8)))
    (h : data.drop pos = hs.flatMap encodeHeader ++ rest) :
    ∃ spans stop, parseHeaders data hs.length pos = .ok (spans, stop) := by
  induction hs generalizing pos with
  | nil => exact ⟨[], pos, rfl⟩
  | cons header hs ih =>
    rw [List.flatMap_cons, encodeHeader, List.append_assoc, List.append_assoc] at h
    obtain ⟨hkStart, hk, -, hkSkip⟩ := nullable_at hsize h
    have h := drop_behind h
    obtain ⟨hvStart, hv, -, hvSkip⟩ := nullable_at hsize h
    obtain ⟨spans, stop, hspans⟩ := ih (drop_behind h)
    refine ⟨⟨hkStart, declaredSize (some header.1)⟩ :: ⟨hvStart, declaredSize header.2⟩ :: spans,
      stop, ?_⟩
    simp only [List.length_cons, parseHeaders, hk, hkSkip, hv, hvSkip, hspans, Parse.ok_bind]
    rfl

lemma parseFields_body {r : Record} (hr : r.WellFormed) (h : data.drop pos = r.body ++ rest) :
    ∃ f, parseFields data pos = .ok f ∧ f.offsetDelta = r.offsetDelta ∧
      f.value = r.value.getD [] := by
  have hstop := stop_le h (List.cons_ne_nil _ _)
  have hcount := length_le_flatMap encodeHeader_ne_nil r.headers
  have hcount63 : (r.headers.length : ℤ) < 2 ^ 63 := by
    simp only [Record.body, List.length_cons, List.length_append] at hstop
    omega
  simp only [Record.body, List.cons_append, List.append_assoc] at h
  have h0 := varintAt_byte hr.attributes h
  have h := (getElem?_of_drop h).2
  have h1 := varintAt_varint hr.timestampDelta.1 hr.timestampDelta.2 h
  have h := drop_behind h
  have h2 := varintAt_varint (by linarith [hr.offsetDelta.1]) (by linarith [hr.offsetDelta.2]) h
  have h := drop_behind h
  obtain ⟨keyStart, hkey, -, hkeySkip⟩ := nullable_at hsize h
  have h := drop_behind h
  obtain ⟨valueStart, hval, hread, hvalSkip⟩ := nullable_at hsize h
  have h := drop_behind h
  have h3 := varintAt_varint (by omega) hcount63 h
  obtain ⟨spans, stop, hheaders⟩ := parseHeaders_encode hsize r.headers (drop_behind h)
  refine ⟨⟨r.offsetDelta, r.value.getD [], ⟨keyStart, declaredSize r.key⟩,
    ⟨valueStart, declaredSize r.value⟩, spans, stop⟩, ?_, rfl, rfl⟩
  simp only [parseFields, h0, h1, h2, hkey, hkeySkip, hval, hread, hvalSkip, h3, Int.toNat_natCast,
    hheaders, Parse.ok_bind]
  rfl

lemma parseRecord_encode {r : Record} (hr : r.WellFormed)
    (hoffset : -2 ^ 63 ≤ baseOffset + r.offsetDelta ∧ baseOffset + r.offsetDelta < 2 ^ 63)
    (h : data.drop pos = r.encode ++ rest) (hbatch : pos + r.encode.length ≤ batchEnd) :
    ∃ l, parseRecord data partition baseOffset batchEnd pos = .ok l ∧
      l.recEnd = pos + r.encode.length ∧
      l.record = ⟨partition, baseOffset + r.offsetDelta, r.value.getD []⟩ := by
  have hstop := stop_le h r.encode_ne_nil
  rw [Record.encode, List.length_append] at hstop hbatch ⊢
  rw [Record.encode, List.append_assoc] at h
  have hlen := varintAt_varint (by omega) (by omega) h
  obtain ⟨f, hf, hdelta, hvalue⟩ := parseFields_body hsize hr (drop_behind h)
  have hend : advance (pos + (varint r.body.length).length) r.body.length =
      pos + ((varint r.body.length).length + r.body.length) := by
    rw [advance_eq hsize (by omega) (by omega) (by omega), Int.toNat_natCast, Nat.add_assoc]
  have hneg : ¬ (r.body.length : ℤ) < 0 := by omega
  have hfits : ¬ advance (pos + (varint r.body.length).length) r.body.length > batchEnd := by omega
  have hoffset' : signed 64 (wrapped 64 (baseOffset + f.offsetDelta)) =
      baseOffset + r.offsetDelta := by
    rw [hdelta, signed_wrapped (by norm_num) hoffset.1 hoffset.2]
  refine ⟨⟨⟨partition, baseOffset + r.offsetDelta, f.value⟩, f, batchEnd,
    pos + (varint r.body.length).length, advance _ r.body.length⟩, ?_, hend, by rw [hvalue]⟩
  simp only [parseRecord, hlen, if_neg hneg, if_neg hfits, hf, hoffset', Parse.ok_bind]
  rfl

lemma parseRecords_encode {rs : List Record} (hrs : ∀ r ∈ rs, r.WellFormed)
    (hoffset : ∀ r ∈ rs, -2 ^ 63 ≤ baseOffset + r.offsetDelta ∧
      baseOffset + r.offsetDelta < 2 ^ 63)
    (h : data.drop pos = rs.flatMap Record.encode ++ rest)
    (hbatch : pos + (rs.flatMap Record.encode).length ≤ batchEnd) :
    ∃ ls, parseRecords data partition baseOffset batchEnd rs.length pos = .ok ls ∧
      ls.map Located.record =
        rs.map fun r => ⟨partition, baseOffset + r.offsetDelta, r.value.getD []⟩ := by
  induction rs generalizing pos with
  | nil => exact ⟨[], rfl, rfl⟩
  | cons r rs ih =>
    rw [List.flatMap_cons, List.append_assoc] at h
    rw [List.flatMap_cons, List.length_append] at hbatch
    have hfirst : pos + r.encode.length ≤ batchEnd := by omega
    obtain ⟨l, hl, hend, hrecord⟩ := parseRecord_encode hsize (hrs r List.mem_cons_self)
      (hoffset r List.mem_cons_self) h hfirst
    obtain ⟨ls, hls, hrecords⟩ := ih (fun r hr => hrs r (List.mem_cons_of_mem _ hr))
      (fun r hr => hoffset r (List.mem_cons_of_mem _ hr)) (drop_behind h) (by omega)
    refine ⟨l :: ls, ?_, ?_⟩
    · rw [List.length_cons, parseRecords, hl, Parse.ok_bind, hend, hls, Parse.ok_bind]
      rfl
    · rw [List.map_cons, List.map_cons, hrecord, hrecords]

/-! ### Batches -/

lemma batchStop_of_lengthField {len : ℕ} (hlen : len < 2 ^ 31) (hpos : pos + 12 ≤ data.length)
    (h : lengthField data pos = len) :
    batchStop data pos = pos + 12 + len := by
  rw [batchStop, h, advance_eq hsize hpos (by omega) (by omega), Int.toNat_natCast]

lemma batchStep_encode (hb : b.WellFormed) (h : data.drop pos = b.encode ++ rest)
    (out : List Located) :
    ∃ out', batchStep data partition ⟨pos, out⟩ = .inl ⟨pos + b.encode.length, out'⟩ ∧
      out'.map Located.record = out.map Located.record ++ b.fetched partition := by
  have hencode : b.encode ≠ [] := List.length_pos_iff.1 (by rw [b.length_encode]; omega)
  have hstop := stop_le h hencode
  have hlength := b.length_body
  rw [b.length_encode] at hstop ⊢
  simp only [Batch.encode, List.append_assoc] at h
  have hbody := hb.size
  obtain ⟨hbase, hfield, h12, hpos⟩ := header_of_drop (by omega) (by omega) h
  have hend := batchStop_of_lengthField hsize hbody hpos hfield
  have hbaseField : baseField data pos = b.baseOffset := by
    rw [baseField, hbase, signed_appendI64 hb.baseOffset.1 hb.baseOffset.2]
  -- The rest of the header: the epoch, the magic byte, forty bytes, the number of records.
  simp only [Batch.body, List.append_assoc, List.cons_append] at h12
  have h16 := drop_of_length h12 (length_appendI32 _)
  obtain ⟨hmagicByte, h17⟩ := getElem?_of_drop h16
  have h57 := drop_of_length h17 b.length_middle
  have h61 := drop_of_length h57 (length_appendI32 _)
  rw [show pos + 12 + 4 = pos + 16 from rfl] at hmagicByte
  rw [show pos + 12 + 4 + 1 + 40 = pos + 57 from rfl] at h57
  rw [show pos + 12 + 4 + 1 + 40 + 4 = pos + 61 from rfl] at h61
  have hmagic : readAt data (pos + 16) = .ok 2 := by
    rw [readAt, hmagicByte]
  have hcountle := length_le_flatMap Record.encode_ne_nil b.records
  have hcount : readI32 data (pos + 57) = .ok (b.records.length : ℤ) := by
    rw [readI32, readMany_of_inside (by omega), Parse.ok_bind,
      take_of_drop h57 (length_appendI32 _), signed_appendI32 (by omega) (by omega)]
    rfl
  have hinside : pos + 61 + (b.records.flatMap Record.encode).length ≤
      pos + 12 + b.body.length := by omega
  obtain ⟨ls, hls, hrecords⟩ : ∃ ls, parseRecords data partition b.baseOffset
      (pos + 12 + b.body.length) b.records.length (pos + 61) = .ok ls ∧ _ :=
    parseRecords_encode hsize hb.records hb.offset h61 hinside
  have hparse : parseBatch data partition pos = .ok (ls, pos + 12 + b.body.length) := by
    rw [parseBatch_of_inside hpos, hend, if_neg (by omega), hbaseField, parseBody, hmagic, Parse.ok_bind,
      if_neg (by simp), hcount, Parse.ok_bind, Int.toNat_natCast, hls, Parse.ok_bind]
    rfl
  refine ⟨out ++ ls, ?_, ?_⟩
  · rw [batchStep, if_pos hpos]
    dsimp only
    rw [hparse, Nat.add_assoc]
  · rw [List.map_append, hrecords, Batch.fetched]

lemma reaches_encode {bs : List Batch} (hbs : ∀ b ∈ bs, b.WellFormed)
    (h : data.drop pos = bs.flatMap Batch.encode ++ rest) (out : List Located) :
    ∃ out', Loop.Reaches (batchStep data partition) ⟨pos, out⟩
        ⟨pos + (bs.flatMap Batch.encode).length, out'⟩ ∧
      out'.map Located.record = out.map Located.record ++ bs.flatMap (Batch.fetched partition) := by
  induction bs generalizing pos out with
  | nil => exact ⟨out, .refl, by simp⟩
  | cons b bs ih =>
    rw [List.flatMap_cons, List.append_assoc] at h
    obtain ⟨out1, hstep, hout1⟩ := batchStep_encode hsize (hbs b List.mem_cons_self) h out
    obtain ⟨out2, hrun, hout2⟩ :=
      ih (fun b hb => hbs b (List.mem_cons_of_mem _ hb)) (drop_behind h) out1
    refine ⟨out2, ?_, ?_⟩
    · rw [List.flatMap_cons, List.length_append, ← Nat.add_assoc]
      exact .head hstep hrun
    · rw [hout2, hout1, List.flatMap_cons, List.append_assoc]

lemma batchStep_of_cut {cut : ℕ} (hb : b.WellFormed) (hlong : 12 ≤ cut)
    (hcut : cut < b.encode.length) (h : data.drop pos = b.encode.take cut) (out : List Located) :
    batchStep data partition ⟨pos, out⟩ = .inr (.error .refused) := by
  have hbody := hb.size
  have hlen := congrArg List.length h
  rw [List.length_drop, List.length_take, Nat.min_eq_left hcut.le] at hlen
  rw [b.length_encode] at hcut
  have htake : b.encode.take cut =
      appendI64 b.baseOffset ++ (appendI32 b.body.length ++ b.body.take (cut - 8 - 4)) := by
    have h8 : (appendI64 b.baseOffset).length ≤ cut := by rw [length_appendI64]; omega
    have h4 : (appendI32 b.body.length).length ≤ cut - 8 := by rw [length_appendI32]; omega
    rw [Batch.encode, List.take_append, List.take_of_length_le h8, length_appendI64,
      List.take_append, List.take_of_length_le h4, length_appendI32]
  obtain ⟨-, hfield, -, hpos⟩ := header_of_drop (by omega) (by omega) (h.trans htake)
  have hend := batchStop_of_lengthField hsize hbody hpos hfield
  have hparse : parseBatch data partition pos = .error .refused := by
    rw [parseBatch_of_inside hpos, hend, if_pos (by omega)]
  rw [batchStep, if_pos hpos]
  dsimp only
  rw [hparse]

end Sized

lemma reached_encode {bs : List Batch} (hbs : ∀ b ∈ bs, b.WellFormed)
    (hsize : (bs.flatMap Batch.encode ++ rest).length < 2 ^ 63) (partition : ℤ) :
    ∃ out, Reached (bs.flatMap Batch.encode ++ rest) partition
        ⟨(bs.flatMap Batch.encode).length, out⟩ ∧
      out.map Located.record = bs.flatMap (Batch.fetched partition) := by
  have hstart : (bs.flatMap Batch.encode ++ rest).drop 0 = bs.flatMap Batch.encode ++ rest := rfl
  obtain ⟨out, hreach, hout⟩ := reaches_encode hsize hbs hstart []
  rw [Nat.zero_add] at hreach
  exact ⟨out, hreach, hout⟩

/-- The parser returns true, with these records. -/
def Yields (data : List UInt8) (partition : ℤ) (records : List FetchedRecord) : Prop :=
  ∃ out, Returns data partition (.ok out) ∧ out.map Located.record = records

lemma returns_of_reached {c : Cursor} {r : Parse (List Located)} (hblank : ¬ Blank data)
    (hc : Reached data partition c) (hround : batchStep data partition c = .inr r) :
    Returns data partition r :=
  (returns_iff hblank).2 (Loop.ends_of_reaches hc hround)

lemma batchStep_of_short (h : data.length < pos + 12) (out : List Located) :
    batchStep data partition ⟨pos, out⟩ = .inr (.ok out) := if_neg (Nat.not_le.2 h)

lemma eq_nil_of_blank {bs : List Batch} (h : Blank (bs.flatMap Batch.encode ++ rest)) :
    bs = [] := by
  cases bs with
  | nil => rfl
  | cons b bs =>
    have hlen := length_lt_of_blank h
    simp only [List.flatMap_cons, List.length_append, b.length_encode] at hlen
    omega

lemma yields_of_short {bs : List Batch} (hbs : ∀ b ∈ bs, b.WellFormed)
    (hsize : (bs.flatMap Batch.encode ++ rest).length < 2 ^ 63) (hrest : rest.length < 12) :
    Yields (bs.flatMap Batch.encode ++ rest) partition (bs.flatMap (Batch.fetched partition)) := by
  by_cases hblank : Blank (bs.flatMap Batch.encode ++ rest)
  · obtain rfl := eq_nil_of_blank hblank
    exact ⟨[], returns_of_blank hblank, rfl⟩
  · obtain ⟨out, hreach, hout⟩ := reached_encode hbs hsize partition
    refine ⟨out, returns_of_reached hblank hreach (batchStep_of_short ?_ out), hout⟩
    rw [List.length_append]
    omega

/-- **Cut batches.**  Behind complete batches, a batch that is cut leaves their records as the
result exactly if it is cut inside of its first twelve bytes. -/
theorem yields_of_cut_iff (bs : List Batch) (last : Batch) (cut : ℕ) (partition : ℤ)
    (hbs : ∀ b ∈ bs, b.WellFormed) (hlast : last.WellFormed) (hcut : cut < last.encode.length)
    (hsize : (bs.flatMap Batch.encode ++ last.encode.take cut).length < 2 ^ 63) :
    Yields (bs.flatMap Batch.encode ++ last.encode.take cut) partition
        (bs.flatMap (Batch.fetched partition)) ↔ cut < 12 := by
  have hlen : (last.encode.take cut).length = cut := by
    rw [List.length_take, Nat.min_eq_left hcut.le]
  constructor
  · rintro ⟨out, hreturns, -⟩
    by_contra hlong
    have hblank : ¬ Blank (bs.flatMap Batch.encode ++ last.encode.take cut) := fun h => by
      have := length_lt_of_blank h
      rw [List.length_append, hlen] at this
      omega
    obtain ⟨out', hreach, -⟩ := reached_encode hbs hsize partition
    have hrefused := returns_of_reached hblank hreach
      (batchStep_of_cut hsize hlast (Nat.not_lt.1 hlong) hcut List.drop_left out')
    cases hreturns.unique hrefused
  · intro hshort
    exact yields_of_short hbs hsize (by rwa [hlen])

def singleBatch : Batch := { records := [⟨0, 0, 0, none, some [120], []⟩] }

lemma singleBatch_wellFormed : singleBatch.WellFormed where
  records := by
    intro r hr
    obtain rfl := List.mem_singleton.1 hr
    exact ⟨by decide, by decide, by decide⟩
  size := by decide +kernel
  baseOffset := by decide
  offset := by decide

/-- A batch that is cut behind its length hides the complete one before it. -/
theorem cut_hides_singleBatch :
    12 < singleBatch.encode.length ∧
      Returns (singleBatch.encode ++ singleBatch.encode.take 12) 0 (.error .refused) ∧
      ¬ Yields (singleBatch.encode ++ singleBatch.encode.take 12) 0 (singleBatch.fetched 0) := by
  have hrefused : Returns (singleBatch.encode ++ singleBatch.encode.take 12) 0
      (.error .refused) := ⟨2, by decide +kernel⟩
  refine ⟨by decide +kernel, hrefused, fun ⟨out, hout, _⟩ => ?_⟩
  cases hout.unique hrefused

theorem yields_of_cut_five :
    Yields ([singleBatch].flatMap Batch.encode ++ singleBatch.encode.take 5) 0
      ([singleBatch].flatMap (Batch.fetched 0)) :=
  (yields_of_cut_iff [singleBatch] singleBatch 5 0
    (fun _ hb => List.mem_singleton.1 hb ▸ singleBatch_wellFormed) singleBatch_wellFormed
    (by decide +kernel) (by decide +kernel)).2 (by decide)

/-! ### The checksum -/

/-- A step of the division for the checksum. -/
def crc32cShift (c : UInt32) : UInt32 :=
  if c &&& 1 ≠ 0 then (0x82F63B78 : UInt32) ^^^ (c >>> 1) else c >>> 1

/-- An entry of the table for the checksum. -/
def crc32cEntry (i : UInt32) : UInt32 := Nat.repeat crc32cShift 8 i

/-- The checksum after one more byte. -/
def crc32cByte (crc : UInt32) (b : UInt8) : UInt32 :=
  (crc >>> 8) ^^^ crc32cEntry ((crc ^^^ b.toUInt32) &&& 0xFF)

/-- CRC-32C, byte by byte with a table. -/
def crc32c (data : List UInt8) : UInt32 :=
  data.foldl crc32cByte 0xFFFFFFFF ^^^ (0xFFFFFFFF : UInt32)

-- The check value of CRC-32C, over the digits from one to nine.
example : crc32c [49, 50, 51, 52, 53, 54, 55, 56, 57] = 0xE3069283 := by decide +kernel

/-- The lowest bits of a number, the least significant one first. -/
def bitsOf : ℕ → UInt32 → List Bool
  | 0, _ => []
  | n + 1, b => decide (b &&& 1 ≠ 0) :: bitsOf n (b >>> 1)

/-- The register of CRC-32C takes in one bit.  This bit and the one that is shifted out decide
whether the polynomial is added. -/
def crc32cBit (crc : UInt32) (bit : Bool) : UInt32 :=
  if decide (crc &&& 1 ≠ 0) != bit then (0x82F63B78 : UInt32) ^^^ (crc >>> 1) else crc >>> 1

/-- The definition of CRC-32C, bit by bit. -/
def crc32cBitwise (data : List UInt8) : UInt32 :=
  (data.flatMap fun b => bitsOf 8 b.toUInt32).foldl crc32cBit 0xFFFFFFFF ^^^ (0xFFFFFFFF : UInt32)

lemma decide_odd (x : UInt32) : decide (x &&& 1 ≠ 0) = x.toNat.testBit 0 := by
  have hnat : (x &&& 1).toNat = x.toNat % 2 := (UInt32.toNat_and x 1).trans (Nat.and_one_is_mod _)
  rw [Nat.testBit_zero, decide_eq_decide, Ne, ← UInt32.toNat_inj, hnat]
  exact Nat.mod_two_ne_zero

lemma crc32cShift_eq (x : UInt32) : crc32cShift x = crc32cBit x false := by
  simp [crc32cShift, crc32cBit]

lemma crc32cBit_xor (s b : UInt32) :
    crc32cBit s (decide (b &&& 1 ≠ 0)) ^^^ (b >>> 1) = crc32cShift (s ^^^ b) := by
  rw [crc32cShift_eq, crc32cBit, crc32cBit, decide_odd, decide_odd, decide_odd, UInt32.toNat_xor,
    Nat.testBit_xor, UInt32.shiftRight_xor]
  cases s.toNat.testBit 0 <;> cases b.toNat.testBit 0 <;> simp [UInt32.xor_assoc]

lemma crc32cShift_xor (x y : UInt32) : crc32cShift (x ^^^ y) = crc32cShift x ^^^ crc32cShift y := by
  rw [← crc32cBit_xor, crc32cShift_eq, crc32cShift_eq, crc32cBit, crc32cBit, crc32cBit, decide_odd,
    decide_odd]
  have hcomm (p a b : UInt32) : a ^^^ (p ^^^ b) = p ^^^ (a ^^^ b) := by
    rw [← UInt32.xor_assoc, UInt32.xor_comm a, UInt32.xor_assoc]
  have hcancel (p a : UInt32) : p ^^^ (p ^^^ a) = a := by
    rw [← UInt32.xor_assoc, UInt32.xor_self, UInt32.zero_xor]
  cases x.toNat.testBit 0 <;> cases y.toNat.testBit 0 <;>
    simp [UInt32.xor_assoc, hcomm (0x82F63B78 : UInt32), hcancel]

lemma repeat_crc32cShift_xor (n : ℕ) (x y : UInt32) :
    Nat.repeat crc32cShift n (x ^^^ y) =
      Nat.repeat crc32cShift n x ^^^ Nat.repeat crc32cShift n y := by
  induction n with
  | zero => rfl
  | succ n ih => rw [Nat.repeat, ih, crc32cShift_xor, Nat.repeat, Nat.repeat]

lemma repeat_crc32cShift_succ (n : ℕ) (x : UInt32) :
    Nat.repeat crc32cShift (n + 1) x = Nat.repeat crc32cShift n (crc32cShift x) := by
  induction n with
  | zero => rfl
  | succ n ih => rw [Nat.repeat, ih, Nat.repeat]

lemma toNat_repeat_crc32cShift {x : UInt32} {n : ℕ} (h : ∀ i < n, x.toNat.testBit i = false) :
    (Nat.repeat crc32cShift n x).toNat = x.toNat >>> n := by
  induction n with
  | zero => rfl
  | succ n ih =>
    have hn := ih fun i hi => h i (by omega)
    have hlow : (Nat.repeat crc32cShift n x).toNat.testBit 0 = false := by
      rw [hn, Nat.testBit_shiftRight]
      exact h n (by omega)
    rw [Nat.repeat, crc32cShift_eq, crc32cBit, decide_odd, hlow, if_neg (by decide),
      UInt32.toNat_shiftRight, hn, Nat.shiftRight_add]
    rfl

lemma crc32cByte_eq (crc : UInt32) (b : UInt8) :
    crc32cByte crc b = Nat.repeat crc32cShift 8 (crc ^^^ b.toUInt32) := by
  set x := crc ^^^ b.toUInt32 with hx
  -- the register without its lowest byte
  set high := x ^^^ (x &&& 0xFF) with hhigh
  have hmask (i : ℕ) : (0xFF : UInt32).toNat.testBit i = decide (i < 8) :=
    Nat.testBit_two_pow_sub_one 8 i
  have hbit (i : ℕ) : high.toNat.testBit i = (x.toNat.testBit i && decide (8 ≤ i)) := by
    rw [hhigh, UInt32.toNat_xor, Nat.testBit_xor, UInt32.toNat_and, Nat.testBit_and, hmask]
    by_cases hi : i < 8
    · rw [decide_eq_true hi, decide_eq_false (by omega), Bool.and_true, Bool.and_false,
        Bool.xor_self]
    · rw [decide_eq_false hi, decide_eq_true (by omega), Bool.and_true, Bool.and_false,
        Bool.xor_false]
  have hshift : Nat.repeat crc32cShift 8 high = crc >>> 8 := by
    refine UInt32.toNat_inj.1 ((toNat_repeat_crc32cShift fun i hi => ?_).trans ?_)
    · rw [hbit, decide_eq_false (by omega), Bool.and_false]
    · refine Nat.eq_of_testBit_eq fun i => ?_
      have hb : (b.toUInt32.toNat).testBit (8 + i) = false :=
        Nat.testBit_lt_two_pow (b.toNat_lt.trans_le (Nat.pow_le_pow_right (by omega) (by omega)))
      rw [Nat.testBit_shiftRight, hbit, hx, UInt32.toNat_xor, Nat.testBit_xor, hb,
        UInt32.toNat_shiftRight]
      simp
  have hsplit : x = high ^^^ (x &&& 0xFF) := by
    rw [hhigh, UInt32.xor_assoc, UInt32.xor_self, UInt32.xor_zero]
  rw [crc32cByte, crc32cEntry, ← hx, ← hshift, ← repeat_crc32cShift_xor, ← hsplit]

lemma foldl_bitsOf {n : ℕ} {b : UInt32} (s : UInt32) (hb : b.toNat < 2 ^ n) :
    (bitsOf n b).foldl crc32cBit s = Nat.repeat crc32cShift n (s ^^^ b) := by
  induction n generalizing s b with
  | zero =>
    obtain rfl : b = 0 := UInt32.toNat_inj.1 (by simpa using hb)
    exact (UInt32.xor_zero).symm
  | succ n ih =>
    have hhalf : (b >>> 1).toNat < 2 ^ n := by
      rw [UInt32.toNat_shiftRight]
      change b.toNat >>> 1 < 2 ^ n
      rw [Nat.shiftRight_eq_div_pow]
      omega
    rw [bitsOf, List.foldl_cons, ih _ hhalf, crc32cBit_xor, repeat_crc32cShift_succ]

/-- **The checksum.**  The computation with the table is CRC-32C. -/
theorem crc32c_eq_bitwise (data : List UInt8) : crc32c data = crc32cBitwise data := by
  rw [crc32c, crc32cBitwise, List.foldl_flatMap]
  congr 2
  funext crc b
  rw [crc32cByte_eq, foldl_bitsOf crc b.toNat_lt]

/-! ### What the publisher writes -/

def patchI32 (b : List UInt8) (pos : ℕ) (v : ℤ) : List UInt8 :=
  b.take pos ++ (appendI32 v ++ b.drop (pos + 4))

/-- The inside of the record for a pair of a key and a value at an index. -/
def recordBody (p : (List UInt8 × List UInt8) × ℕ) : List UInt8 :=
  varint 0 ++ varint 0 ++ varint p.2 ++ varint p.1.1.length ++ p.1.1 ++ varint p.1.2.length ++
    p.1.2 ++ varint 0

def encodeRecord (p : (List UInt8 × List UInt8) × ℕ) : List UInt8 :=
  varint (recordBody p).length ++ recordBody p

/-- The part of the batch for some pairs that the checksum is over, at a time. -/
def summed (ts : ℤ) (pairs : List (List UInt8 × List UInt8)) : List UInt8 :=
  appendI16 0 ++                      -- attributes
  appendI32 (pairs.length - 1) ++     -- lastOffsetDelta
  appendI64 ts ++ appendI64 ts ++     -- firstTimestamp, maxTimestamp
  appendI64 (-1) ++ appendI16 (-1) ++ -- producerId, producerEpoch
  appendI32 (-1) ++                   -- baseSequence
  appendI32 pairs.length ++ pairs.zipIdx.flatMap encodeRecord

/-- That batch with zeros for its length and its checksum. -/
def unpatched (ts : ℤ) (pairs : List (List UInt8 × List UInt8)) : List UInt8 :=
  List.replicate 8 0 ++ (List.replicate 4 0 ++ ((appendI32 (-1) ++ [2]) ++
    (List.replicate 4 0 ++ summed ts pairs)))

/-- The batch for some pairs, at a time.  The length and then the checksum are put in. -/
def encodeRecordBatch (ts : ℤ) (pairs : List (List UInt8 × List UInt8)) : List UInt8 :=
  let b := patchI32 (unpatched ts pairs) 8 ((unpatched ts pairs).length - 12)
  patchI32 b 17 (signed 32 (crc32c (b.drop 21)).toNat)

/-- The record of the format for a pair at an index. -/
def recordOf (p : (List UInt8 × List UInt8) × ℕ) : Record where
  offsetDelta := p.2
  key := some p.1.1
  value := some p.1.2

/-- The batch of the format for some pairs, with a first offset. -/
def batchOf (baseOffset ts : ℤ) (pairs : List (List UInt8 × List UInt8)) : Batch where
  baseOffset := baseOffset
  crc := signed 32 (crc32c (summed ts pairs)).toNat
  lastOffsetDelta := pairs.length - 1
  firstTimestamp := ts
  maxTimestamp := ts
  records := pairs.zipIdx.map recordOf

section

variable {baseOffset ts : ℤ} {pairs : List (List UInt8 × List UInt8)}

lemma varint_zero : varint 0 = [0] := by decide

lemma encode_recordOf (p : (List UInt8 × List UInt8) × ℕ) :
    (recordOf p).encode = encodeRecord p := by
  have hbody : (recordOf p).body = recordBody p := by
    simp [Record.body, recordOf, recordBody, nullable, declaredSize, varint_zero]
  rw [Record.encode, hbody, encodeRecord]

lemma patchI32_append {a x c : List UInt8} {v : ℤ} {n : ℕ} (ha : a.length = n)
    (hx : x.length = 4) : patchI32 (a ++ (x ++ c)) n v = a ++ (appendI32 v ++ c) := by
  have hdrop : (a ++ (x ++ c)).drop (n + 4) = c := by
    rw [← List.append_assoc, List.drop_left' (by rw [List.length_append, ha, hx])]
  rw [patchI32, hdrop, List.take_left' ha]

lemma body_batchOf :
    (batchOf baseOffset ts pairs).body =
      appendI32 (-1) ++ [2] ++ (appendI32 (batchOf baseOffset ts pairs).crc ++ summed ts pairs) := by
  have hrecords : (batchOf baseOffset ts pairs).records.flatMap Record.encode =
      pairs.zipIdx.flatMap encodeRecord := by
    rw [batchOf, List.flatMap_map]
    exact congrArg (List.flatMap · pairs.zipIdx) (funext encode_recordOf)
  have hcount : (batchOf baseOffset ts pairs).records.length = pairs.length := by
    rw [batchOf, List.length_map, List.length_zipIdx]
  rw [Batch.body, hrecords, hcount, Batch.middle, summed]
  simp only [batchOf, List.append_assoc, List.cons_append, List.nil_append]

lemma encodeRecordBatch_eq : encodeRecordBatch ts pairs = (batchOf 0 ts pairs).encode := by
  have hlen : ((unpatched ts pairs).length : ℤ) - 12 = (batchOf 0 ts pairs).body.length := by
    rw [body_batchOf, unpatched]
    simp only [List.length_append, List.length_replicate, length_appendI32, List.length_singleton]
    omega
  -- The length is put in behind the first offset.
  have hfirst : patchI32 (unpatched ts pairs) 8 ((unpatched ts pairs).length - 12) =
      (List.replicate 8 0 ++ (appendI32 (batchOf 0 ts pairs).body.length ++
        (appendI32 (-1) ++ [2]))) ++ (List.replicate 4 0 ++ summed ts pairs) := by
    rw [hlen, unpatched, patchI32_append (List.length_replicate ..) (List.length_replicate ..)]
    simp only [List.append_assoc]
  have hhead : (List.replicate 8 (0 : UInt8) ++ (appendI32 (batchOf 0 ts pairs).body.length ++
      (appendI32 (-1) ++ [2]))).length = 17 := by
    simp only [List.length_append, List.length_replicate, length_appendI32, List.length_singleton]
  have hsummed : (patchI32 (unpatched ts pairs) 8 ((unpatched ts pairs).length - 12)).drop 21 =
      summed ts pairs := by
    rw [hfirst, ← List.append_assoc]
    exact List.drop_left' (by rw [List.length_append, hhead, List.length_replicate])
  have hzero : appendI64 0 = List.replicate 8 0 := by decide
  rw [encodeRecordBatch, hsummed, hfirst, patchI32_append hhead (List.length_replicate ..), Batch.encode]
  nth_rewrite 3 [body_batchOf]
  simp only [batchOf, hzero, List.append_assoc]

/-- A batch with another first offset. -/
def rebase (baseOffset : ℤ) (b : List UInt8) : List UInt8 := appendI64 baseOffset ++ b.drop 8

lemma rebase_encodeRecordBatch :
    rebase baseOffset (encodeRecordBatch ts pairs) = (batchOf baseOffset ts pairs).encode := by
  have hbody : (batchOf 0 ts pairs).body = (batchOf baseOffset ts pairs).body := by
    rw [body_batchOf, body_batchOf]
    rfl
  rw [rebase, encodeRecordBatch_eq, Batch.encode, List.drop_left' (length_appendI64 _), hbody]
  rfl

/-- The records for some pairs, with offsets that count from a first one. -/
def fetchedFrom (partition baseOffset : ℤ) (pairs : List (List UInt8 × List UInt8)) :
    List FetchedRecord :=
  pairs.zipIdx.map fun p => ⟨partition, baseOffset + p.2, p.1.2⟩

lemma fetched_batchOf (partition : ℤ) :
    (batchOf baseOffset ts pairs).fetched partition = fetchedFrom partition baseOffset pairs := by
  rw [Batch.fetched, batchOf, List.map_map]
  rfl

lemma length_pairs_lt (hsize : (batchOf baseOffset ts pairs).encode.length < 2 ^ 31) :
    pairs.length < 2 ^ 31 := by
  have hcount := length_le_flatMap Record.encode_ne_nil (batchOf baseOffset ts pairs).records
  rw [Batch.length_encode, Batch.length_body] at hsize
  have hlen : (batchOf baseOffset ts pairs).records.length = pairs.length := by
    rw [batchOf, List.length_map, List.length_zipIdx]
  omega

lemma wellFormed_batchOf (hsize : (batchOf baseOffset ts pairs).encode.length < 2 ^ 31)
    (hlo : 0 ≤ baseOffset) (hhi : baseOffset < 2 ^ 63)
    (hlast : baseOffset + pairs.length ≤ 2 ^ 63) : (batchOf baseOffset ts pairs).WellFormed := by
  have hpairs := length_pairs_lt hsize
  have hdelta : ∀ r ∈ (batchOf baseOffset ts pairs).records,
      0 ≤ r.offsetDelta ∧ r.offsetDelta < pairs.length := by
    intro r hr
    obtain ⟨⟨q, i⟩, hq, rfl⟩ := List.mem_map.1 hr
    have hi := List.snd_lt_of_mem_zipIdx hq
    exact ⟨Int.natCast_nonneg _, Int.ofNat_lt.2 hi⟩
  refine ⟨fun r hr => ?_, ?_, ⟨by simp only [batchOf]; omega, hhi⟩, fun r hr => ?_⟩
  · obtain ⟨hnonneg, hlt⟩ := hdelta r hr
    obtain ⟨q, -, rfl⟩ := List.mem_map.1 hr
    exact ⟨by simp [recordOf], ⟨by simp [recordOf], by simp [recordOf]⟩, by omega, by omega⟩
  · rw [Batch.length_encode] at hsize
    omega
  · have := hdelta r hr
    simp only [batchOf]
    omega

/-- Some pairs that the publisher has written at a time and the broker has stored at an offset. -/
structure Stored where
  baseOffset : ℤ
  ts : ℤ
  pairs : List (List UInt8 × List UInt8)

/-- The bytes that the broker has: the batch with its offset. -/
def Stored.bytes (p : Stored) : List UInt8 := rebase p.baseOffset (encodeRecordBatch p.ts p.pairs)

/-- The batch is of a size that can be written, and no offset in it is above 63 bits. -/
structure Stored.Fits (p : Stored) : Prop where
  size : (encodeRecordBatch p.ts p.pairs).length < 2 ^ 31
  nonneg : 0 ≤ p.baseOffset
  base : p.baseOffset < 2 ^ 63
  last : p.baseOffset + p.pairs.length ≤ 2 ^ 63

lemma Stored.yields {ps : List Stored} (hps : ∀ p ∈ ps, p.Fits)
    (hsize : (ps.flatMap Stored.bytes).length < 2 ^ 63) (partition : ℤ) :
    Yields (ps.flatMap Stored.bytes) partition
      (ps.flatMap fun p => fetchedFrom partition p.baseOffset p.pairs) := by
  have hbytes : ps.flatMap Stored.bytes =
      (ps.map fun p => batchOf p.baseOffset p.ts p.pairs).flatMap Batch.encode ++ [] := by
    rw [List.append_nil, List.flatMap_map]
    exact congrArg (List.flatMap · ps) (funext fun p => rebase_encodeRecordBatch)
  have hfetched : (ps.flatMap fun p => fetchedFrom partition p.baseOffset p.pairs) =
      (ps.map fun p => batchOf p.baseOffset p.ts p.pairs).flatMap (Batch.fetched partition) := by
    rw [List.flatMap_map]
    exact congrArg (List.flatMap · ps) (funext fun p => (fetched_batchOf partition).symm)
  rw [hbytes] at hsize ⊢
  rw [hfetched]
  refine yields_of_short (fun b hb => ?_) hsize (by decide)
  obtain ⟨p, hp, rfl⟩ := List.mem_map.1 hb
  obtain ⟨hfit, hlo, hhi, hlast⟩ := hps p hp
  rw [encodeRecordBatch_eq, Batch.length_encode, body_batchOf] at hfit
  refine wellFormed_batchOf ?_ hlo hhi hlast
  rw [Batch.length_encode, body_batchOf]
  exact hfit

/-- The checksum in the header of the first batch. -/
def crcField (data : List UInt8) : ℕ := unsigned ((data.drop 17).take 4)

lemma lengthField_encodeRecordBatch (hsize : (encodeRecordBatch ts pairs).length < 2 ^ 31) :
    lengthField (encodeRecordBatch ts pairs) 0 = (encodeRecordBatch ts pairs).length - 12 := by
  rw [encodeRecordBatch_eq] at hsize ⊢
  rw [Batch.length_encode] at hsize ⊢
  have hdrop : (batchOf 0 ts pairs).encode.drop 0 = _ := rfl
  obtain ⟨-, hfield, -⟩ := header_of_drop (by omega) (by omega) hdrop
  rw [hfield]
  omega

lemma crcField_encodeRecordBatch :
    crcField (encodeRecordBatch ts pairs) =
      (crc32c ((encodeRecordBatch ts pairs).drop 21)).toNat := by
  have hsplit : (encodeRecordBatch ts pairs).drop 17 =
      appendI32 (batchOf 0 ts pairs).crc ++ summed ts pairs := by
    rw [encodeRecordBatch_eq, Batch.encode]
    nth_rewrite 2 [body_batchOf]
    rw [← List.append_assoc, ← List.append_assoc]
    exact List.drop_left' (by simp)
  have hrest := drop_of_length hsplit (length_appendI32 _)
  rw [crcField, take_of_drop hsplit (length_appendI32 _), unsigned_appendI32]
  change wrapped 32 (signed 32 _) = (crc32c ((encodeRecordBatch ts pairs).drop (17 + 4))).toNat
  rw [hrest, wrapped_signed (UInt32.toNat_lt _)]

end

/-- **Round trip.**  What the publisher writes for some pairs is parsed to one record for each, in
order, with offsets from zero; its length and its checksum are right; and batches that follow each
other with first offsets of their own are parsed to their records with these offsets. -/
theorem encodeRecordBatch_round_trip (partition ts : ℤ) (pairs : List (List UInt8 × List UInt8))
    (hsize : (encodeRecordBatch ts pairs).length < 2 ^ 31) :
    Yields (encodeRecordBatch ts pairs) partition (fetchedFrom partition 0 pairs) ∧
      lengthField (encodeRecordBatch ts pairs) 0 = (encodeRecordBatch ts pairs).length - 12 ∧
      crcField (encodeRecordBatch ts pairs) =
        (crc32c ((encodeRecordBatch ts pairs).drop 21)).toNat ∧
      ∀ ps : List Stored, (∀ p ∈ ps, p.Fits) → (ps.flatMap Stored.bytes).length < 2 ^ 63 →
        Yields (ps.flatMap Stored.bytes) partition
          (ps.flatMap fun p => fetchedFrom partition p.baseOffset p.pairs) := by
  refine ⟨?_, lengthField_encodeRecordBatch hsize, crcField_encodeRecordBatch,
    fun ps hps hlen => Stored.yields hps hlen partition⟩
  have hbytes : [Stored.mk 0 ts pairs].flatMap Stored.bytes = encodeRecordBatch ts pairs := by
    rw [List.flatMap_singleton, Stored.bytes, rebase_encodeRecordBatch, encodeRecordBatch_eq]
  have hpairs := length_pairs_lt (encodeRecordBatch_eq ▸ hsize)
  have hfits : ∀ p ∈ [Stored.mk 0 ts pairs], p.Fits := by
    intro p hp
    obtain rfl := List.mem_singleton.1 hp
    exact ⟨hsize, le_rfl, by norm_num, by simp only; omega⟩
  have hyields := Stored.yields hfits (by rw [hbytes]; omega) partition
  rwa [hbytes, List.flatMap_singleton] at hyields

theorem encodeRecordBatch_round_trip_two :
    Yields (encodeRecordBatch 0 [([1], [2]), ([], [3])]) 7 [⟨7, 0, [2]⟩, ⟨7, 1, [3]⟩] :=
  (encodeRecordBatch_round_trip 7 0 [([1], [2]), ([], [3])] (by decide +kernel)).1

end

end RecordSet

end MuduoChat
