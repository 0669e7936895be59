import MuduoChat.Kafka.Wire
import MuduoChat.Lib.Loop

/-!
# Record sets

What a broker returns for a partition is a sequence of record batches.  A batch has a header with
its length and the number of its records; a record has its length, some numbers, a key, a value and
headers, each of these with a length of its own.  The parser goes from batch to batch and from
record to record by the lengths of batches and records, and looks for the values by the lengths
inside the records.

Positions are numbers of 64 bits.  Beside the values of the records, the model keeps where in the
bytes they were found.
-/

namespace MuduoChat

namespace RecordSet

open KafkaWire

/-! ### Reading -/

/-- A record that has been fetched, with the bytes of its value. -/
structure FetchedRecord where
  partition : ℤ
  offset : ℤ
  value : List UInt8
  deriving DecidableEq

/-- How parsing ends if it does not return true: it returns false, it throws, or it reads behind the
end of the bytes, where anything can happen. -/
inductive Stop where
  | refused
  | outOfRange
  | undefined
  deriving DecidableEq

abbrev Parse (α : Type) := Except Stop α

lemma Parse.bind_eq_ok {α β : Type} {x : Parse α} {f : α → Parse β} {b : β} :
    x >>= f = .ok b ↔ ∃ a, x = .ok a ∧ f a = .ok b := by
  cases x <;> simp [bind, Except.bind]

lemma Parse.ok_bind {α β : Type} (a : α) (f : α → Parse β) : (.ok a : Parse α) >>= f = f a := rfl

/-- The byte at a position.  Behind the last byte there is a zero. -/
def readAt (bytes : List UInt8) (pos : ℕ) : Parse UInt8 :=
  match bytes[pos]? with
  | some b => .ok b
  | none => if pos = bytes.length then .ok 0 else .error .undefined

def readMany (bytes : List UInt8) : ℕ → ℕ → Parse (List UInt8)
  | 0, _ => .ok []
  | w + 1, pos => do
      let b ← readAt bytes pos
      let bs ← readMany bytes w (pos + 1)
      pure (b :: bs)

def readI32 (bytes : List UInt8) (pos : ℕ) : Parse ℤ := do
  let bs ← readMany bytes 4 pos
  pure (signed 32 (unsigned bs))

def readI64 (bytes : List UInt8) (pos : ℕ) : Parse ℤ := do
  let bs ← readMany bytes 8 pos
  pure (signed 64 (unsigned bs))

/-- A number of variable length and the position behind it. -/
def varintAt (bytes : List UInt8) (pos : ℕ) : Parse (ℤ × ℕ) :=
  match readVarint bytes pos with
  | some r => .ok r
  | none => .error .refused

/-- A position after a length, modulo `2 ^ 64`. -/
def advance (pos : ℕ) (len : ℤ) : ℕ := wrapped 64 (pos + len)

/-- A length below zero stands for nothing. -/
def skip (pos : ℕ) (len : ℤ) : ℕ := if 0 ≤ len then advance pos len else pos

/-- Part of the bytes as a string. -/
def assign (bytes : List UInt8) (pos len : ℕ) : Parse (List UInt8) :=
  if pos > bytes.length then .error .outOfRange else .ok ((bytes.drop pos).take len)

/-- The value of a record.  One with a length below zero stays empty. -/
def readValue (bytes : List UInt8) (pos : ℕ) (len : ℤ) : Parse (List UInt8) :=
  if 0 ≤ len then assign bytes pos len.toNat else .ok []

/-! ### Records -/

/-- A place in the bytes: where it begins, and the length that was read for it. -/
structure Span where
  start : ℕ
  len : ℤ
  deriving DecidableEq

/-- The end of a place. -/
def Span.stop (p : Span) : ℕ := p.start + p.len.toNat

/-- What is read inside of a record: the difference of its offset, its value, and where its key, its
value and its headers are and end. -/
structure Fields where
  offsetDelta : ℤ
  value : List UInt8
  keyAt : Span
  valueAt : Span
  headersAt : List Span
  stop : ℕ
  deriving DecidableEq

/-- The loop over the headers of a record. -/
def parseHeaders (bytes : List UInt8) : ℕ → ℕ → Parse (List Span × ℕ)
  | 0, pos => .ok ([], pos)
  | count + 1, pos => do
      let (hkLen, hkStart) ← varintAt bytes pos
      let (hvLen, hvStart) ← varintAt bytes (skip hkStart hkLen)
      let (spans, stop) ← parseHeaders bytes count (skip hvStart hvLen)
      pure (⟨hkStart, hkLen⟩ :: ⟨hvStart, hvLen⟩ :: spans, stop)

/-- The inside of a record. -/
def parseFields (bytes : List UInt8) (pos : ℕ) : Parse Fields := do
  let (_, pos) ← varintAt bytes pos -- attributes
  let (_, pos) ← varintAt bytes pos -- tsDelta
  let (offsetDelta, pos) ← varintAt bytes pos
  let (keyLen, keyStart) ← varintAt bytes pos
  let (valueLen, valueStart) ← varintAt bytes (skip keyStart keyLen)
  let value ← readValue bytes valueStart valueLen
  let (headerCount, pos) ← varintAt bytes (skip valueStart valueLen)
  let (headersAt, stop) ← parseHeaders bytes headerCount.toNat pos
  pure
    { offsetDelta, value, headersAt, stop
      keyAt := ⟨keyStart, keyLen⟩
      valueAt := ⟨valueStart, valueLen⟩ }

/-- A record with its place: where its batch ends, where its inside begins and where its declared
length ends. -/
structure Located where
  record : FetchedRecord
  fields : Fields
  batchEnd : ℕ
  start : ℕ
  recEnd : ℕ
  deriving DecidableEq

/-- One round of the loop over the records.  It goes on where the declared length ends. -/
def parseRecord (bytes : List UInt8) (partition baseOffset : ℤ) (batchEnd pos : ℕ) :
    Parse Located := do
  let (recLen, start) ← varintAt bytes pos
  if recLen < 0 then .error .refused
  else
    let recEnd := advance start recLen
    if recEnd > batchEnd then .error .refused
    else
      let fields ← parseFields bytes start
      let offset := signed 64 (wrapped 64 (baseOffset + fields.offsetDelta))
      pure
        { fields, batchEnd, start, recEnd
          record := { partition, offset, value := fields.value } }

def parseRecords (bytes : List UInt8) (partition baseOffset : ℤ) (batchEnd : ℕ) :
    ℕ → ℕ → Parse (List Located)
  | 0, _ => .ok []
  | count + 1, pos => do
      let r ← parseRecord bytes partition baseOffset batchEnd pos
      let rs ← parseRecords bytes partition baseOffset batchEnd count r.recEnd
      pure (r :: rs)

/-! ### Batches -/

/-- The batch at a position behind its length: the rest of its header and its records. -/
def parseBody (bytes : List UInt8) (partition baseOffset : ℤ) (batchEnd pos : ℕ) :
    Parse (List Located × ℕ) := do
  let magic ← readAt bytes (pos + 16)
  if magic ≠ 2 then .error .refused
  else
    let recordCount ← readI32 bytes (pos + 57)
    let records ← parseRecords bytes partition baseOffset batchEnd recordCount.toNat (pos + 61)
    pure (records, batchEnd)

/-- The records of the batch at a position, and where the batch ends. -/
def parseBatch (bytes : List UInt8) (partition : ℤ) (pos : ℕ) : Parse (List Located × ℕ) := do
  let baseOffset ← readI64 bytes pos
  let batchLength ← readI32 bytes (pos + 8)
  let batchEnd := advance (pos + 12) batchLength
  if batchEnd > bytes.length then .error .refused
  else parseBody bytes partition baseOffset batchEnd pos

/-- The state of the loop over the batches. -/
structure Cursor where
  pos : ℕ := 0
  out : List Located := []
  deriving DecidableEq

/-- One round of the loop over the batches. -/
def batchStep (bytes : List UInt8) (partition : ℤ) (c : Cursor) :
    Cursor ⊕ Parse (List Located) :=
  if c.pos + 12 ≤ bytes.length then
    match parseBatch bytes partition c.pos with
    | .ok (records, batchEnd) => .inl ⟨batchEnd, c.out ++ records⟩
    | .error e => .inr (.error e)
  else .inr (.ok c.out)

/-- Nothing was returned: no bytes, or one that is zero. -/
def Blank (bytes : List UInt8) : Prop := bytes = [] ∨ bytes = [0]

instance (bytes : List UInt8) : Decidable (Blank bytes) := inferInstanceAs (Decidable (_ ∨ _))

/-- The parser, followed for a number of rounds of the loop over the batches. -/
def parseRecordSet (bytes : List UInt8) (partition : ℤ) (rounds : ℕ) :
    Option (Parse (List Located)) :=
  if Blank bytes then some (.ok []) else Loop.run (batchStep bytes partition) rounds {}

def Returns (bytes : List UInt8) (partition : ℤ) (r : Parse (List Located)) : Prop :=
  ∃ rounds, parseRecordSet bytes partition rounds = some r

/-! ### Where the readers stay -/

section

variable {bytes : List UInt8} {partition : ℤ} {pos w : ℕ}

lemma readAt_of_lt (h : pos < bytes.length) : readAt bytes pos = .ok bytes[pos] := by
  rw [readAt, List.getElem?_eq_getElem h]

lemma readAt_of_le (h : pos ≤ bytes.length) : ∃ b, readAt bytes pos = .ok b := by
  rcases h.lt_or_eq with hlt | rfl
  · exact ⟨_, readAt_of_lt hlt⟩
  · exact ⟨0, by rw [readAt, List.getElem?_eq_none le_rfl, if_pos rfl]⟩

lemma readAt_of_gt (h : bytes.length < pos) : readAt bytes pos = .error .undefined := by
  rw [readAt, List.getElem?_eq_none h.le, if_neg h.ne']

lemma readMany_of_inside (h : pos + w ≤ bytes.length) :
    readMany bytes w pos = .ok ((bytes.drop pos).take w) := by
  induction w generalizing pos with
  | zero => rfl
  | succ w ih =>
    have hpos : pos < bytes.length := by omega
    rw [readMany, readAt_of_lt hpos, ih (by omega), List.drop_eq_getElem_cons hpos,
      List.take_succ_cons]
    rfl

lemma readMany_of_le (h : pos + w ≤ bytes.length + 1) : ∃ bs, readMany bytes w pos = .ok bs := by
  induction w generalizing pos with
  | zero => exact ⟨[], rfl⟩
  | succ w ih =>
    have hpos : pos ≤ bytes.length := by omega
    have hrest : pos + 1 + w ≤ bytes.length + 1 := by omega
    obtain ⟨b, hb⟩ := readAt_of_le hpos
    obtain ⟨bs, hbs⟩ := ih hrest
    exact ⟨b :: bs, by rw [readMany, hb, hbs]; rfl⟩

lemma readMany_of_gt (h : bytes.length + 1 < pos + (w + 1)) :
    readMany bytes (w + 1) pos = .error .undefined := by
  induction w generalizing pos with
  | zero => rw [readMany, readAt_of_gt (by omega)]; rfl
  | succ w ih =>
    rw [readMany, ih (by omega)]
    by_cases hpos : pos ≤ bytes.length
    · obtain ⟨b, hb⟩ := readAt_of_le hpos
      rw [hb]
      rfl
    · rw [readAt_of_gt (by omega)]
      rfl

lemma varintAt_bounds {v : ℤ} {pos' : ℕ} (h : varintAt bytes pos = .ok (v, pos')) :
    -2 ^ 63 ≤ v ∧ v < 2 ^ 63 ∧ pos < pos' ∧ pos' ≤ bytes.length := by
  rw [varintAt] at h
  split at h
  next hread => exact readVarint_bounds (Except.ok.inj h ▸ hread)
  next => cases h

/-- Nothing behind the end of the bytes is read. -/
def Defined {α : Type} (x : Parse α) : Prop := x ≠ .error .undefined

lemma Defined.ok {α : Type} (a : α) : Defined (.ok a : Parse α) := nofun

lemma Defined.refused {α : Type} : Defined (.error .refused : Parse α) := nofun

lemma Defined.bind {α β : Type} {x : Parse α} {f : α → Parse β} (hx : Defined x)
    (hf : ∀ a, Defined (f a)) : Defined (x >>= f) := by
  cases x with
  | error e => exact fun h => hx (congrArg Except.error (Except.error.inj h))
  | ok a => exact hf a

variable {baseOffset : ℤ} {batchEnd count : ℕ}

lemma defined_varintAt : Defined (varintAt bytes pos) := by
  rw [varintAt]
  split
  · exact .ok _
  · exact .refused

lemma defined_readValue {len : ℤ} : Defined (readValue bytes pos len) := by
  rw [readValue, assign]
  split_ifs
  · exact nofun
  · exact .ok _
  · exact .ok _

lemma defined_parseHeaders : Defined (parseHeaders bytes count pos) := by
  induction count generalizing pos with
  | zero => exact .ok _
  | succ count ih =>
    refine defined_varintAt.bind fun hk => ?_
    refine defined_varintAt.bind fun hv => ?_
    exact ih.bind fun _ => .ok _

lemma defined_parseFields : Defined (parseFields bytes pos) := by
  refine defined_varintAt.bind fun attributes => ?_
  refine defined_varintAt.bind fun tsDelta => ?_
  refine defined_varintAt.bind fun offsetDelta => ?_
  refine defined_varintAt.bind fun keyLen => ?_
  refine defined_varintAt.bind fun valueLen => ?_
  refine defined_readValue.bind fun value => ?_
  refine defined_varintAt.bind fun headerCount => ?_
  exact defined_parseHeaders.bind fun _ => .ok _

lemma defined_parseRecord : Defined (parseRecord bytes partition baseOffset batchEnd pos) := by
  refine defined_varintAt.bind fun ⟨recLen, start⟩ => ?_
  dsimp only
  split_ifs
  · exact .refused
  · exact .refused
  · exact defined_parseFields.bind fun _ => .ok _

lemma defined_parseRecords :
    Defined (parseRecords bytes partition baseOffset batchEnd count pos) := by
  induction count generalizing pos with
  | zero => exact .ok _
  | succ count ih =>
    refine defined_parseRecord.bind fun r => ?_
    exact ih.bind fun _ => .ok _

/-! ### Progress -/

/-- The length in the header of the batch at a position. -/
def lengthField (bytes : List UInt8) (pos : ℕ) : ℤ :=
  signed 32 (unsigned ((bytes.drop (pos + 8)).take 4))

/-- The first offset in the header of the batch at a position. -/
def baseField (bytes : List UInt8) (pos : ℕ) : ℤ := signed 64 (unsigned ((bytes.drop pos).take 8))

/-- Where the batch at a position ends by its length. -/
def batchStop (bytes : List UInt8) (pos : ℕ) : ℕ := advance (pos + 12) (lengthField bytes pos)

/-- As far as the header of the batch at a position is read, it is there.  The byte behind the last
one counts. -/
def Headed (bytes : List UInt8) (pos : ℕ) : Prop :=
  batchStop bytes pos ≤ bytes.length →
    pos + 16 ≤ bytes.length ∧ (readAt bytes (pos + 16) = .ok 2 → pos + 60 ≤ bytes.length)

lemma parseBatch_of_inside (h : pos + 12 ≤ bytes.length) :
    parseBatch bytes partition pos =
      if batchStop bytes pos > bytes.length then .error .refused
      else parseBody bytes partition (baseField bytes pos) (batchStop bytes pos) pos := by
  rw [parseBatch, readI64, readI32, readMany_of_inside (by omega), readMany_of_inside (by omega)]
  rfl

lemma of_parseBatch {records : List Located} (h : pos + 12 ≤ bytes.length)
    (hparse : parseBatch bytes partition pos = .ok (records, batchEnd)) :
    batchEnd = batchStop bytes pos ∧ batchEnd ≤ bytes.length ∧
      readAt bytes (pos + 16) = .ok 2 ∧ ∃ count, readI32 bytes (pos + 57) = .ok count ∧
        parseRecords bytes partition (baseField bytes pos) batchEnd count.toNat (pos + 61) =
          .ok records := by
  rw [parseBatch_of_inside h] at hparse
  split_ifs at hparse with hstop
  obtain ⟨magic, hmagic, hparse⟩ := Parse.bind_eq_ok.1 hparse
  split_ifs at hparse with htwo
  obtain ⟨count, hcount, hparse⟩ := Parse.bind_eq_ok.1 hparse
  obtain ⟨rs, hrs, hparse⟩ := Parse.bind_eq_ok.1 hparse
  cases hparse
  exact ⟨rfl, Nat.le_of_not_gt hstop, not_not.1 htwo ▸ hmagic, count, hcount, hrs⟩

lemma defined_parseBody_iff :
    Defined (parseBody bytes partition baseOffset batchEnd pos) ↔
      pos + 16 ≤ bytes.length ∧ (readAt bytes (pos + 16) = .ok 2 → pos + 60 ≤ bytes.length) := by
  rw [parseBody]
  by_cases hmagic : pos + 16 ≤ bytes.length
  · obtain ⟨magic, hread⟩ := readAt_of_le hmagic
    rw [hread]
    by_cases htwo : magic = 2
    · subst htwo
      change Defined (readI32 bytes (pos + 57) >>= _) ↔ _
      by_cases hcount : pos + 60 ≤ bytes.length
      · have hfour : pos + 57 + 4 ≤ bytes.length + 1 := by omega
        obtain ⟨bs, hbs⟩ := readMany_of_le hfour
        rw [readI32, hbs]
        refine ⟨fun _ => ⟨hmagic, fun _ => hcount⟩, fun _ => ?_⟩
        refine Defined.bind (.ok _) fun recordCount => ?_
        exact defined_parseRecords.bind fun _ => .ok _
      · rw [readI32, readMany_of_gt (by omega)]
        exact ⟨fun hdef => absurd rfl hdef, fun hall => absurd (hall.2 rfl) hcount⟩
    · have hrefused : ∀ x : Parse (List Located × ℕ),
          (if magic ≠ 2 then .error .refused else x) = .error .refused := fun _ => if_pos htwo
      refine ⟨fun _ => ⟨hmagic, fun heq => absurd (Except.ok.inj heq) htwo⟩, fun _ => ?_⟩
      change Defined (if magic ≠ 2 then _ else _)
      rw [hrefused]
      exact .refused
  · rw [readAt_of_gt (by omega)]
    exact ⟨fun hdef => absurd rfl hdef, fun hall => absurd hall.1 hmagic⟩

lemma defined_parseBatch_iff (h : pos + 12 ≤ bytes.length) :
    Defined (parseBatch bytes partition pos) ↔ Headed bytes pos := by
  rw [parseBatch_of_inside h, Headed]
  split_ifs with hstop
  · exact ⟨fun _ hle => absurd hle (Nat.not_le.2 hstop), fun _ => .refused⟩
  · rw [defined_parseBody_iff]
    exact ⟨fun hhead _ => hhead, fun hhead => hhead (Nat.le_of_not_gt hstop)⟩

lemma lengthField_bounds (bytes : List UInt8) (pos : ℕ) :
    -2 ^ 31 ≤ lengthField bytes pos ∧ lengthField bytes pos < 2 ^ 31 := by
  have hlen : ((bytes.drop (pos + 8)).take 4).length ≤ 4 := List.length_take_le ..
  have hlt := unsigned_lt ((bytes.drop (pos + 8)).take 4)
  have hpow : 256 ^ ((bytes.drop (pos + 8)).take 4).length ≤ 256 ^ 4 :=
    Nat.pow_le_pow_right (by norm_num) hlen
  exact signed_bounds 31 (hlt.trans_le hpow)

lemma batchStop_eq (hsize : bytes.length < 2 ^ 63) (h : pos + 12 ≤ bytes.length)
    (hstop : batchStop bytes pos ≤ bytes.length) :
    (batchStop bytes pos : ℤ) = pos + 12 + lengthField bytes pos := by
  obtain ⟨hlo, hhi⟩ := lengthField_bounds bytes pos
  rw [batchStop, advance, wrapped] at hstop ⊢
  push_cast at hstop ⊢
  omega

variable {c : Cursor}

lemma of_batchStep {c' : Cursor} (h : batchStep bytes partition c = .inl c') :
    c.pos + 12 ≤ bytes.length ∧
      ∃ records, parseBatch bytes partition c.pos = .ok (records, c'.pos) ∧
        c'.out = c.out ++ records := by
  rw [batchStep] at h
  split_ifs at h with hpos
  split at h
  next records batchEnd hparse =>
    cases h
    exact ⟨hpos, records, hparse, rfl⟩
  next => cases h

lemma lt_pos_iff (hsize : bytes.length < 2 ^ 63) {c' : Cursor}
    (h : batchStep bytes partition c = .inl c') :
    c.pos < c'.pos ↔ -12 < lengthField bytes c.pos := by
  obtain ⟨hpos, records, hparse, -⟩ := of_batchStep h
  obtain ⟨heq, hle, -⟩ := of_parseBatch hpos hparse
  rw [heq] at hle ⊢
  have := batchStop_eq hsize hpos hle
  omega

lemma pos_le_of_batchStep {c' : Cursor} (h : batchStep bytes partition c = .inl c') :
    c'.pos ≤ bytes.length := by
  obtain ⟨hpos, records, hparse, -⟩ := of_batchStep h
  exact (of_parseBatch hpos hparse).2.1

/-- A round that ends the loop reads behind the bytes exactly if the header of its batch is not
there. -/
lemma batchStep_undefined_iff :
    batchStep bytes partition c = .inr (.error .undefined) ↔
      c.pos + 12 ≤ bytes.length ∧ ¬ Headed bytes c.pos := by
  rw [batchStep]
  split_ifs with hpos
  · have hdef : Defined (parseBatch bytes partition c.pos) ↔ Headed bytes c.pos :=
      defined_parseBatch_iff hpos
    rw [← hdef, Defined, not_not]
    split
    next hparse => simp [hparse, hpos]
    next e hparse => simp [hparse, hpos]
  · simp [hpos]

/-- The positions from which the loop takes a batch. -/
def Reached (bytes : List UInt8) (partition : ℤ) (c : Cursor) : Prop :=
  Loop.Reaches (batchStep bytes partition) {} c

/-- Every round of the loop ends the parser or goes forward. -/
def Progresses (bytes : List UInt8) (partition : ℤ) : Prop :=
  ∀ c c', Reached bytes partition c → batchStep bytes partition c = .inl c' → c.pos < c'.pos

variable {r : Parse (List Located)}

lemma returns_iff (hblank : ¬ Blank bytes) :
    Returns bytes partition r ↔ Loop.Ends (batchStep bytes partition) {} r := by
  simp only [Returns, parseRecordSet, if_neg hblank, Loop.Ends]

lemma Returns.unique {r' : Parse (List Located)} (h : Returns bytes partition r)
    (h' : Returns bytes partition r') : r = r' := by
  by_cases hblank : Blank bytes
  · obtain ⟨rounds, hrounds⟩ := h
    obtain ⟨rounds', hrounds'⟩ := h'
    rw [parseRecordSet, if_pos hblank] at hrounds hrounds'
    exact Option.some.inj (hrounds.symm.trans hrounds')
  · exact Loop.Ends.unique ((returns_iff hblank).1 h) ((returns_iff hblank).1 h')

lemma length_lt_of_blank (h : Blank bytes) : bytes.length < 12 := by
  rcases h with rfl | rfl
  · exact Nat.zero_lt_succ 11
  · exact Nat.lt_of_sub_eq_succ rfl

lemma returns_of_blank (h : Blank bytes) : Returns bytes partition (.ok []) :=
  ⟨0, if_pos h⟩

lemma Progresses.exists_returns (h : Progresses bytes partition) :
    ∃ r, Returns bytes partition r := by
  by_cases hblank : Blank bytes
  · exact ⟨_, returns_of_blank hblank⟩
  -- The distance to the end of the bytes decreases.
  obtain ⟨r, hr⟩ := Loop.exists_run_of_variant (s := ({} : Cursor))
    (fun c => bytes.length - c.pos) (fun c c' hc hstep => by
      have hlt := h c c' hc hstep
      have hle := pos_le_of_batchStep hstep
      omega)
  exact ⟨r, (returns_iff hblank).2 ⟨_, hr⟩⟩

lemma defined_of_returns (h : Returns bytes partition r) :
    Defined r ↔
      ∀ c, Reached bytes partition c → c.pos + 12 ≤ bytes.length → Headed bytes c.pos := by
  by_cases hblank : Blank bytes
  · have hlen := length_lt_of_blank hblank
    obtain rfl := h.unique (returns_of_blank hblank)
    exact ⟨fun _ c _ hpos => absurd hpos (by omega), fun _ => .ok _⟩
  rw [returns_iff hblank] at h
  constructor
  · intro hdef c hc hpos
    by_contra hhead
    have hround : batchStep bytes partition c = .inr (.error .undefined) :=
      batchStep_undefined_iff.2 ⟨hpos, hhead⟩
    exact hdef (h.unique (Loop.ends_of_reaches hc hround))
  · rintro hall rfl
    obtain ⟨c, hc, hround⟩ := h.of_invariant (I := Reached bytes partition) .refl
      fun _ _ hc hstep => hc.tail hstep
    obtain ⟨hpos, hhead⟩ := batchStep_undefined_iff.1 hround
    exact hhead (hall c hc hpos)

/-- **Termination.**  The parser ends after finitely many rounds, each of which ends it or goes
forward, without a look behind the bytes, exactly if every batch that it comes to has its header,
and a length above `-12` if it is passed. -/
theorem parseRecordSet_ends_iff (bytes : List UInt8) (partition : ℤ)
    (hsize : bytes.length < 2 ^ 63) :
    ((∃ r, Returns bytes partition r ∧ Defined r) ∧ Progresses bytes partition) ↔
      ∀ c, Reached bytes partition c → c.pos + 12 ≤ bytes.length →
        Headed bytes c.pos ∧
          ∀ c', batchStep bytes partition c = .inl c' → -12 < lengthField bytes c.pos := by
  constructor
  · rintro ⟨⟨r, hr, hdef⟩, hprogress⟩ c hc hpos
    refine ⟨(defined_of_returns hr).1 hdef c hc hpos, fun c' hstep => ?_⟩
    exact (lt_pos_iff hsize hstep).1 (hprogress c c' hc hstep)
  · intro hall
    have hprogress : Progresses bytes partition := fun c c' hc hstep =>
      (lt_pos_iff hsize hstep).2 ((hall c hc (of_batchStep hstep).1).2 c' hstep)
    obtain ⟨r, hr⟩ := hprogress.exists_returns
    exact ⟨⟨r, hr, (defined_of_returns hr).2 fun c hc hpos => (hall c hc hpos).1⟩, hprogress⟩

/-- A batch without records, with a length that leads back to where the batch begins. -/
def selfLoop : List UInt8 :=
  List.replicate 8 0 ++ [255, 255, 255, 244] ++ List.replicate 4 0 ++ [2] ++ List.replicate 44 0

/-- With the length `-12` the parser never returns. -/
theorem selfLoop_never_returns :
    selfLoop.length = 61 ∧ lengthField selfLoop 0 = -12 ∧
      batchStep selfLoop 0 {} = .inl {} ∧ ∀ rounds, parseRecordSet selfLoop 0 rounds = none := by
  have hround : batchStep selfLoop 0 {} = .inl {} := by decide +kernel
  refine ⟨by decide, by decide, hround, fun rounds => ?_⟩
  rw [parseRecordSet, if_neg (by decide)]
  exact Loop.run_of_fixed hround rounds

/-- A batch without records, of the right length. -/
def emptyBatch : List UInt8 :=
  List.replicate 8 0 ++ [0, 0, 0, 49] ++ List.replicate 4 0 ++ [2] ++ List.replicate 44 0

theorem parseRecordSet_ends_emptyBatch :
    (∃ r, Returns emptyBatch 0 r ∧ Defined r) ∧ Progresses emptyBatch 0 := by
  have hfirst : batchStep emptyBatch 0 {} = .inl ⟨61, []⟩ := by decide +kernel
  have hlast : batchStep emptyBatch 0 ⟨61, []⟩ = .inr (.ok []) := by decide +kernel
  refine (parseRecordSet_ends_iff emptyBatch 0 (by decide)).2 fun c hc hpos => ?_
  have hc : c = {} ∨ c = ⟨61, []⟩ := by
    induction hc with
    | refl => exact .inl rfl
    | tail hc hstep ih =>
      rcases ih (of_batchStep hstep).1 with rfl | rfl
      · exact .inr (Sum.inl.inj (hstep.symm.trans hfirst))
      · cases hstep.symm.trans hlast
  rcases hc with rfl | rfl
  · exact ⟨fun _ => ⟨by decide, fun _ => by decide⟩, fun _ _ => by decide⟩
  · exact absurd hpos (by decide)

/-! ### Extents -/

/-- A place with a length of its own lies between two positions. -/
def Span.Inside (p : Span) (lo hi : ℕ) : Prop := 0 ≤ p.len → lo ≤ p.start ∧ p.stop ≤ hi

/-- The places of the key, the value and the headers of a record. -/
def Fields.spans (f : Fields) : List Span := f.keyAt :: f.valueAt :: f.headersAt

/-- A length inside of a record leads behind the end that the record declares. -/
def Located.Exceeds (r : Located) : Prop :=
  ∃ p ∈ r.fields.spans, 0 ≤ p.len ∧ r.recEnd < p.stop

/-- A record has the value that its length names, its key, its value and its headers are inside of
its declared extent, and that is inside of the declared extent of a batch. -/
structure Located.Contained (bytes : List UInt8) (r : Located) : Prop where
  value : r.record.value = (bytes.drop r.fields.valueAt.start).take r.fields.valueAt.len.toNat
  value_length : r.record.value.length = r.fields.valueAt.len.toNat
  spans : ∀ p ∈ r.fields.spans, p.Inside r.start r.recEnd
  declared : ∃ head len, varintAt bytes head = .ok (len, r.start) ∧ (r.recEnd : ℤ) = r.start + len
  batch : ∃ head, r.batchEnd = batchStop bytes head ∧ head + 12 ≤ r.start ∧
    r.recEnd ≤ r.batchEnd ∧ r.batchEnd ≤ bytes.length

lemma advance_eq {len : ℤ} (hsize : bytes.length < 2 ^ 63) (hpos : pos ≤ bytes.length)
    (hlo : 0 ≤ len) (hhi : len < 2 ^ 63) : advance pos len = pos + len.toNat := by
  rw [advance, wrapped]
  omega

lemma skip_eq {len : ℤ} (hsize : bytes.length < 2 ^ 63) (hpos : pos ≤ bytes.length)
    (hhi : len < 2 ^ 63) : skip pos len = pos + len.toNat := by
  rw [skip]
  split_ifs with hlo
  · exact advance_eq hsize hpos hlo hhi
  · omega

lemma readValue_eq {len : ℤ} {value : List UInt8} (hstop : pos + len.toNat ≤ bytes.length)
    (h : readValue bytes pos len = .ok value) :
    value = (bytes.drop pos).take len.toNat ∧ value.length = len.toNat := by
  rw [readValue, assign] at h
  split_ifs at h with hlen hpos
  · cases h
    refine ⟨rfl, ?_⟩
    rw [List.length_take, List.length_drop]
    omega
  · cases h
    have hzero : len.toNat = 0 := by omega
    rw [hzero]
    exact ⟨rfl, rfl⟩

/-! ### The layout of the bytes -/

/-- Blocks, one behind the other: each is a length and as many bytes. -/
inductive BlocksAt (bytes : List UInt8) : ℕ → List Span → ℕ → Prop
  | nil {pos : ℕ} : BlocksAt bytes pos [] pos
  | cons {pos stop : ℕ} {p : Span} {ps : List Span}
      (hlen : readVarint bytes pos = some (p.len, p.start))
      (hrest : BlocksAt bytes p.stop ps stop) : BlocksAt bytes pos (p :: ps) stop

/-- Three numbers, a key and a value, and as many headers as a fourth number says, each of them two
blocks. -/
def FieldsAt (bytes : List UInt8) (pos : ℕ) (spans : List Span) : Prop :=
  ∃ attributes tsDelta offsetDelta headerCount p₁ p₂ p₃ p₄ p₅ stop, ∃ key value headers,
    readVarint bytes pos = some (attributes, p₁) ∧ readVarint bytes p₁ = some (tsDelta, p₂) ∧
      readVarint bytes p₂ = some (offsetDelta, p₃) ∧ BlocksAt bytes p₃ [key, value] p₄ ∧
      readVarint bytes p₄ = some (headerCount, p₅) ∧ BlocksAt bytes p₅ headers stop ∧
      headers.length = 2 * headerCount.toNat ∧ spans = key :: value :: headers

/-- What a record declares to be its own, and the blocks that stand there. -/
structure Extent where
  start : ℕ
  recEnd : ℕ
  spans : List Span

/-- A block of the record leads behind its end. -/
def Extent.Overruns (e : Extent) : Prop := ∃ p ∈ e.spans, 0 ≤ p.len ∧ e.recEnd < p.stop

/-- Records of a batch.  Each begins with its length, and the next one begins where that leads. -/
inductive RecordsAt (bytes : List UInt8) (batchEnd : ℕ) : ℕ → ℕ → List Extent → Prop
  | nil {pos : ℕ} : RecordsAt bytes batchEnd 0 pos []
  | cons {count pos recLen start : ℕ} {spans : List Span} {es : List Extent}
      (hlen : readVarint bytes pos = some ((recLen : ℤ), start)) (hle : start + recLen ≤ batchEnd)
      (hfields : FieldsAt bytes start spans)
      (hrest : RecordsAt bytes batchEnd count (start + recLen) es) :
      RecordsAt bytes batchEnd (count + 1) pos (⟨start, start + recLen, spans⟩ :: es)

/-- Batches, up to the end of the bytes.  Each has its length, the number 2 and the number of its
records at their places, and the next one begins where the length leads. -/
inductive BatchesAt (bytes : List UInt8) : ℕ → List Extent → Prop
  | nil {pos : ℕ} (hpos : bytes.length < pos + 12) : BatchesAt bytes pos []
  | cons {pos stop : ℕ} {count : ℤ} {es rest : List Extent} (hpos : pos + 12 ≤ bytes.length)
      (hstop : (stop : ℤ) = pos + 12 + lengthField bytes pos) (hle : stop ≤ bytes.length)
      (hmagic : readAt bytes (pos + 16) = .ok 2) (hcount : readI32 bytes (pos + 57) = .ok count)
      (hrecords : RecordsAt bytes stop count.toNat (pos + 61) es)
      (hrest : BatchesAt bytes stop rest) : BatchesAt bytes pos (es ++ rest)

lemma varintAt_eq_ok {v : ℤ × ℕ} : varintAt bytes pos = .ok v ↔ readVarint bytes pos = some v := by
  rw [varintAt]
  split
  next r hread => simp [hread]
  next hread => simp [hread]

/-- The blocks stand behind each other. -/
lemma BlocksAt.start_le {spans : List Span} {stop : ℕ} (h : BlocksAt bytes pos spans stop) :
    ∀ p ∈ spans, pos ≤ p.start := by
  induction h with
  | nil => exact nofun
  | @cons pos stop p ps hlen _ ih =>
    obtain ⟨-, -, hpos, -⟩ := readVarint_bounds hlen
    refine List.forall_mem_cons.2 ⟨hpos.le, fun q hq => ?_⟩
    have := ih q hq
    unfold Span.stop at this
    omega

/-- The extent of a record that has been found. -/
def Located.extent (r : Located) : Extent := ⟨r.start, r.recEnd, r.fields.spans⟩

lemma Located.Contained.not_exceeds {r : Located} (h : r.Contained bytes) : ¬ r.Exceeds := by
  rintro ⟨p, hp, hlen, hlt⟩
  exact Nat.not_le.2 hlt (h.spans p hp hlen).2

lemma batchStep_ok {out : List Located} (h : batchStep bytes partition c = .inr (.ok out)) :
    out = c.out ∧ bytes.length < c.pos + 12 := by
  rw [batchStep] at h
  split_ifs at h with hpos
  · split at h
    next => cases h
    next => cases Sum.inr.inj h
  · exact ⟨(Except.ok.inj (Sum.inr.inj h)).symm, by omega⟩

section Layout

variable (hsize : bytes.length < 2 ^ 63)

include hsize

lemma skip_start {p : Span} (h : readVarint bytes pos = some (p.len, p.start)) :
    skip p.start p.len = p.stop := by
  obtain ⟨-, hhi, -, hle⟩ := readVarint_bounds h
  exact skip_eq hsize hle hhi

lemma parseHeaders_ok_iff {stop : ℕ} {spans : List Span} :
    parseHeaders bytes count pos = .ok (spans, stop) ↔
      BlocksAt bytes pos spans stop ∧ spans.length = 2 * count := by
  induction count generalizing pos spans with
  | zero =>
    constructor
    · intro h
      obtain ⟨rfl, rfl⟩ := Prod.mk.inj (Except.ok.inj h)
      exact ⟨.nil, rfl⟩
    · rintro ⟨hblocks, hlen⟩
      obtain rfl := List.length_eq_zero_iff.1 hlen
      cases hblocks
      rfl
  | succ count ih =>
    simp only [parseHeaders, Parse.bind_eq_ok, varintAt_eq_ok]
    constructor
    · rintro ⟨⟨hkLen, hkStart⟩, hk, ⟨hvLen, hvStart⟩, hv, ⟨rest, stop'⟩, hrest, h⟩
      obtain ⟨rfl, rfl⟩ := Prod.mk.inj (Except.ok.inj h)
      obtain ⟨hrest, hlen⟩ := ih.1 hrest
      rw [skip_start hsize (p := ⟨hkStart, hkLen⟩) hk] at hv
      rw [skip_start hsize (p := ⟨hvStart, hvLen⟩) hv] at hrest
      exact ⟨.cons hk (.cons hv hrest), by simp only [List.length_cons]; omega⟩
    · rintro ⟨hblocks, hlen⟩
      rcases hblocks with _ | ⟨hk, _ | ⟨hv, hrest⟩⟩
      · cases hlen
      · simp at hlen
        omega
      · simp only [List.length_cons] at hlen
        rw [← skip_start hsize hv] at hrest
        rw [← skip_start hsize hk] at hv
        exact ⟨_, hk, _, hv, _, ih.2 ⟨hrest, by omega⟩, rfl⟩

lemma of_parseFields {f : Fields} (h : parseFields bytes pos = .ok f) :
    FieldsAt bytes pos f.spans ∧ (∀ p ∈ f.spans, pos ≤ p.start) ∧
      f.value = (bytes.drop f.valueAt.start).take f.valueAt.len.toNat ∧
      f.value.length = f.valueAt.len.toNat := by
  simp only [parseFields, Parse.bind_eq_ok, varintAt_eq_ok] at h
  obtain ⟨⟨attributes, p1⟩, h1, ⟨tsDelta, p2⟩, h2, ⟨offsetDelta, p3⟩, h3, ⟨keyLen, keyStart⟩, hkey,
    ⟨valueLen, valueStart⟩, hval, value, hread, ⟨headerCount, p4⟩, hcount, ⟨headersAt, stop⟩,
    hheaders, h⟩ := h
  cases h
  rw [skip_start hsize (p := ⟨keyStart, keyLen⟩) hkey] at hval
  rw [skip_start hsize (p := ⟨valueStart, valueLen⟩) hval] at hcount
  obtain ⟨hblocks, hlen⟩ := (parseHeaders_ok_iff hsize).1 hheaders
  have hall : BlocksAt bytes p3 [⟨keyStart, keyLen⟩, ⟨valueStart, valueLen⟩] _ :=
    .cons hkey (.cons hval .nil)
  obtain ⟨-, -, b1, -⟩ := readVarint_bounds h1
  obtain ⟨-, -, b2, -⟩ := readVarint_bounds h2
  obtain ⟨-, -, b3, -⟩ := readVarint_bounds h3
  obtain ⟨-, -, b4, hinside⟩ := readVarint_bounds hcount
  have hbefore : pos ≤ p3 := by omega
  have hkeyStart : p3 ≤ keyStart := hall.start_le _ List.mem_cons_self
  have hvalueStart : p3 ≤ valueStart := hall.start_le ⟨valueStart, valueLen⟩ (by simp)
  refine ⟨⟨_, _, _, _, _, _, _, _, _, _, _, _, _, h1, h2, h3, hall, hcount, hblocks, hlen, rfl⟩,
    List.forall_mem_cons.2 ⟨hbefore.trans hkeyStart, List.forall_mem_cons.2
      ⟨hbefore.trans hvalueStart, fun p hp => ?_⟩⟩, readValue_eq (b4.le.trans hinside) hread⟩
  have hheader := hblocks.start_le p hp
  change valueStart + valueLen.toNat < p4 at b4
  omega

lemma exists_parseFields {spans : List Span} (h : FieldsAt bytes pos spans) :
    ∃ f, parseFields bytes pos = .ok f ∧ f.spans = spans := by
  obtain ⟨_, _, _, _, _, _, _, _, _, _, key, value, headers, h1, h2, h3, hblocks, hcount, hheaders,
    hlen, rfl⟩ := h
  rcases hblocks with _ | ⟨hkey, _ | ⟨hval, _ | _⟩⟩
  obtain ⟨-, -, -, hle⟩ := readVarint_bounds hval
  obtain ⟨x, hread⟩ : ∃ x, readValue bytes value.start value.len = .ok x := by
    rw [readValue, assign, if_neg (Nat.not_lt.2 hle)]
    split_ifs
    · exact ⟨_, rfl⟩
    · exact ⟨_, rfl⟩
  rw [← skip_start hsize hval] at hcount
  rw [← skip_start hsize hkey] at hval
  simp only [parseFields, Parse.bind_eq_ok, varintAt_eq_ok]
  exact ⟨_, ⟨_, h1, _, h2, _, h3, _, hkey, _, hval, _, hread, _, hcount, _,
    (parseHeaders_ok_iff hsize).2 ⟨hheaders, hlen⟩, rfl⟩, rfl⟩

lemma of_parseRecord {r : Located}
    (h : parseRecord bytes partition baseOffset batchEnd pos = .ok r) :
    ∃ recLen : ℕ, readVarint bytes pos = some ((recLen : ℤ), r.start) ∧
      r.recEnd = r.start + recLen ∧ r.recEnd ≤ batchEnd ∧ r.batchEnd = batchEnd ∧
      parseFields bytes r.start = .ok r.fields ∧ r.record.value = r.fields.value := by
  obtain ⟨⟨recLen, start⟩, hlen, h⟩ := Parse.bind_eq_ok.1 h
  dsimp only at h
  split_ifs at h with hneg hstop
  obtain ⟨fields, hfields, h⟩ := Parse.bind_eq_ok.1 h
  cases h
  rw [varintAt_eq_ok] at hlen
  obtain ⟨-, hhi, -, hle⟩ := readVarint_bounds hlen
  lift recLen to ℕ using Int.not_lt.1 hneg
  refine ⟨recLen, hlen, ?_, Nat.le_of_not_gt hstop, rfl, hfields, rfl⟩
  exact advance_eq hsize hle (Int.natCast_nonneg _) hhi

/-- What is read of a batch is laid out, and the records are contained unless they exceed. -/
lemma of_parseRecords {head : ℕ} {rs : List Located} (hend : batchEnd = batchStop bytes head)
    (hle : batchEnd ≤ bytes.length) (hpos : head + 12 ≤ pos)
    (h : parseRecords bytes partition baseOffset batchEnd count pos = .ok rs) :
    RecordsAt bytes batchEnd count pos (rs.map Located.extent) ∧
      ∀ r ∈ rs, ¬ r.Exceeds → r.Contained bytes := by
  induction count generalizing pos rs with
  | zero =>
    cases h
    exact ⟨.nil, nofun⟩
  | succ count ih =>
    obtain ⟨r, hr, h⟩ := Parse.bind_eq_ok.1 h
    obtain ⟨rest, hrest, h⟩ := Parse.bind_eq_ok.1 h
    cases h
    -- the next record begins where the declared length of this one ends
    obtain ⟨recLen, hlen, hrecEnd, hstop, hbatch, hfields, hvalue⟩ := of_parseRecord hsize hr
    obtain ⟨-, -, hstart, -⟩ := readVarint_bounds hlen
    obtain ⟨hat, hspans, hval, hvallen⟩ := of_parseFields hsize hfields
    obtain ⟨hmore, hcontained⟩ := ih (by omega) hrest
    refine ⟨?_, List.forall_mem_cons.2 ⟨fun hfit => ?_, hcontained⟩⟩
    · rw [hrecEnd] at hstop hmore
      rw [List.map_cons, Located.extent, hrecEnd]
      exact .cons hlen hstop hat hmore
    · refine ⟨hvalue.trans hval, hvalue ▸ hvallen, fun p hp hplen => ⟨hspans p hp, ?_⟩,
        ⟨pos, recLen, varintAt_eq_ok.2 hlen, by omega⟩, head, hbatch.trans hend, by omega,
        hbatch ▸ hstop, hbatch ▸ hle⟩
      by_contra hbehind
      exact hfit ⟨p, hp, hplen, Nat.not_le.1 hbehind⟩

lemma exists_parseRecords (partition baseOffset : ℤ) {es : List Extent}
    (h : RecordsAt bytes batchEnd count pos es) :
    ∃ rs, parseRecords bytes partition baseOffset batchEnd count pos = .ok rs ∧
      rs.map Located.extent = es := by
  induction h with
  | nil => exact ⟨[], rfl, rfl⟩
  | @cons count pos recLen start spans es hlen hle hfields _ ih =>
    obtain ⟨-, hhi, -, hstart⟩ := readVarint_bounds hlen
    have hrecEnd : advance start recLen = start + recLen := by
      rw [advance_eq hsize hstart (Int.natCast_nonneg _) hhi, Int.toNat_natCast]
    obtain ⟨f, hf, rfl⟩ := exists_parseFields hsize hfields
    obtain ⟨rest, hrest, rfl⟩ := ih
    simp only [parseRecords, parseRecord, varintAt_eq_ok.2 hlen, Parse.ok_bind, hrecEnd, hf]
    rw [if_neg (by omega), if_neg (by omega)]
    simp only [pure, Except.pure, Parse.ok_bind, hrest]
    exact ⟨_, rfl, rfl⟩

/-- What is accepted is laid out. -/
lemma of_run {rounds : ℕ} {out : List Located}
    (h : Loop.run (batchStep bytes partition) rounds c = some (.ok out)) :
    ∃ rs, out = c.out ++ rs ∧ BatchesAt bytes c.pos (rs.map Located.extent) ∧
      ∀ r ∈ rs, ¬ r.Exceeds → r.Contained bytes := by
  induction rounds generalizing c with
  | zero => cases h
  | succ rounds ih =>
    cases hround : batchStep bytes partition c with
    | inl c' =>
      rw [Loop.run_inl hround] at h
      obtain ⟨hpos, records, hparse, hout⟩ := of_batchStep hround
      obtain ⟨rs, rfl, hrest, hcontained⟩ := ih h
      obtain ⟨hend, hle, hmagic, count, hcount, hrecords⟩ := of_parseBatch hpos hparse
      obtain ⟨hlaid, hthese⟩ := of_parseRecords hsize hend hle (by omega) hrecords
      refine ⟨records ++ rs, by rw [hout, List.append_assoc], ?_, fun r hr =>
        (List.mem_append.1 hr).elim (hthese r) (hcontained r)⟩
      rw [List.map_append]
      exact .cons hpos (hend ▸ batchStop_eq hsize hpos (hend ▸ hle)) hle hmagic hcount hlaid hrest
    | inr r =>
      rw [Loop.run_inr hround] at h
      cases h
      obtain ⟨rfl, hshort⟩ := batchStep_ok hround
      exact ⟨[], (List.append_nil _).symm, .nil hshort, nofun⟩

lemma of_returns {out : List Located} (h : Returns bytes partition (.ok out)) :
    BatchesAt bytes 0 (out.map Located.extent) ∧ ∀ r ∈ out, ¬ r.Exceeds → r.Contained bytes := by
  by_cases hblank : Blank bytes
  · have hshort := length_lt_of_blank hblank
    obtain rfl := Except.ok.inj (h.unique (returns_of_blank hblank))
    exact ⟨.nil (by omega), nofun⟩
  · obtain ⟨rounds, hrun⟩ := (returns_iff hblank).1 h
    obtain ⟨rs, rfl, hlaid, hcontained⟩ := of_run hsize hrun
    exact ⟨hlaid, hcontained⟩

/-- What is laid out is accepted. -/
lemma ends_of_batchesAt (partition : ℤ) {es : List Extent} (h : BatchesAt bytes pos es)
    (before : List Located) :
    ∃ rs, Loop.Ends (batchStep bytes partition) ⟨pos, before⟩ (.ok (before ++ rs)) ∧
      rs.map Located.extent = es := by
  induction h generalizing before with
  | nil hpos =>
    refine ⟨[], (Loop.ends_inr ?_).2 rfl, rfl⟩
    rw [batchStep, if_neg (by dsimp only; omega), List.append_nil]
  | @cons pos stop count es rest hpos heq hle hmagic hcount hrecords _ ih =>
    obtain rfl : batchStop bytes pos = stop := by
      rw [batchStop, advance, wrapped]
      push_cast
      omega
    obtain ⟨records, hparse, rfl⟩ := exists_parseRecords hsize partition (baseField bytes pos)
      hrecords
    obtain ⟨rs, hends, rfl⟩ := ih (before ++ records)
    refine ⟨records ++ rs, (Loop.ends_inl ?_).2 (by rwa [← List.append_assoc]), by simp⟩
    rw [batchStep, if_pos hpos]
    dsimp only
    rw [parseBatch_of_inside hpos, if_neg (Nat.not_lt.2 hle), parseBody, hmagic, hcount]
    simp only [Parse.ok_bind, ne_eq, not_true_eq_false, if_false, hparse]
    rfl

lemma returns_of_batchesAt (partition : ℤ) {es : List Extent} (h : BatchesAt bytes 0 es) :
    ∃ out, Returns bytes partition (.ok out) ∧ out.map Located.extent = es := by
  by_cases hblank : Blank bytes
  · have hshort := length_lt_of_blank hblank
    cases h with
    | nil => exact ⟨[], returns_of_blank hblank, rfl⟩
    | cons hpos => omega
  · obtain ⟨rs, hends, heq⟩ := ends_of_batchesAt hsize partition h []
    exact ⟨rs, (returns_iff hblank).2 hends, heq⟩

end Layout

/-- **Extents.**  What is accepted consists of contained records, and nothing with a record that has
a length inside that exceeds its own is accepted, exactly if the bytes are not laid out as batches
with such a record. -/
theorem accepted_contained_iff (bytes : List UInt8) (partition : ℤ)
    (hsize : bytes.length < 2 ^ 63) :
    ((∀ out, Returns bytes partition (.ok out) → ∀ r ∈ out, r.Contained bytes) ∧
        ∀ out, (∃ r ∈ out, r.Exceeds) → ¬ Returns bytes partition (.ok out)) ↔
      ∀ es, BatchesAt bytes 0 es → ∀ e ∈ es, ¬ e.Overruns := by
  constructor
  · rintro ⟨hcontained, -⟩ es hlaid e he
    obtain ⟨out, hout, rfl⟩ := returns_of_batchesAt hsize partition hlaid
    obtain ⟨r, hr, rfl⟩ := List.mem_map.1 he
    exact (hcontained out hout r hr).not_exceeds
  · intro hfit
    have hnone : ∀ out, Returns bytes partition (.ok out) → ∀ r ∈ out, ¬ r.Exceeds :=
      fun out hout r hr => hfit _ (of_returns hsize hout).1 r.extent (List.mem_map_of_mem hr)
    refine ⟨fun out hout r hr => ?_, fun out ⟨r, hr, hexceeds⟩ hout => ?_⟩
    · exact (of_returns hsize hout).2 r hr (hnone out hout r hr)
    · exact hnone out hout r hr hexceeds

/-- A batch with one record, with the value `x` and a declared length. -/
def oneRecord (declared : UInt8) : List UInt8 :=
  List.replicate 8 0 ++ [0, 0, 0, 57] ++ List.replicate 4 0 ++ [2] ++ List.replicate 43 0 ++
    [1] ++ [declared, 0, 0, 0, 1, 2, 120, 0]

/-- The record of that batch as the parser finds it. -/
def foundRecord (recEnd : ℕ) : Located where
  record := ⟨0, 0, [120]⟩
  fields := ⟨0, [120], ⟨66, -1⟩, ⟨67, 1⟩, [], 69⟩
  batchEnd := 69
  start := 62
  recEnd := recEnd

/-- With the declared length zero the value of the record lies behind the record. -/
theorem overrun_accepted :
    Returns (oneRecord 0) 0 (.ok [foundRecord 62]) ∧ (foundRecord 62).Exceeds ∧
      ¬ (foundRecord 62).Contained (oneRecord 0) := by
  have hexceeds : (foundRecord 62).Exceeds :=
    ⟨⟨67, 1⟩, by decide, by decide, by decide⟩
  exact ⟨⟨2, by decide +kernel⟩, hexceeds, fun h => h.not_exceeds hexceeds⟩

theorem accepted_contained_seven :
    Returns (oneRecord 14) 0 (.ok [foundRecord 69]) ∧
      (foundRecord 69).Contained (oneRecord 14) := by
  have hreturns : Returns (oneRecord 14) 0 (.ok [foundRecord 69]) := ⟨2, by decide +kernel⟩
  refine ⟨hreturns, ((accepted_contained_iff (oneRecord 14) 0 (by decide)).2 ?_).1 _ hreturns _
    (List.mem_singleton.2 rfl)⟩
  intro es hlaid e he
  obtain ⟨out, hout, rfl⟩ := returns_of_batchesAt (by decide) 0 hlaid
  obtain rfl := Except.ok.inj (hout.unique hreturns)
  obtain rfl := List.mem_singleton.1 he
  rintro ⟨p, hp, -, hlt⟩
  revert p
  decide

end

end RecordSet

end MuduoChat
