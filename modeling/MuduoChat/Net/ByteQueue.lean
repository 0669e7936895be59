import MuduoChat.Net.Buffer

/-!
# A buffer is a queue of bytes

`Buffer` counts in natural numbers, and so do the operations here, but for two sums that wrap at
`2 ^ 64`: the size of a new vector, and the size to which `makeSpace` enlarges one.  (The data of
an append is an object in memory and a vector is one, so the other sums are below `2 ^ 64`.)  The
result of an operation is therefore a triple of fields, and the invariant of `Buffer` is what there
is to show: that there is a buffer with these fields.
-/

namespace MuduoChat

namespace Buffer

/-- The fields of a buffer, without the invariant. -/
structure Fields where
  buffer : List UInt8
  readIndex : ℕ
  writeIndex : ℕ

def fields (b : Buffer) : Fields := ⟨b.buffer, b.readIndex, b.writeIndex⟩

/-- The constructor, with the sum of type `size_t`. -/
def ofSize (initialSize : UInt64) : Fields :=
  ⟨List.replicate ((kCheapPrepend + initialSize.toNat) % 2 ^ 64) 0, kCheapPrepend, kCheapPrepend⟩

/-- `ensureWritableBytes`, with the sums of type `size_t`. -/
def ensureSize (b : Buffer) (len : UInt64) : Fields :=
  if b.writableBytes < len.toNat then
    if b.writableBytes + b.prependableBytes < (len.toNat + kCheapPrepend) % 2 ^ 64 then
      ⟨resize b.buffer ((b.writeIndex + len.toNat) % 2 ^ 64), b.readIndex, b.writeIndex⟩
    else
      ⟨overwrite b.buffer kCheapPrepend b.contents, kCheapPrepend,
        kCheapPrepend + b.readableBytes⟩
  else b.fields

/-- The string has bytes from the read index on. -/
def retrieveAsString (b : Buffer) (len : ℕ) : List UInt8 × Buffer :=
  ((b.buffer.drop b.readIndex).take len, b.retrieve len)

/-- The size of the array on the stack into which `readFd` reads what does not fit. -/
def kExtraSize : ℕ := 65536

/-- The space that one `readv` offers to the kernel. -/
def offered (b : Buffer) : ℕ :=
  if b.writableBytes < kExtraSize then b.writableBytes + kExtraSize else b.writableBytes

/-- The kernel copies data behind the write index. -/
def fill (b : Buffer) (data : List UInt8) (h : data.length ≤ b.writableBytes) : Buffer where
  buffer := overwrite b.buffer b.writeIndex data
  readIndex := b.readIndex
  writeIndex := b.writeIndex + data.length
  prepend_le := b.prepend_le
  read_le_write := b.read_le_write.trans (Nat.le_add_right _ _)
  write_le_size := by
    have hsize := b.write_le_size
    unfold writableBytes at h
    rw [length_overwrite (by omega)]
    omega

/-- Read from a descriptor.  The kernel has failed, or it has put data into the offered space,
first behind the write index and then into the array on the stack. -/
def readFd (b : Buffer) : Option (List UInt8) → Buffer
  | none => b
  | some data =>
    if h : data.length ≤ b.writableBytes then b.fill data h
    else
      (b.fill (data.take b.writableBytes) (List.length_take_le _ _)).append
        (data.drop b.writableBytes)

/-! ### Operations -/

/-- The operations of a buffer. -/
inductive Op where
  | append (data : List UInt8)
  | retrieve (len : UInt64)
  | retrieveAll
  | retrieveAsString (len : UInt64)
  | ensureWritableBytes (len : UInt64)
  | readFd (data : Option (List UInt8))

namespace Op

/-- What an operation makes of a buffer. -/
def apply (b : Buffer) : Op → Fields
  | append data => (b.append data).fields
  | retrieve len => (b.retrieve len.toNat).fields
  | retrieveAll => b.retrieveAll.fields
  | retrieveAsString len => (b.retrieveAsString len.toNat).2.fields
  | ensureWritableBytes len => b.ensureSize len
  | readFd data => (b.readFd data).fields

/-- What an operation is for: bytes are added at the end of a queue and removed at its front. -/
def onQueue (q : List UInt8) : Op → List UInt8
  | append data => q ++ data
  | retrieve len => q.drop len.toNat
  | retrieveAll => []
  | retrieveAsString len => q.drop len.toNat
  | ensureWritableBytes _ => q
  | readFd data => q ++ data.getD []

/-- An operation as it may be called: a string is not longer than what is readable, and the kernel
fills no more than it was offered. -/
def Proper (b : Buffer) : Op → Prop
  | retrieveAsString len => len.toNat ≤ b.readableBytes
  | readFd (some data) => data.length ≤ b.offered
  | _ => True

/-- The size to which the vector may have to be enlarged does not wrap. -/
def Fits (b : Buffer) : Op → Prop
  | ensureWritableBytes len => b.writeIndex + len.toNat < 2 ^ 64
  | _ => True

end Op

/-- The buffer holds a queue, and goes on doing so with each operation. -/
def Holds (b : Buffer) (q : List UInt8) : List Op → Prop
  | [] => b.contents = q
  | op :: ops =>
    b.contents = q ∧
      (op.Proper b → op.Fits b →
        ∃ b' : Buffer, op.apply b = b'.fields ∧ b'.Holds (op.onQueue q) ops)

/-! ### One operation -/

lemma ensureSize_of_fits {b : Buffer} {len : UInt64} (h : b.writeIndex + len.toNat < 2 ^ 64) :
    b.ensureSize len = (b.ensureWritableBytes len.toNat).fields := by
  have hprepend := b.prepend_le
  have horder := b.read_le_write
  have hcheap : kCheapPrepend = 8 := rfl
  rw [ensureSize, ensureWritableBytes, makeSpace, Nat.mod_eq_of_lt h, Nat.mod_eq_of_lt (by omega)]
  split_ifs <;> rfl

lemma fill_eq {b : Buffer} {data : List UInt8} (h : data.length ≤ b.writableBytes) :
    b.fill data h = b.append data := by
  have hsame : b.ensureWritableBytes data.length = b := if_neg (Nat.not_lt.2 h)
  simp only [fill, append, hsame]

lemma contents_readFd (b : Buffer) (data : Option (List UInt8)) :
    (b.readFd data).contents = b.contents ++ data.getD [] := by
  cases data with
  | none => exact (List.append_nil _).symm
  | some data =>
    simp only [readFd]
    split_ifs with hfits
    · rw [fill_eq, contents_append]
      rfl
    · rw [fill_eq, contents_append, contents_append, List.append_assoc, List.take_append_drop]
      rfl

/-- **The step lemma.**  An operation makes a buffer, and works on the queue. -/
lemma exists_apply {b : Buffer} {op : Op} (hfits : op.Fits b) :
    ∃ b' : Buffer, op.apply b = b'.fields ∧ b'.contents = op.onQueue b.contents := by
  cases op with
  | append data => exact ⟨_, rfl, contents_append b data⟩
  | retrieve len | retrieveAsString len => exact ⟨_, rfl, contents_retrieve b _⟩
  | retrieveAll => exact ⟨_, rfl, contents_retrieveAll b⟩
  | ensureWritableBytes len =>
    exact ⟨_, ensureSize_of_fits hfits, contents_ensureWritableBytes b _⟩
  | readFd data => exact ⟨_, rfl, contents_readFd b data⟩

/-- The run lemma. -/
lemma holds_contents (b : Buffer) (ops : List Op) : b.Holds b.contents ops := by
  induction ops generalizing b with
  | nil => rfl
  | cons op ops ih =>
    refine ⟨rfl, fun _ hfits => ?_⟩
    obtain ⟨b', happly, hcontents⟩ := exists_apply hfits
    exact ⟨b', happly, hcontents ▸ ih b'⟩

/-- **A buffer is a queue of bytes while the sizes fit.**  If the size of its vector does not wrap,
a new buffer meets the invariant and is empty, and through any sequence of operations, as long as
the size to which `ensureWritableBytes` may have to enlarge the vector does not wrap, the fields
meet the invariant and the readable bytes are the queue. -/
theorem holds_queue (initialSize : UInt64) (hsize : 8 + initialSize.toNat < 2 ^ 64)
    (ops : List Op) : ∃ b : Buffer, ofSize initialSize = b.fields ∧ b.Holds [] ops := by
  refine ⟨new initialSize.toNat, ?_, contents_new _ ▸ holds_contents _ ops⟩
  rw [ofSize, kCheapPrepend, Nat.mod_eq_of_lt hsize]
  rfl

/-- A byte is appended to a buffer without room, and taken as a string. -/
theorem holds_queue_byte :
    ∃ b : Buffer, ofSize 0 = b.fields ∧ b.Holds [] [.append [1], .retrieveAsString 1] :=
  holds_queue 0 (by decide) _

/-- The vector of a new buffer with the greatest initial size has seven bytes, so its indices are
behind the end.  A buffer without room that holds one byte and is asked for `2 ^ 64 - 9` more makes
its vector empty. -/
theorem sizes_wrap :
    (ofSize 0xFFFFFFFFFFFFFFFF).buffer.length < (ofSize 0xFFFFFFFFFFFFFFFF).readIndex ∧
      (((new 0).append [1]).ensureSize 0xFFFFFFFFFFFFFFF7).buffer.length <
        (((new 0).append [1]).ensureSize 0xFFFFFFFFFFFFFFF7).writeIndex := by
  decide +kernel

end Buffer

end MuduoChat
