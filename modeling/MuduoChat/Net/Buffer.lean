import Mathlib

/-!
# The buffer

A vector of bytes with a read index and a write index.  The bytes between the two are what the
buffer contains.  Bytes are appended at the write index, after the vector has been compacted or
enlarged if there is no room, and retrieved at the read index.  The abstract view is a queue of
bytes (`Buffer.contents`), and each operation is described by what it does to that queue.
-/

namespace MuduoChat

/-! ### Memory -/

/-- Copy bytes into a memory, from a position on. -/
def overwrite (mem : List UInt8) (pos : ℕ) (data : List UInt8) : List UInt8 :=
  mem.take pos ++ data ++ mem.drop (pos + data.length)

/-- Change the size of a vector.  New bytes are zero. -/
def resize (mem : List UInt8) (size : ℕ) : List UInt8 :=
  mem.take size ++ List.replicate (size - mem.length) 0

section Memory

variable {mem data : List UInt8} {pos first size : ℕ}

lemma length_overwrite (h : pos + data.length ≤ mem.length) :
    (overwrite mem pos data).length = mem.length := by
  simp only [overwrite, List.length_append, List.length_take, List.length_drop]
  omega

@[simp] lemma length_resize (mem : List UInt8) (size : ℕ) : (resize mem size).length = size := by
  simp only [resize, List.length_append, List.length_take, List.length_replicate]
  omega

lemma take_drop_overwrite (h : pos + data.length ≤ mem.length) :
    ((overwrite mem pos data).drop pos).take data.length = data := by
  have hpos : (mem.take pos).length = pos := by
    rw [List.length_take]
    omega
  rw [overwrite, List.append_assoc, List.drop_append_of_le_length hpos.ge,
    List.drop_of_length_le hpos.le, List.nil_append, List.take_left]

lemma take_overwrite (h : pos ≤ mem.length) : (overwrite mem pos data).take pos = mem.take pos := by
  have hpos : (mem.take pos).length = pos := by
    rw [List.length_take]
    omega
  rw [overwrite, List.append_assoc, List.take_append_of_le_length hpos.ge,
    List.take_of_length_le hpos.le]

lemma take_resize (h : mem.length ≤ size) : (resize mem size).take mem.length = mem := by
  rw [resize, List.take_of_length_le h, List.take_left]

end Memory

/-- A buffer.  The part before the read index is at least the cheap prepend, and the indices do
not leave the vector. -/
structure Buffer where
  buffer : List UInt8
  readIndex : ℕ
  writeIndex : ℕ
  prepend_le : 8 ≤ readIndex
  read_le_write : readIndex ≤ writeIndex
  write_le_size : writeIndex ≤ buffer.length
  deriving DecidableEq

namespace Buffer

def kCheapPrepend : ℕ := 8

def kInitialSize : ℕ := 1024

def new (initialSize : ℕ := kInitialSize) : Buffer where
  buffer := List.replicate (kCheapPrepend + initialSize) 0
  readIndex := kCheapPrepend
  writeIndex := kCheapPrepend
  prepend_le := le_rfl
  read_le_write := le_rfl
  write_le_size := by simp

instance : Inhabited Buffer := ⟨new⟩

def readableBytes (b : Buffer) : ℕ := b.writeIndex - b.readIndex

def writableBytes (b : Buffer) : ℕ := b.buffer.length - b.writeIndex

def prependableBytes (b : Buffer) : ℕ := b.readIndex

/-- The bytes from the read index on, up to the write index. -/
def contents (b : Buffer) : List UInt8 := (b.buffer.drop b.readIndex).take b.readableBytes

def retrieveAll (b : Buffer) : Buffer where
  buffer := b.buffer
  readIndex := kCheapPrepend
  writeIndex := kCheapPrepend
  prepend_le := le_rfl
  read_le_write := le_rfl
  write_le_size := b.prepend_le.trans (b.read_le_write.trans b.write_le_size)

/-- Remove bytes from the front. -/
def retrieve (b : Buffer) (len : ℕ) : Buffer :=
  if h : len < b.readableBytes then
    { b with
      readIndex := b.readIndex + len
      prepend_le := b.prepend_le.trans (Nat.le_add_right _ _)
      read_le_write := by
        unfold readableBytes at h
        omega }
  else
    b.retrieveAll

lemma readableBytes_eq (b : Buffer) : b.readableBytes = b.contents.length := by
  have := b.read_le_write
  have := b.write_le_size
  simp only [contents, readableBytes, List.length_take, List.length_drop]
  omega

lemma contents_fit (b : Buffer) : kCheapPrepend + b.contents.length ≤ b.buffer.length := by
  have hprepend := b.prepend_le
  have horder := b.read_le_write
  have hsize := b.write_le_size
  rw [← readableBytes_eq]
  simp only [kCheapPrepend, readableBytes]
  omega

/-- Make room for more bytes: enlarge the vector, or move the contents to its front. -/
def makeSpace (b : Buffer) (len : ℕ) : Buffer :=
  if b.writableBytes + b.prependableBytes < len + kCheapPrepend then
    { b with
      buffer := resize b.buffer (b.writeIndex + len)
      write_le_size := by simp }
  else
    { buffer := overwrite b.buffer kCheapPrepend b.contents
      readIndex := kCheapPrepend
      writeIndex := kCheapPrepend + b.readableBytes
      prepend_le := le_rfl
      read_le_write := Nat.le_add_right _ _
      write_le_size := by
        rw [length_overwrite b.contents_fit, readableBytes_eq]
        exact b.contents_fit }

def ensureWritableBytes (b : Buffer) (len : ℕ) : Buffer :=
  if b.writableBytes < len then b.makeSpace len else b

section Space

variable {b : Buffer} {len : ℕ}

lemma contents_eq (b : Buffer) : b.contents = (b.buffer.take b.writeIndex).drop b.readIndex := by
  rw [contents, readableBytes, List.drop_take]

lemma contents_makeSpace (b : Buffer) (len : ℕ) : (b.makeSpace len).contents = b.contents := by
  have hprepend := b.prepend_le
  have horder := b.read_le_write
  have hsize := b.write_le_size
  unfold makeSpace
  split
  · rename_i hroom
    rw [contents_eq, contents_eq]
    simp only [prependableBytes, writableBytes, kCheapPrepend] at hroom
    -- the vector grows, and what is before the write index stays
    have hgrow : b.buffer.length ≤ b.writeIndex + len := by omega
    have htake : (resize b.buffer (b.writeIndex + len)).take b.writeIndex =
        b.buffer.take b.writeIndex := by
      have hsame := congrArg (List.take b.writeIndex) (take_resize hgrow)
      rwa [List.take_take, min_eq_left hsize] at hsame
    rw [htake]
  · show ((overwrite b.buffer kCheapPrepend b.contents).drop kCheapPrepend).take
      (kCheapPrepend + b.readableBytes - kCheapPrepend) = b.contents
    rw [Nat.add_sub_cancel_left, readableBytes_eq, take_drop_overwrite b.contents_fit]

lemma writable_makeSpace (b : Buffer) (len : ℕ) : len ≤ (b.makeSpace len).writableBytes := by
  have hprepend := b.prepend_le
  have horder := b.read_le_write
  have hsize := b.write_le_size
  unfold makeSpace
  split
  · simp [writableBytes]
  · rename_i hroom
    simp only [prependableBytes, writableBytes] at hroom ⊢
    rw [length_overwrite b.contents_fit, readableBytes]
    simp only [kCheapPrepend] at hroom ⊢
    omega

@[simp] lemma contents_ensureWritableBytes (b : Buffer) (len : ℕ) :
    (b.ensureWritableBytes len).contents = b.contents := by
  unfold ensureWritableBytes
  split
  · exact contents_makeSpace b len
  · rfl

lemma writable_ensureWritableBytes (b : Buffer) (len : ℕ) :
    len ≤ (b.ensureWritableBytes len).writableBytes := by
  unfold ensureWritableBytes
  split
  · exact writable_makeSpace b len
  · omega

end Space

def append (b : Buffer) (data : List UInt8) : Buffer where
  buffer := overwrite (b.ensureWritableBytes data.length).buffer
    (b.ensureWritableBytes data.length).writeIndex data
  readIndex := (b.ensureWritableBytes data.length).readIndex
  writeIndex := (b.ensureWritableBytes data.length).writeIndex + data.length
  prepend_le := (b.ensureWritableBytes data.length).prepend_le
  read_le_write := (b.ensureWritableBytes data.length).read_le_write.trans (Nat.le_add_right _ _)
  write_le_size := by
    have hroom := writable_ensureWritableBytes b data.length
    have hsize := (b.ensureWritableBytes data.length).write_le_size
    simp only [writableBytes] at hroom
    rw [length_overwrite (by omega)]
    omega

/-! ### The queue of bytes -/

@[simp] lemma contents_new (initialSize : ℕ) : (new initialSize).contents = [] := by
  simp [new, contents, readableBytes]

@[simp] lemma contents_retrieveAll (b : Buffer) : b.retrieveAll.contents = [] := by
  simp [retrieveAll, contents, readableBytes]

@[simp] lemma contents_retrieve (b : Buffer) (len : ℕ) :
    (b.retrieve len).contents = b.contents.drop len := by
  unfold retrieve
  split
  · rename_i hlen
    show (b.buffer.drop (b.readIndex + len)).take (b.writeIndex - (b.readIndex + len)) = _
    rw [contents, readableBytes, List.drop_take, List.drop_drop, Nat.sub_sub]
  · rename_i hlen
    rw [contents_retrieveAll, List.drop_of_length_le]
    rw [← readableBytes_eq]
    omega

@[simp] lemma contents_append (b : Buffer) (data : List UInt8) :
    (b.append data).contents = b.contents ++ data := by
  rw [← contents_ensureWritableBytes b data.length]
  have hroom := writable_ensureWritableBytes b data.length
  generalize hb : b.ensureWritableBytes data.length = b' at hroom
  have horder := b'.read_le_write
  have hsize := b'.write_le_size
  simp only [writableBytes] at hroom
  have hfits : b'.writeIndex + data.length ≤ b'.buffer.length := by omega
  rw [contents_eq, contents_eq]
  have hbuffer : (b.append data).buffer = overwrite b'.buffer b'.writeIndex data := by
    rw [← hb]
    rfl
  have hread : (b.append data).readIndex = b'.readIndex := by
    rw [← hb]
    rfl
  have hwrite : (b.append data).writeIndex = b'.writeIndex + data.length := by
    rw [← hb]
    rfl
  rw [hbuffer, hread, hwrite, List.take_add, take_overwrite hsize, take_drop_overwrite hfits]
  refine List.drop_append_of_le_length ?_
  rw [List.length_take]
  omega

@[simp] lemma readableBytes_append (b : Buffer) (data : List UInt8) :
    (b.append data).readableBytes = b.readableBytes + data.length := by
  rw [readableBytes_eq, contents_append, List.length_append, readableBytes_eq]

@[simp] lemma readableBytes_retrieve (b : Buffer) (len : ℕ) :
    (b.retrieve len).readableBytes = b.readableBytes - len := by
  rw [readableBytes_eq, contents_retrieve, List.length_drop, readableBytes_eq]

@[simp] lemma readableBytes_new (initialSize : ℕ) : (new initialSize).readableBytes = 0 := by
  rw [readableBytes_eq, contents_new, List.length_nil]

end Buffer

end MuduoChat
