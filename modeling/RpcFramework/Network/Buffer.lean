import Mathlib.Data.List.Basic
import Mathlib.Data.List.TakeDrop
import Mathlib.Data.UInt

/-!
# The network buffer

`Buffer` is a byte vector with a reader and a writer index.  Its index bounds
are fields of the structure, so every operation re-establishes them where it is
defined.  `readable` is the region between the two indices; the lemmas of this
module say what each operation does to that region, which is all that the
codec and the connections rely on.
-/

namespace RpcFramework

abbrev Bytes := List UInt8

/-- `std::copy` into the storage: the bytes at `position` are replaced. -/
def overwrite (storage : Bytes) (position : Nat) (data : Bytes) : Bytes :=
  storage.take position ++ data ++ storage.drop (position + data.length)

theorem length_overwrite {storage data : Bytes} {position : Nat}
    (fits : position + data.length ≤ storage.length) :
    (overwrite storage position data).length = storage.length := by
  simp only [overwrite, List.length_append, List.length_take, List.length_drop]
  omega

/-- `std::vector::resize`: cut the storage, or extend it by zero bytes. -/
def resize (storage : Bytes) (size : Nat) : Bytes :=
  storage.take size ++ List.replicate (size - storage.length) 0

theorem length_resize (storage : Bytes) (size : Nat) : (resize storage size).length = size := by
  simp only [resize, List.length_append, List.length_take, List.length_replicate]
  omega

namespace Buffer

def kCheapPrepend : Nat := 8

def kInitialSize : Nat := 1024

end Buffer

/-- The buffer with the index bounds that its operations keep. -/
structure Buffer where
  buffer : Bytes
  readerIndex : Nat
  writerIndex : Nat
  prepend_le_reader : Buffer.kCheapPrepend ≤ readerIndex
  reader_le_writer : readerIndex ≤ writerIndex
  writer_le_size : writerIndex ≤ buffer.length
  deriving DecidableEq

namespace Buffer

/-- The constructor `Buffer()`. -/
def empty : Buffer where
  buffer := List.replicate (kCheapPrepend + kInitialSize) 0
  readerIndex := kCheapPrepend
  writerIndex := kCheapPrepend
  prepend_le_reader := Nat.le_refl _
  reader_le_writer := Nat.le_refl _
  writer_le_size := by simp

def readableBytes (b : Buffer) : Nat := b.writerIndex - b.readerIndex

def writableBytes (b : Buffer) : Nat := b.buffer.length - b.writerIndex

def prependableBytes (b : Buffer) : Nat := b.readerIndex

/-- The memory from the reader index on; only the first `readableBytes` of it
are readable data. -/
def peek (b : Buffer) : Bytes := b.buffer.drop b.readerIndex

theorem readableBytes_le_peek (b : Buffer) : b.readableBytes ≤ b.peek.length := by
  have bound := b.writer_le_size
  rw [peek, List.length_drop, readableBytes]
  omega

/-- The readable region. -/
def readable (b : Buffer) : Bytes := b.peek.take b.readableBytes

@[simp]
theorem length_readable (b : Buffer) : b.readable.length = b.readableBytes := by
  have reader := b.reader_le_writer
  have writer := b.writer_le_size
  simp only [readable, peek, readableBytes, List.length_take, List.length_drop]
  omega

/-- The memory at `peek` starts with the readable region. -/
theorem peek_eq (b : Buffer) : b.peek = b.readable ++ b.buffer.drop b.writerIndex := by
  have reader := b.reader_le_writer
  have rest : b.buffer.drop b.writerIndex = b.peek.drop b.readableBytes := by
    rw [peek, List.drop_drop, readableBytes]
    congr 1
    omega
  rw [rest, readable, List.take_append_drop]

def retrieveAll (b : Buffer) : Buffer where
  buffer := b.buffer
  readerIndex := kCheapPrepend
  writerIndex := kCheapPrepend
  prepend_le_reader := Nat.le_refl _
  reader_le_writer := Nat.le_refl _
  writer_le_size :=
    b.prepend_le_reader.trans (b.reader_le_writer.trans b.writer_le_size)

def retrieve (b : Buffer) (len : Nat) : Buffer :=
  if short : len < b.readableBytes then
    { buffer := b.buffer
      readerIndex := b.readerIndex + len
      writerIndex := b.writerIndex
      prepend_le_reader := b.prepend_le_reader.trans (Nat.le_add_right _ _)
      reader_le_writer := by
        unfold readableBytes at short
        omega
      writer_le_size := b.writer_le_size }
  else
    b.retrieveAll

def retrieveAllAsString (b : Buffer) : Bytes × Buffer :=
  (b.peek.take b.readableBytes, b.retrieveAll)

def retrieveAsString (b : Buffer) (len : Nat) : Bytes × Buffer :=
  let len := if len > b.readableBytes then b.readableBytes else len
  (b.peek.take len, b.retrieve len)

/-- Grow the vector, or move the readable bytes back to the front. -/
def makeSpace (b : Buffer) (len : Nat) : Buffer :=
  if b.writableBytes + b.prependableBytes < len + kCheapPrepend then
    { buffer := resize b.buffer (b.writerIndex + len)
      readerIndex := b.readerIndex
      writerIndex := b.writerIndex
      prepend_le_reader := b.prepend_le_reader
      reader_le_writer := b.reader_le_writer
      writer_le_size := by rw [length_resize]; exact Nat.le_add_right _ _ }
  else
    { buffer := overwrite b.buffer kCheapPrepend (b.peek.take b.readableBytes)
      readerIndex := kCheapPrepend
      writerIndex := kCheapPrepend + b.readableBytes
      prepend_le_reader := Nat.le_refl _
      reader_le_writer := Nat.le_add_right _ _
      writer_le_size := by
        have region := b.length_readable
        simp only [readable] at region
        simp only [overwrite, List.length_append, List.length_take, region]
        have bounds := b.prepend_le_reader.trans (b.reader_le_writer.trans b.writer_le_size)
        omega }

def ensureWritableBytes (b : Buffer) (len : Nat) : Buffer :=
  if b.writableBytes < len then b.makeSpace len else b

/-- After `ensureWritableBytes` the requested number of bytes can be written. -/
theorem le_writableBytes_ensure (b : Buffer) (len : Nat) :
    len ≤ (b.ensureWritableBytes len).writableBytes := by
  unfold ensureWritableBytes
  split
  · unfold makeSpace
    split
    · simp [writableBytes, length_resize]
    · next full room =>
        have region : (b.peek.take b.readableBytes).length = b.writerIndex - b.readerIndex :=
          b.length_readable
        have reader := b.reader_le_writer
        have writer := b.writer_le_size
        have front := b.prepend_le_reader
        simp only [writableBytes, prependableBytes] at full room
        simp only [writableBytes]
        rw [length_overwrite (by rw [region]; omega), readableBytes]
        omega
  · next enough => exact Nat.le_of_not_lt enough

/-- Copy the data to the writer index and advance it. -/
def write (b : Buffer) (data : Bytes) (room : data.length ≤ b.writableBytes) : Buffer where
  buffer := overwrite b.buffer b.writerIndex data
  readerIndex := b.readerIndex
  writerIndex := b.writerIndex + data.length
  prepend_le_reader := b.prepend_le_reader
  reader_le_writer := b.reader_le_writer.trans (Nat.le_add_right _ _)
  writer_le_size := by
    have writer := b.writer_le_size
    unfold writableBytes at room
    rw [length_overwrite (by omega)]
    omega

def append (b : Buffer) (data : Bytes) : Buffer :=
  (b.ensureWritableBytes data.length).write data (b.le_writableBytes_ensure data.length)

/-! ## What the operations do to the readable region -/

@[simp]
theorem readable_empty : empty.readable = [] := rfl

@[simp]
theorem readable_retrieveAll (b : Buffer) : b.retrieveAll.readable = [] := by
  simp [readable, retrieveAll, readableBytes]

@[simp]
theorem readable_retrieve (b : Buffer) (len : Nat) :
    (b.retrieve len).readable = b.readable.drop len := by
  unfold retrieve
  split
  · next short =>
      simp only [readable, peek, readableBytes, List.drop_take, List.drop_drop]
      congr 1
      omega
  · next long =>
      rw [readable_retrieveAll, List.drop_eq_nil_of_le]
      rw [length_readable]
      exact Nat.le_of_not_lt long

@[simp]
theorem readableBytes_retrieveAll (b : Buffer) : b.retrieveAll.readableBytes = 0 := by
  rw [← length_readable, readable_retrieveAll, List.length_nil]

@[simp]
theorem readableBytes_retrieve (b : Buffer) (len : Nat) :
    (b.retrieve len).readableBytes = b.readableBytes - len := by
  rw [← length_readable, readable_retrieve, List.length_drop, length_readable]

theorem readable_makeSpace (b : Buffer) (len : Nat) (short : b.writableBytes < len) :
    (b.makeSpace len).readable = b.readable := by
  have reader := b.reader_le_writer
  have writer := b.writer_le_size
  have region := b.length_readable
  unfold makeSpace
  split
  · unfold writableBytes at short
    simp only [readable, peek, readableBytes, resize]
    rw [List.take_of_length_le (by omega : b.buffer.length ≤ b.writerIndex + len),
      List.drop_append_of_le_length (by omega), List.take_append_of_le_length]
    simp only [List.length_drop]
    omega
  · simp only [readable] at region
    have front := b.prepend_le_reader
    simp only [readable, peek, readableBytes, overwrite, Nat.add_sub_cancel_left] at region ⊢
    rw [List.append_assoc, List.drop_append_of_le_length (by simp; omega),
      List.drop_of_length_le (by simp), List.nil_append, List.take_append_of_le_length
        (by rw [region]), List.take_take, Nat.min_self]

@[simp]
theorem readable_ensureWritableBytes (b : Buffer) (len : Nat) :
    (b.ensureWritableBytes len).readable = b.readable := by
  unfold ensureWritableBytes
  split
  · next short => exact b.readable_makeSpace len short
  · rfl

theorem readable_write (b : Buffer) (data : Bytes) (room : data.length ≤ b.writableBytes) :
    (b.write data room).readable = b.readable ++ data := by
  have reader := b.reader_le_writer
  have writer := b.writer_le_size
  have region : (b.buffer.take b.writerIndex).drop b.readerIndex = b.readable := by
    rw [List.drop_take, readable, peek, readableBytes]
  have size : b.writerIndex + data.length - b.readerIndex =
      b.readable.length + data.length := by
    rw [length_readable, readableBytes]
    omega
  rw [readable, peek, readableBytes]
  simp only [write, overwrite]
  rw [List.append_assoc, List.drop_append_of_le_length (by simp; omega), region, size,
    List.take_length_add_append, List.take_left' rfl]

/-- Appended data arrives at the end of the readable region. -/
@[simp]
theorem readable_append (b : Buffer) (data : Bytes) :
    (b.append data).readable = b.readable ++ data := by
  rw [append, readable_write, readable_ensureWritableBytes]

theorem readable_empty_append (data : Bytes) : (empty.append data).readable = data := by
  rw [readable_append, readable_empty, List.nil_append]

end Buffer

end RpcFramework
