import RpcFramework.Lib.StepRun
import RpcFramework.Network.Buffer

/-!
# The buffer as a byte queue

The operations of `Buffer` with the arithmetic of `size_t`, on storage that no
index bound protects, against a queue of bytes that is driven by the same
operations.  `Buffer` stands between the two: while no sum wraps, an operation on
the machine does what the operation of `Buffer` does, which keeps the index bounds
by construction and changes the readable region as the queue.

A sum can wrap in one place only: `makeSpace` adds the requested length to
`kCheapPrepend` and to the writer index.
-/

namespace RpcFramework

open StepRun

/-- A result of `size_t` arithmetic. -/
def sizeT (n : Nat) : Nat := n % 2 ^ 64

/-- A difference in `size_t`. -/
def sizeTSub (a b : Nat) : Nat := (a + 2 ^ 64 - b) % 2 ^ 64

/-- `max_size()` of a vector of `char`; no array has more bytes. -/
def maxSize : Nat := 2 ^ 63 - 1

/-- The members of `Buffer`. -/
structure RawBuffer where
  buffer : Bytes
  readerIndex : Nat
  writerIndex : Nat
  deriving DecidableEq

/-- The stack buffer of `readFd`. -/
def extrabufSize : Nat := 65536

namespace RawBuffer

open Buffer (kCheapPrepend kInitialSize)

def initial : RawBuffer :=
  ⟨List.replicate (kCheapPrepend + kInitialSize) 0, kCheapPrepend, kCheapPrepend⟩

def readableBytes (b : RawBuffer) : Nat := sizeTSub b.writerIndex b.readerIndex

def writableBytes (b : RawBuffer) : Nat := sizeTSub b.buffer.length b.writerIndex

def prependableBytes (b : RawBuffer) : Nat := b.readerIndex

def peek (b : RawBuffer) : Bytes := b.buffer.drop b.readerIndex

/-- The readable region. -/
def readable (b : RawBuffer) : Bytes := b.peek.take b.readableBytes

def retrieveAll (b : RawBuffer) : RawBuffer :=
  { b with readerIndex := kCheapPrepend, writerIndex := kCheapPrepend }

def retrieve (b : RawBuffer) (len : Nat) : RawBuffer :=
  if len < b.readableBytes then { b with readerIndex := sizeT (b.readerIndex + len) }
  else b.retrieveAll

def retrieveAllAsString (b : RawBuffer) : Bytes × RawBuffer :=
  (b.peek.take b.readableBytes, b.retrieveAll)

def retrieveAsString (b : RawBuffer) (len : Nat) : Bytes × RawBuffer :=
  let len := if len > b.readableBytes then b.readableBytes else len
  (b.peek.take len, b.retrieve len)

/-- `none` is an exception of `vector::resize`, which leaves the buffer as it was. -/
def makeSpace (b : RawBuffer) (len : Nat) : Option RawBuffer :=
  if sizeT (b.writableBytes + b.prependableBytes) < sizeT (len + kCheapPrepend) then
    let size := sizeT (b.writerIndex + len)
    if size ≤ maxSize then some { b with buffer := resize b.buffer size } else none
  else
    let readable := b.readableBytes
    some
      { buffer := overwrite b.buffer kCheapPrepend (b.peek.take readable)
        readerIndex := kCheapPrepend
        writerIndex := sizeT (kCheapPrepend + readable) }

def ensureWritableBytes (b : RawBuffer) (len : Nat) : Option RawBuffer :=
  if b.writableBytes < len then b.makeSpace len else some b

def append (b : RawBuffer) (data : Bytes) : Option RawBuffer :=
  (b.ensureWritableBytes data.length).map fun b =>
    { b with
      buffer := overwrite b.buffer b.writerIndex data
      writerIndex := sizeT (b.writerIndex + data.length) }

/-- What the vectors of `readv` can hold. -/
def readCapacity (b : RawBuffer) : Nat :=
  if b.writableBytes < extrabufSize then b.writableBytes + extrabufSize else b.writableBytes

theorem readCapacity_le (b : RawBuffer) : b.readCapacity ≤ b.writableBytes + extrabufSize := by
  unfold readCapacity
  split
  · exact Nat.le_refl _
  · exact Nat.le_add_right _ _

/-- `readFd` when `readv` delivers the chunk; `none` also if it cannot deliver that much. -/
def readFd (b : RawBuffer) (chunk : Bytes) : Option RawBuffer :=
  if chunk.length ≤ b.readCapacity then
    let writable := b.writableBytes
    -- `readv` fills the writable region first
    let filled := { b with buffer := overwrite b.buffer b.writerIndex (chunk.take writable) }
    if chunk.length ≤ writable then
      some { filled with writerIndex := sizeT (filled.writerIndex + chunk.length) }
    else
      { filled with writerIndex := filled.buffer.length }.append (chunk.drop writable)
  else none

end RawBuffer

/-- The operations, with the lengths that the caller passes. -/
inductive BufferOp where
  | append (data : Bytes)
  | retrieve (len : UInt64)
  | retrieveAll
  | retrieveAsString (len : UInt64)
  | retrieveAllAsString
  | ensureWritableBytes (len : UInt64)
  | readFd (chunk : Bytes)

/-- The buffer after an operation that returns, and the string that it returns. -/
def RawBuffer.apply (b : RawBuffer) : BufferOp → Option (RawBuffer × Bytes)
  | .append data =>
      if data.length ≤ maxSize then (b.append data).map fun b => (b, []) else none
  | .retrieve len => some (b.retrieve len.toNat, [])
  | .retrieveAll => some (b.retrieveAll, [])
  | .retrieveAsString len =>
      let result := b.retrieveAsString len.toNat
      some (result.2, result.1)
  | .retrieveAllAsString =>
      let result := b.retrieveAllAsString
      some (result.2, result.1)
  | .ensureWritableBytes len => (b.ensureWritableBytes len.toNat).map fun b => (b, [])
  | .readFd chunk => (b.readFd chunk).map fun b => (b, [])

/-- The queue of bytes under the same operations: what it holds afterwards, and
the bytes that are handed out. -/
def queueApply (queue : Bytes) : BufferOp → Bytes × Bytes
  | .append data => (queue ++ data, [])
  | .retrieve len => (queue.drop len.toNat, [])
  | .retrieveAll => ([], [])
  | .retrieveAsString len => (queue.drop len.toNat, queue.take len.toNat)
  | .retrieveAllAsString => ([], queue)
  | .ensureWritableBytes _ => (queue, [])
  | .readFd chunk => (queue ++ chunk, [])

/-- A buffer and a queue that are driven by the same operations. -/
structure DrivenBuffer where
  buffer : RawBuffer
  queue : Bytes

namespace DrivenBuffer

open Buffer (kCheapPrepend)

def initial : DrivenBuffer := ⟨.initial, []⟩

def step (s : DrivenBuffer) (op : BufferOp) : Option DrivenBuffer :=
  (s.buffer.apply op).map fun result => ⟨result.1, (queueApply s.queue op).1⟩

/-- The index bounds. -/
structure InBounds (b : RawBuffer) : Prop where
  prepend_le_reader : kCheapPrepend ≤ b.readerIndex
  reader_le_writer : b.readerIndex ≤ b.writerIndex
  writer_le_size : b.writerIndex ≤ b.buffer.length

/-- The operation, if it returns, keeps the index bounds, leaves the queue's bytes
readable, returns the bytes that the queue hands out, and makes the requested room. -/
def Refines (s : DrivenBuffer) (op : BufferOp) : Prop :=
  ∀ b returned, s.buffer.apply op = some (b, returned) →
    InBounds b ∧ b.readable = (queueApply s.queue op).1 ∧
      returned = (queueApply s.queue op).2 ∧
      ∀ len, op = .ensureWritableBytes len → len.toNat ≤ b.writableBytes

/-- The requested length can be added to the writer index. -/
def SumFits (s : DrivenBuffer) : BufferOp → Prop
  | .ensureWritableBytes len => s.buffer.writerIndex + len.toNat < 2 ^ 64
  | _ => True

end DrivenBuffer

/-! ## The machine does what `Buffer` does -/

namespace Buffer

/-- The members without their bounds. -/
def raw (b : Buffer) : RawBuffer := ⟨b.buffer, b.readerIndex, b.writerIndex⟩

section Simulation

variable {b : Buffer} (small : b.buffer.length ≤ maxSize)

include small

theorem raw_readableBytes : b.raw.readableBytes = b.readableBytes := by
  have reader := b.reader_le_writer
  have writer := b.writer_le_size
  unfold maxSize at small
  simp only [RawBuffer.readableBytes, sizeTSub, raw, readableBytes]
  omega

theorem raw_writableBytes : b.raw.writableBytes = b.writableBytes := by
  have writer := b.writer_le_size
  unfold maxSize at small
  simp only [RawBuffer.writableBytes, sizeTSub, raw, writableBytes]
  omega

theorem raw_readable : b.raw.readable = b.readable := by
  rw [RawBuffer.readable, raw_readableBytes small]
  rfl

theorem raw_retrieve (len : Nat) : b.raw.retrieve len = (b.retrieve len).raw := by
  have reader := b.reader_le_writer
  have writer := b.writer_le_size
  unfold maxSize at small
  unfold RawBuffer.retrieve retrieve
  rw [raw_readableBytes small]
  split
  · next short =>
      unfold readableBytes at short
      have index : sizeT (b.readerIndex + len) = b.readerIndex + len :=
        Nat.mod_eq_of_lt (by omega)
      simp only [raw, index]
  · rfl

/-- The free bytes that `makeSpace` compares with the request. -/
theorem raw_free : sizeT (b.raw.writableBytes + b.raw.prependableBytes) =
    b.writableBytes + b.prependableBytes := by
  have reader := b.reader_le_writer
  have writer := b.writer_le_size
  rw [raw_writableBytes small]
  apply Nat.mod_eq_of_lt
  change b.buffer.length - b.writerIndex + b.readerIndex < 2 ^ 64
  unfold maxSize at small
  omega

/-- While the sum fits, `ensureWritableBytes` either throws or makes room as `Buffer` does. -/
theorem raw_ensureWritableBytes {len : Nat} (fits : b.writerIndex + len < 2 ^ 64) :
    b.raw.ensureWritableBytes len =
      if (b.ensureWritableBytes len).buffer.length ≤ maxSize then
        some (b.ensureWritableBytes len).raw
      else none := by
  have prepend := b.prepend_le_reader
  have reader := b.reader_le_writer
  have writer := b.writer_le_size
  have bound := small
  unfold maxSize at bound
  unfold RawBuffer.ensureWritableBytes ensureWritableBytes
  rw [raw_writableBytes small]
  split
  · have second : sizeT (len + kCheapPrepend) = len + kCheapPrepend := by
      apply Nat.mod_eq_of_lt
      omega
    have grown : sizeT (b.raw.writerIndex + len) = b.writerIndex + len := Nat.mod_eq_of_lt fits
    unfold RawBuffer.makeSpace makeSpace
    rw [raw_free small, second, grown, raw_readableBytes small]
    split
    · simp only [length_resize]
      rfl
    · have region : (b.peek.take b.readableBytes).length = b.readableBytes := b.length_readable
      have moved : sizeT (kCheapPrepend + b.readableBytes) = kCheapPrepend + b.readableBytes := by
        apply Nat.mod_eq_of_lt
        unfold readableBytes
        omega
      have size : (overwrite b.buffer kCheapPrepend (b.peek.take b.readableBytes)).length =
          b.buffer.length := by
        apply length_overwrite
        rw [region, readableBytes]
        omega
      dsimp only
      rw [moved, size, if_pos small]
      rfl
  · rfl

/-- What `append` and `readFd` store: the data behind the writer index. -/
theorem raw_write {data : Bytes} (room : data.length ≤ b.writableBytes) :
    (b.write data room).raw =
      { b.raw with
        buffer := overwrite b.buffer b.writerIndex data
        writerIndex := sizeT (b.writerIndex + data.length) } := by
  have writer := b.writer_le_size
  have index : sizeT (b.writerIndex + data.length) = b.writerIndex + data.length := by
    apply Nat.mod_eq_of_lt
    unfold writableBytes at room
    unfold maxSize at small
    omega
  rw [index]
  rfl

theorem length_write {data : Bytes} (room : data.length ≤ b.writableBytes) :
    (b.write data room).buffer.length ≤ maxSize := by
  have writer := b.writer_le_size
  have same : (b.write data room).buffer.length = b.buffer.length := by
    apply length_overwrite
    unfold writableBytes at room
    omega
  rw [same]
  exact small

theorem raw_append {data : Bytes} (fits : data.length ≤ maxSize) {after : RawBuffer}
    (appended : b.raw.append data = some after) :
    after = (b.append data).raw ∧ (b.append data).buffer.length ≤ maxSize := by
  have writer := b.writer_le_size
  have sum : b.writerIndex + data.length < 2 ^ 64 := by
    unfold maxSize at small fits
    omega
  unfold RawBuffer.append at appended
  rw [raw_ensureWritableBytes small sum] at appended
  split at appended
  · next still =>
      cases appended
      exact ⟨(raw_write still _).symm, length_write still _⟩
  · cases appended

theorem raw_readFd {chunk : Bytes} {after : RawBuffer}
    (read : b.raw.readFd chunk = some after) :
    ∃ next : Buffer, after = next.raw ∧ next.buffer.length ≤ maxSize ∧
      next.readable = b.readable ++ chunk := by
  obtain ⟨held, read⟩ := Option.ite_none_right_eq_some.mp read
  rw [raw_writableBytes small] at read
  dsimp only at read
  split at read
  · next whole =>
      cases read
      refine ⟨b.write chunk whole, ?_, length_write small whole, b.readable_write chunk whole⟩
      rw [raw_write small, List.take_of_length_le whole]
      rfl
  · next spill =>
      have room : (chunk.take b.writableBytes).length ≤ b.writableBytes := by
        rw [List.length_take]
        exact Nat.min_le_left _ _
      have taken : (chunk.take b.writableBytes).length = b.writableBytes :=
        List.length_take_of_le (Nat.le_of_not_le spill)
      have writer := b.writer_le_size
      have full : b.writerIndex + b.writableBytes = b.buffer.length := by
        unfold writableBytes
        omega
      have size : sizeT b.buffer.length = b.buffer.length := by
        apply Nat.mod_eq_of_lt
        unfold maxSize at small
        omega
      have stored : (b.write (chunk.take b.writableBytes) room).raw =
          ⟨overwrite b.buffer b.writerIndex (chunk.take b.writableBytes), b.readerIndex,
            (overwrite b.buffer b.writerIndex (chunk.take b.writableBytes)).length⟩ := by
        rw [raw_write small, length_overwrite (by rw [taken, full]), taken, full, size]
        rfl
      have rest : (chunk.drop b.writableBytes).length ≤ maxSize := by
        have extra := Nat.le_trans held (b.raw.readCapacity_le)
        rw [raw_writableBytes small] at extra
        rw [List.length_drop]
        unfold extrabufSize at extra
        unfold maxSize
        omega
      have appended : (b.write (chunk.take b.writableBytes) room).raw.append
          (chunk.drop b.writableBytes) = some after := by
        rw [stored]
        exact read
      obtain ⟨same, still⟩ := raw_append (length_write small room) rest appended
      refine ⟨_, same, still, ?_⟩
      rw [readable_append, readable_write, List.append_assoc, List.take_append_drop]

end Simulation

end Buffer

namespace DrivenBuffer

open Buffer (kCheapPrepend)

/-- The machine is in the state of a `Buffer` that holds the queue. -/
def Simulates (s : DrivenBuffer) : Prop :=
  ∃ b : Buffer, s.buffer = b.raw ∧ b.buffer.length ≤ maxSize ∧ b.readable = s.queue

theorem simulates_initial : initial.Simulates := by
  refine ⟨.empty, rfl, ?_, Buffer.readable_empty⟩
  rw [Buffer.empty, List.length_replicate]
  decide

theorem inBounds_raw (b : Buffer) : InBounds b.raw :=
  ⟨b.prepend_le_reader, b.reader_le_writer, b.writer_le_size⟩

/-- The machine after an operation, as long as the sum fits. -/
theorem Simulates.apply {s : DrivenBuffer} {op : BufferOp} (simulates : s.Simulates)
    (fits : s.SumFits op) {after : RawBuffer} {returned : Bytes}
    (applied : s.buffer.apply op = some (after, returned)) :
    ∃ b : Buffer, after = b.raw ∧ b.buffer.length ≤ maxSize ∧
      b.readable = (queueApply s.queue op).1 ∧ returned = (queueApply s.queue op).2 ∧
      ∀ len, op = .ensureWritableBytes len → len.toNat ≤ b.writableBytes := by
  obtain ⟨b, same, small, holds⟩ := simulates
  rw [same] at applied
  have kept : ∀ len, (b.retrieve len).buffer.length ≤ maxSize := by
    intro len
    unfold Buffer.retrieve
    split
    · exact small
    · exact small
  cases op with
  | append data =>
      obtain ⟨short, appended⟩ := Option.ite_none_right_eq_some.mp applied
      obtain ⟨next, stored, moved⟩ := Option.map_eq_some_iff.mp appended
      cases moved
      obtain ⟨rfl, still⟩ := Buffer.raw_append small short stored
      refine ⟨_, rfl, still, ?_, rfl, fun _ => BufferOp.noConfusion⟩
      rw [Buffer.readable_append, holds, queueApply]
  | retrieve len =>
      cases applied
      refine ⟨_, Buffer.raw_retrieve small _, kept _, ?_, rfl, fun _ => BufferOp.noConfusion⟩
      rw [Buffer.readable_retrieve, holds, queueApply]
  | retrieveAll =>
      cases applied
      exact ⟨b.retrieveAll, rfl, small, b.readable_retrieveAll, rfl, fun _ => BufferOp.noConfusion⟩
  | retrieveAsString len =>
      cases applied
      have region : b.raw.readableBytes = s.queue.length := by
        rw [Buffer.raw_readableBytes small, ← holds, Buffer.length_readable]
      -- the clamped length takes and drops the same bytes of the queue
      have clamped : (if len.toNat > s.queue.length then s.queue.length else len.toNat) =
          min len.toNat s.queue.length := by
        split
        · omega
        · omega
      refine ⟨_, Buffer.raw_retrieve small _, kept _, ?_, ?_, fun _ => BufferOp.noConfusion⟩
      · rw [Buffer.readable_retrieve, holds, region, clamped, queueApply]
        dsimp only
        rw [← List.drop_eq_drop_min]
      · rw [RawBuffer.retrieveAsString, region, clamped, queueApply]
        dsimp only
        have front : b.raw.peek = s.queue ++ b.buffer.drop b.writerIndex := by
          rw [← holds]
          exact b.peek_eq
        rw [front, List.take_append_of_le_length (Nat.min_le_right _ _), ← List.take_eq_take_min]
  | retrieveAllAsString =>
      cases applied
      refine ⟨b.retrieveAll, rfl, small, b.readable_retrieveAll, ?_, fun _ => BufferOp.noConfusion⟩
      rw [queueApply, ← holds, ← Buffer.raw_readable small]
      rfl
  | ensureWritableBytes len =>
      obtain ⟨next, ensured, moved⟩ := Option.map_eq_some_iff.mp applied
      cases moved
      have sum : b.writerIndex + len.toNat < 2 ^ 64 := by
        have fits : s.buffer.writerIndex + len.toNat < 2 ^ 64 := fits
        rw [same] at fits
        exact fits
      rw [Buffer.raw_ensureWritableBytes small sum] at ensured
      obtain ⟨still, moved⟩ := Option.ite_none_right_eq_some.mp ensured
      cases moved
      refine ⟨_, rfl, still, ?_, rfl, ?_⟩
      · rw [Buffer.readable_ensureWritableBytes, holds, queueApply]
      · rintro other ⟨⟩
        exact b.le_writableBytes_ensure len.toNat
  | readFd chunk =>
      obtain ⟨next, read, moved⟩ := Option.map_eq_some_iff.mp applied
      cases moved
      obtain ⟨after, rfl, still, appended⟩ := Buffer.raw_readFd small read
      refine ⟨after, rfl, still, ?_, rfl, fun _ => BufferOp.noConfusion⟩
      rw [appended, holds, queueApply]

theorem Simulates.step {s next : DrivenBuffer} {op : BufferOp} (simulates : s.Simulates)
    (fits : s.SumFits op) (taken : s.step op = some next) : next.Simulates := by
  obtain ⟨⟨after, returned⟩, applied, rfl⟩ := Option.map_eq_some_iff.mp taken
  obtain ⟨b, rfl, small, readable, _⟩ := simulates.apply fits applied
  exact ⟨b, rfl, small, readable⟩

theorem Simulates.refines {s : DrivenBuffer} {op : BufferOp} (simulates : s.Simulates)
    (fits : s.SumFits op) : s.Refines op := by
  intro after returned applied
  obtain ⟨b, rfl, small, readable, strings, room⟩ := simulates.apply fits applied
  refine ⟨inBounds_raw b, ?_, strings, ?_⟩
  · rw [Buffer.raw_readable small, readable]
  · intro len requested
    rw [Buffer.raw_writableBytes small]
    exact room len requested

/-- If the sum wraps, `ensureWritableBytes` returns without room, or with the
writer index outside the storage. -/
theorem Simulates.not_refines {s : DrivenBuffer} {len : UInt64} (simulates : s.Simulates)
    (wraps : 2 ^ 64 ≤ s.buffer.writerIndex + len.toNat) :
    ¬ s.Refines (.ensureWritableBytes len) := by
  obtain ⟨b, same, small, _⟩ := simulates
  have prepend : kCheapPrepend ≤ b.readerIndex := b.prepend_le_reader
  have reader := b.reader_le_writer
  have writer := b.writer_le_size
  have bound := small
  have representable := len.toNat_lt
  unfold maxSize at bound
  unfold kCheapPrepend at prepend
  rw [same] at wraps
  change 2 ^ 64 ≤ b.writerIndex + len.toNat at wraps
  have free : sizeT (b.raw.writableBytes + b.raw.prependableBytes) =
      b.buffer.length - b.writerIndex + b.readerIndex := Buffer.raw_free small
  have short : b.raw.writableBytes < len.toNat := by
    rw [Buffer.raw_writableBytes small, Buffer.writableBytes]
    omega
  intro refines
  by_cases request : len.toNat + kCheapPrepend < 2 ^ 64
  · -- the storage is resized to less than the writer index
    have grown : sizeT (b.raw.writerIndex + len.toNat) = b.writerIndex + len.toNat - 2 ^ 64 := by
      change (b.writerIndex + len.toNat) % 2 ^ 64 = _
      omega
    have applied : s.buffer.apply (.ensureWritableBytes len) =
        some ({ b.raw with buffer := resize b.buffer (b.writerIndex + len.toNat - 2 ^ 64) },
          []) := by
      have asked : sizeT (len.toNat + kCheapPrepend) = len.toNat + kCheapPrepend :=
        Nat.mod_eq_of_lt request
      unfold kCheapPrepend at request
      rw [same, RawBuffer.apply, RawBuffer.ensureWritableBytes, if_pos short,
        RawBuffer.makeSpace, free, asked, kCheapPrepend, if_pos (by omega), grown]
      dsimp only
      rw [if_pos (by unfold maxSize; omega)]
      rfl
    have outside := (refines _ _ applied).1.writer_le_size
    change b.writerIndex ≤ (resize b.buffer _).length at outside
    rw [length_resize] at outside
    omega
  · -- the storage keeps its size
    have asked : sizeT (len.toNat + kCheapPrepend) = len.toNat + kCheapPrepend - 2 ^ 64 := by
      unfold kCheapPrepend at request ⊢
      change (len.toNat + 8) % 2 ^ 64 = _
      omega
    have region : (b.peek.take b.readableBytes).length = b.readableBytes := b.length_readable
    have applied : s.buffer.apply (.ensureWritableBytes len) =
        some (⟨overwrite b.buffer kCheapPrepend (b.peek.take b.readableBytes), kCheapPrepend,
          sizeT (kCheapPrepend + b.readableBytes)⟩, []) := by
      unfold kCheapPrepend at request asked
      rw [same, RawBuffer.apply, RawBuffer.ensureWritableBytes, if_pos short,
        RawBuffer.makeSpace, free, kCheapPrepend, asked, if_neg (by omega),
        Buffer.raw_readableBytes small]
      rfl
    have room := (refines _ _ applied).2.2.2 len rfl
    unfold kCheapPrepend at request
    have size : (overwrite b.buffer kCheapPrepend (b.peek.take b.readableBytes)).length =
        b.buffer.length := by
      apply length_overwrite
      rw [region, Buffer.readableBytes, kCheapPrepend]
      omega
    have index : sizeT (kCheapPrepend + b.readableBytes) = kCheapPrepend + b.readableBytes := by
      apply Nat.mod_eq_of_lt
      rw [Buffer.readableBytes, kCheapPrepend]
      omega
    rw [RawBuffer.writableBytes, size, index, sizeTSub, Buffer.readableBytes, kCheapPrepend] at room
    dsimp only at room
    omega

theorem Simulates.refines_iff {s : DrivenBuffer} {op : BufferOp} (simulates : s.Simulates) :
    s.Refines op ↔ s.SumFits op := by
  constructor
  · intro refines
    cases op with
    | ensureWritableBytes len =>
        refine Nat.lt_of_not_le fun wraps => ?_
        exact simulates.not_refines wraps refines
    | _ => trivial
  · exact simulates.refines

/--
The buffer refines a byte queue, for every sequence of operations: a new buffer
is an empty queue, and each operation that returns does to the readable region
what it does to the queue, keeps the index bounds and makes the room that was
asked for, if and only if no length that is passed to `ensureWritableBytes`
overflows when it is added to the writer index.
-/
theorem refines_queue_iff_sumFits (ops : List BufferOp) :
    (InBounds initial.buffer ∧ initial.buffer.readable = initial.queue) ∧
      (Along step Refines initial ops ↔ Along step SumFits initial ops) := by
  refine ⟨⟨inBounds_raw .empty, rfl⟩, ?_⟩
  constructor
  · refine Along.imp_of_invariant ?_ ?_ simulates_initial
    · intro s op next simulates refines taken
      exact simulates.step (simulates.refines_iff.mp refines) taken
    · exact fun s op simulates refines => simulates.refines_iff.mp refines
  · refine Along.imp_of_invariant ?_ ?_ simulates_initial
    · exact fun s op next simulates fits taken => simulates.step fits taken
    · exact fun s op simulates fits => simulates.refines fits

/-- A new buffer has 1024 writable bytes after it was asked for almost `2 ^ 64`. -/
theorem ensureWritableBytes_without_room :
    ∃ b, RawBuffer.initial.apply (.ensureWritableBytes (2 ^ 64 - 8)) = some (b, []) ∧
      b.writableBytes = 1024 ∧
      ¬ Along step Refines initial [.ensureWritableBytes (2 ^ 64 - 8)] := by
  have applied : RawBuffer.initial.apply (.ensureWritableBytes (2 ^ 64 - 8)) =
      some (RawBuffer.initial, []) := by decide +kernel
  have left : RawBuffer.initial.writableBytes = 1024 := by decide +kernel
  refine ⟨RawBuffer.initial, applied, left, ?_⟩
  intro refines
  have room := (refines.1 _ _ applied).2.2.2 _ rfl
  rw [left] at room
  exact absurd room (by decide +kernel)

end DrivenBuffer

end RpcFramework
