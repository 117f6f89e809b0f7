import GameNetwork.Buffer.ByteOrder

/-!
# The byte buffer

`Buffer/Buffer.h`, `Buffer/Buffer.cpp`. A `Buffer` is a vector of bytes with a
read and a write index; the bytes between them are its content (`readable`).
The first `IDX_BEGIN` bytes are a reserve that a length prefix is written
into after the data it counts.

The operations are the source's, on raw indices: an index out of order gives
the wrapped difference `size_t` gives, and an access outside the vector is
the fault `outOfBounds`. `Valid` is the invariant under which neither
happens, and every operation has one lemma that says what it does to the
content of a valid buffer.

A capacity is any `size_t`, and the constructor adds the reserve to it in
`size_t`. Behind that a storage is what a vector can hold, less than `2^63`
bytes, so that no sum of sizes and indices wraps; allocations succeed.
-/

namespace GameNetwork

open Lib

/-- `IDX_BEGIN`. -/
abbrev idxBegin : Nat := 8

/-- `DEFAULT_BUFFER_SIZE`. -/
abbrev defaultBufferSize : Nat := 4096

/-- `TINY_BUFFER_DEFAULT_BUFFER_SIZE`. -/
abbrev tinyBufferDefaultBufferSize : Nat := 64

/-- `a - b` in `size_t`. -/
def sizeSub (a b : Nat) : Nat :=
  if b ≤ a then a - b else (2 ^ 64 - (b - a) % 2 ^ 64) % 2 ^ 64

theorem sizeSub_of_le {a b : Nat} (h : b ≤ a) : sizeSub a b = a - b := if_pos h

structure Buffer where
  /-- `buffer_`. -/
  bytes : List Byte
  readIdx : Nat
  writeIdx : Nat
  deriving DecidableEq, Repr

namespace Buffer

/-! ## The operations of the source -/

/-- `Buffer(size_t buffer_size)`. -/
def new (bufferSize : Nat) : Buffer :=
  ⟨List.replicate ((bufferSize + idxBegin) % 2 ^ 64) 0, idxBegin, idxBegin⟩

/-- `TinyBuffer()`. -/
def tiny : Buffer := new tinyBufferDefaultBufferSize

def readableSize (b : Buffer) : Nat := sizeSub b.writeIdx b.readIdx

def writableSize (b : Buffer) : Nat := sizeSub b.bytes.length b.writeIdx

def addWriteIndex (b : Buffer) (index : Nat) : Buffer := { b with writeIdx := b.writeIdx + index }

def addReadIndex (b : Buffer) (index : Nat) : Buffer :=
  if b.readableSize < index then { b with readIdx := b.readIdx + b.readableSize }
  else { b with readIdx := b.readIdx + index }

/-- Copy `n` bytes out of `buffer_` from position `p`. -/
def copyOut (b : Buffer) (p n : Nat) : Except Fault (List Byte) :=
  if p + n ≤ b.bytes.length then .ok (load b.bytes p n) else .error .outOfBounds

/-- Copy bytes into `buffer_` at position `p`. -/
def copyIn (b : Buffer) (p : Nat) (data : List Byte) : Except Fault Buffer :=
  if p + data.length ≤ b.bytes.length then .ok { b with bytes := store b.bytes p data }
  else .error .outOfBounds

def adjustBuffer (b : Buffer) : Except Fault Buffer := do
  let readableLength := b.readableSize
  let data ← b.copyOut b.readIdx readableLength
  let b ← b.copyIn idxBegin data
  return { b with readIdx := idxBegin, writeIdx := idxBegin + readableLength }

/-- `buffer_.resize(new_size + IDX_BEGIN)`. -/
def reSize (b : Buffer) (newSize : Nat) : Buffer :=
  { b with bytes := b.bytes.take (newSize + idxBegin) ++
      List.replicate (newSize + idxBegin - b.bytes.length) 0 }

def appendData (b : Buffer) (data : List Byte) : Except Fault Buffer := do
  let b ← b.adjustBuffer
  let b := if b.writableSize < data.length then
      b.reSize (b.bytes.length + (data.length - b.writableSize))
    else b
  let b ← b.copyIn b.writeIdx data
  return b.addWriteIndex data.length

def preAppendData (b : Buffer) (data : List Byte) : Except Fault Buffer :=
  if b.readIdx < data.length then .error (.assertion "read_idx_ >= length")
  else
    let b := { b with readIdx := b.readIdx - data.length }
    b.copyIn b.readIdx data

def appendNumber {w : Nat} (b : Buffer) (number : BitVec w) : Except Fault Buffer :=
  b.appendData (toMem (hton number))

def preAppendNumber {w : Nat} (b : Buffer) (number : BitVec w) : Except Fault Buffer :=
  b.preAppendData (toMem (hton number))

/-- `PeekNumber<T>()` for a `T` of `w` bits. -/
def peekNumber (b : Buffer) (w : Nat) : Except Fault (BitVec w) :=
  if b.readableSize < w / 8 then .error (.assertion "ReadableSize() >= sizeof(T)")
  else do
    let result ← b.copyOut b.readIdx (w / 8)
    return ntoh (ofMem w result)

/-- `ReadNumber<T>()` for a `T` of `w` bits. -/
def readNumber (b : Buffer) (w : Nat) : Except Fault (BitVec w × Buffer) := do
  let result ← b.peekNumber w
  return (result, b.addReadIndex (w / 8))

/-- `APPEND_ENUM`: an enumerator of one byte goes out as an `int`. -/
def appendEnum (b : Buffer) (e : BitVec 8) : Except Fault Buffer := b.appendNumber (e.setWidth 32)

/-- `READ_ENUM`: an `int` comes in and is narrowed to the enumeration's byte. -/
def readEnum (b : Buffer) : Except Fault (BitVec 8 × Buffer) := do
  let (number, b) ← b.readNumber 32
  return (number.setWidth 8, b)

def readAllAsString (b : Buffer) : Except Fault (List Byte × Buffer) := do
  let result ← b.copyOut b.readIdx b.readableSize
  return (result, b.addReadIndex b.readableSize)

def dropAllData (b : Buffer) : Buffer := b.addReadIndex b.readableSize

def reset (b : Buffer) : Buffer := { b with readIdx := idxBegin, writeIdx := idxBegin }

/-- `SwapBuffer`: what it leaves of the two buffers; `none` is the null pointer. -/
def swapBuffer (b : Buffer) : Option Buffer → Buffer × Option Buffer
  | none => (b, none)
  | some buffer =>
    (⟨buffer.bytes, buffer.readIdx, buffer.writeIdx⟩, some ⟨b.bytes, b.readIdx, b.writeIdx⟩)

/-! ## Content and invariant -/

/-- The bytes between the indices. -/
def readable (b : Buffer) : List Byte := load b.bytes b.readIdx (b.writeIdx - b.readIdx)

/-- The indices are in order and inside the storage. -/
structure Valid (b : Buffer) : Prop where
  read_le_write : b.readIdx ≤ b.writeIdx
  write_le_size : b.writeIdx ≤ b.bytes.length

theorem length_new {n : Nat} (h : n + idxBegin < 2 ^ 64) : (new n).bytes.length = n + idxBegin := by
  rw [new, List.length_replicate, Nat.mod_eq_of_lt h]

/-- **A new buffer is well formed if and only if the reserve can be added to its capacity.** -/
theorem valid_new_iff {n : Nat} (hn : n < 2 ^ 64) : (new n).Valid ↔ n + idxBegin < 2 ^ 64 := by
  have hsize : (new n).bytes.length = (n + idxBegin) % 2 ^ 64 := List.length_replicate
  constructor
  · intro h
    have hle : idxBegin ≤ (new n).bytes.length := h.write_le_size
    rw [hsize] at hle
    by_contra hwraps
    omega
  · intro h
    refine ⟨Nat.le_refl _, ?_⟩
    rw [length_new h]
    exact Nat.le_add_left ..

theorem valid_new {n : Nat} (h : n + idxBegin < 2 ^ 64) : (new n).Valid :=
  (valid_new_iff (by omega)).mpr h

@[simp] theorem readable_new (n : Nat) : (new n).readable = [] := by simp [new, readable]

theorem valid_default : (new defaultBufferSize).Valid := valid_new (by decide)

theorem valid_tiny : tiny.Valid := valid_new (by decide)

@[simp] theorem readable_tiny : tiny.readable = [] := readable_new _

section Valid

variable {b : Buffer}

theorem readableSize_eq (hv : b.Valid) : b.readableSize = b.writeIdx - b.readIdx :=
  sizeSub_of_le hv.read_le_write

theorem writableSize_eq (hv : b.Valid) : b.writableSize = b.bytes.length - b.writeIdx :=
  sizeSub_of_le hv.write_le_size

theorem length_readable (hv : b.Valid) : b.readable.length = b.writeIdx - b.readIdx := by
  have h1 := hv.read_le_write
  have h2 := hv.write_le_size
  exact length_load (by omega)

theorem readableSize_readable (hv : b.Valid) : b.readableSize = b.readable.length :=
  (readableSize_eq hv).trans (length_readable hv).symm

/-- `AddReadIndex` within the content. -/
theorem addReadIndex_of_le {n : Nat} (hv : b.Valid) (hn : n ≤ b.readable.length) :
    b.addReadIndex n = { b with readIdx := b.readIdx + n } := by
  rw [addReadIndex, if_neg (by rw [readableSize_readable hv]; omega)]

theorem valid_addReadIndex {n : Nat} (hv : b.Valid) : (b.addReadIndex n).Valid := by
  have h1 := hv.read_le_write
  unfold addReadIndex
  split
  · exact ⟨by simp only [readableSize_eq hv]; omega, hv.write_le_size⟩
  · next h =>
    rw [readableSize_eq hv] at h
    exact ⟨by simp only; omega, hv.write_le_size⟩

/-- **`AddReadIndex` drops from the front.** -/
theorem readable_addReadIndex (hv : b.Valid) (n : Nat) :
    (b.addReadIndex n).readable = b.readable.drop n := by
  unfold addReadIndex
  rw [readableSize_eq hv]
  have h1 := hv.read_le_write
  split
  · next h =>
    rw [List.drop_eq_nil_of_le (by rw [length_readable hv]; omega)]
    unfold readable
    rw [show b.writeIdx - (b.readIdx + (b.writeIdx - b.readIdx)) = 0 by omega, load_zero]
  · simp only [readable, drop_load]
    rw [Nat.sub_add_eq]

theorem addReadIndex_zero (b : Buffer) : b.addReadIndex 0 = b := by
  rw [addReadIndex, if_neg (Nat.not_lt_zero _)]
  rfl

theorem addReadIndex_add {m n : Nat} (hv : b.Valid) (h : m + n ≤ b.readable.length) :
    (b.addReadIndex m).addReadIndex n = b.addReadIndex (m + n) := by
  have hv' : (b.addReadIndex m).Valid := valid_addReadIndex hv
  rw [addReadIndex_of_le hv' (by rw [readable_addReadIndex hv, List.length_drop]; omega),
    addReadIndex_of_le hv (by omega), addReadIndex_of_le hv h]
  simp only [Nat.add_assoc]

/-- Some of the content of `b` is read in `b'`. -/
structure Consumed (b b' : Buffer) : Prop where
  bytes_eq : b'.bytes = b.bytes
  writeIdx_eq : b'.writeIdx = b.writeIdx
  le_readIdx : b.readIdx ≤ b'.readIdx
  valid : b'.Valid

theorem Consumed.refl (hv : b.Valid) : b.Consumed b := ⟨rfl, rfl, Nat.le_refl _, hv⟩

theorem Consumed.trans {b' b'' : Buffer} (h : b.Consumed b') (h' : b'.Consumed b'') :
    b.Consumed b'' :=
  ⟨h'.bytes_eq.trans h.bytes_eq, h'.writeIdx_eq.trans h.writeIdx_eq,
    Nat.le_trans h.le_readIdx h'.le_readIdx, h'.valid⟩

theorem consumed_addReadIndex (hv : b.Valid) (n : Nat) : b.Consumed (b.addReadIndex n) := by
  refine ⟨?_, ?_, ?_, valid_addReadIndex hv⟩ <;> unfold addReadIndex <;> split
  · rfl
  · rfl
  · rfl
  · rfl
  · exact Nat.le_add_right ..
  · exact Nat.le_add_right ..

theorem copyOut_readable {n : Nat} (hv : b.Valid) (hn : n ≤ b.readable.length) :
    b.copyOut b.readIdx n = .ok (b.readable.take n) := by
  have h1 := hv.read_le_write
  have h2 := hv.write_le_size
  rw [length_readable hv] at hn
  rw [copyOut, if_pos (by omega), readable, take_load, Nat.min_eq_left (by omega)]

theorem copyIn_of_le {p : Nat} {data : List Byte} (h : p + data.length ≤ b.bytes.length) :
    b.copyIn p data = .ok { b with bytes := store b.bytes p data } := if_pos h

/-- **`PeekNumber` reads the front of the content.** -/
theorem peekNumber_eq {w : Nat} (hw : 8 ∣ w) (hv : b.Valid) :
    b.peekNumber w = if b.readable.length < w / 8
      then .error (.assertion "ReadableSize() >= sizeof(T)") else .ok (numAt w b.readable) := by
  unfold peekNumber
  rw [readableSize_readable hv]
  split
  · rfl
  · next h =>
    rw [copyOut_readable hv (by omega)]
    simp only [bind, Except.bind, pure, Except.pure]
    rw [ntoh_ofMem hw (by rw [List.length_take]; omega)]
    rfl

theorem readNumber_eq {w : Nat} (hw : 8 ∣ w) (hv : b.Valid) :
    b.readNumber w = if b.readable.length < w / 8
      then .error (.assertion "ReadableSize() >= sizeof(T)")
      else .ok (numAt w b.readable, b.addReadIndex (w / 8)) := by
  unfold readNumber
  rw [peekNumber_eq hw hv]
  split <;> rfl

theorem readEnum_eq (hv : b.Valid) :
    b.readEnum = if b.readable.length < 4 then .error (.assertion "ReadableSize() >= sizeof(T)")
      else .ok ((numAt 32 b.readable).setWidth 8, b.addReadIndex 4) := by
  unfold readEnum
  rw [readNumber_eq (by decide) hv]
  split <;> rfl

/-! ## Compaction and growth -/

/-- The content fits behind the reserve, so that compacting stays in bounds. -/
def Fits (b : Buffer) : Prop := idxBegin + b.readable.length ≤ b.bytes.length

theorem fits_of_reserve (hv : b.Valid) (h8 : idxBegin ≤ b.readIdx) : b.Fits := by
  have h1 := hv.read_le_write
  have h2 := hv.write_le_size
  unfold Fits
  rw [length_readable hv]
  omega

/-- What `AdjustBuffer` leaves: the content behind the reserve. -/
def adjusted (b : Buffer) : Buffer :=
  ⟨store b.bytes idxBegin b.readable, idxBegin, idxBegin + b.readable.length⟩

theorem adjustBuffer_eq (hv : b.Valid) (hf : b.Fits) : b.adjustBuffer = .ok b.adjusted := by
  simp only [adjustBuffer, readableSize_readable hv, copyOut_readable hv (Nat.le_refl _),
    List.take_length, bind, Except.bind, pure, Except.pure, copyIn_of_le hf]
  rfl

/-- Content that does not fit behind the reserve is written past the end of the storage. -/
theorem adjustBuffer_fault (hv : b.Valid) (hf : ¬ b.Fits) : b.adjustBuffer = .error .outOfBounds := by
  have hpast : ¬ idxBegin + b.readable.length ≤ b.bytes.length := hf
  simp only [adjustBuffer, readableSize_readable hv, copyOut_readable hv (Nat.le_refl _),
    List.take_length, bind, Except.bind, copyIn]
  rw [if_neg hpast]

theorem appendData_fault (hv : b.Valid) (hf : ¬ b.Fits) (data : List Byte) :
    b.appendData data = .error .outOfBounds := by
  rw [appendData, adjustBuffer_fault hv hf]
  rfl

theorem length_adjusted (hf : b.Fits) : b.adjusted.bytes.length = b.bytes.length :=
  length_store hf

theorem valid_adjusted (hf : b.Fits) : b.adjusted.Valid :=
  ⟨Nat.le_add_right .., by rw [length_adjusted hf]; exact hf⟩

/-- **`AdjustBuffer` keeps the content.** -/
theorem readable_adjusted (hf : b.Fits) : b.adjusted.readable = b.readable := by
  have h := load_store (m := b.bytes) (d := b.readable) (p := idxBegin) hf
  simpa only [readable, adjusted, Nat.add_sub_cancel_left] using h

/-- Room for `n` more bytes behind the content of a compacted buffer. -/
def grown (b : Buffer) (n : Nat) : Buffer :=
  if b.writableSize < n then b.reSize (b.bytes.length + (n - b.writableSize)) else b

theorem grown_bytes (b : Buffer) (n : Nat) : ∃ x, (b.grown n).bytes = b.bytes ++ x := by
  unfold grown
  split
  · unfold reSize
    rw [List.take_of_length_le (by omega)]
    exact ⟨_, rfl⟩
  · exact ⟨[], by simp⟩

@[simp] theorem grown_readIdx (b : Buffer) (n : Nat) : (b.grown n).readIdx = b.readIdx := by
  unfold grown; split <;> rfl

@[simp] theorem grown_writeIdx (b : Buffer) (n : Nat) : (b.grown n).writeIdx = b.writeIdx := by
  unfold grown; split <;> rfl

theorem grown_room {n : Nat} (hv : b.Valid) : b.writeIdx + n ≤ (b.grown n).bytes.length := by
  have h2 := hv.write_le_size
  unfold grown
  rw [writableSize_eq hv]
  split
  · simp only [reSize, List.length_append, List.length_take, List.length_replicate]; omega
  · omega

theorem valid_grown {n : Nat} (hv : b.Valid) : (b.grown n).Valid := by
  refine ⟨by simpa using hv.read_le_write, ?_⟩
  have := grown_room (n := n) hv
  simp only [grown_writeIdx]; omega

theorem readable_grown {n : Nat} (hv : b.Valid) : (b.grown n).readable = b.readable := by
  obtain ⟨x, hx⟩ := grown_bytes b n
  have h1 := hv.read_le_write
  have h2 := hv.write_le_size
  simp only [readable, hx, grown_readIdx, grown_writeIdx]
  exact load_append_left (by omega)

/-- Bytes stored at the write index and counted in. -/
def written (b : Buffer) (data : List Byte) : Buffer :=
  ⟨store b.bytes b.writeIdx data, b.readIdx, b.writeIdx + data.length⟩

theorem length_written {data : List Byte} (h : b.writeIdx + data.length ≤ b.bytes.length) :
    (b.written data).bytes.length = b.bytes.length := length_store h

theorem valid_written {data : List Byte} (hv : b.Valid)
    (h : b.writeIdx + data.length ≤ b.bytes.length) : (b.written data).Valid := by
  have h1 := hv.read_le_write
  exact ⟨by simp only [written]; omega, by rw [length_written h]; exact h⟩

/-- **Bytes stored at the write index join the content at its end.** -/
theorem readable_written {data : List Byte} (hv : b.Valid)
    (h : b.writeIdx + data.length ≤ b.bytes.length) :
    (b.written data).readable = b.readable ++ data := by
  have h1 := hv.read_le_write
  simp only [readable, written]
  rw [show b.writeIdx + data.length - b.readIdx = b.writeIdx - b.readIdx + data.length by omega]
  exact load_store_snoc h (by omega)

/-- What `AppendData` leaves. -/
def appended (b : Buffer) (data : List Byte) : Buffer :=
  (b.adjusted.grown data.length).written data

theorem appendData_eq {data : List Byte} (hv : b.Valid) (hf : b.Fits) :
    b.appendData data = .ok (b.appended data) := by
  have hroom := grown_room (n := data.length) (valid_adjusted hf)
  rw [appendData, adjustBuffer_eq hv hf]
  show ((b.adjusted.grown data.length).copyIn (b.adjusted.grown data.length).writeIdx data).bind
    (fun b => .ok (b.addWriteIndex data.length)) = _
  rw [copyIn_of_le (by simpa using hroom)]
  rfl

@[simp] theorem appended_readIdx (b : Buffer) (data : List Byte) :
    (b.appended data).readIdx = idxBegin := by
  simp [appended, written, adjusted]

theorem valid_appended {data : List Byte} (hf : b.Fits) : (b.appended data).Valid :=
  valid_written (valid_grown (valid_adjusted hf))
    (by simpa using grown_room (n := data.length) (valid_adjusted hf))

/-- **`AppendData` adds at the end.** -/
theorem readable_appended {data : List Byte} (hf : b.Fits) :
    (b.appended data).readable = b.readable ++ data := by
  have hv := valid_adjusted hf
  rw [appended, readable_written (valid_grown hv) (by simpa using grown_room hv),
    readable_grown hv, readable_adjusted hf]

theorem fits_appended {data : List Byte} (hf : b.Fits) : (b.appended data).Fits :=
  fits_of_reserve (valid_appended hf) (by simp)

theorem appendNumber_eq {w : Nat} (hw : 8 ∣ w) (hv : b.Valid) (hf : b.Fits) (n : BitVec w) :
    b.appendNumber n = .ok (b.appended (wire n)) := by
  rw [appendNumber, toMem_hton hw, appendData_eq hv hf]

theorem fits_tiny : tiny.Fits := fits_of_reserve valid_tiny (Nat.le_refl _)

/-- `AppendData` to a fresh `TinyBuffer`. -/
theorem tiny_appendData (data : List Byte) : tiny.appendData data = .ok (tiny.appended data) :=
  appendData_eq valid_tiny fits_tiny

theorem valid_tiny_appended (data : List Byte) : (tiny.appended data).Valid :=
  valid_appended fits_tiny

@[simp] theorem readable_tiny_appended (data : List Byte) : (tiny.appended data).readable = data := by
  rw [readable_appended fits_tiny, readable_tiny, List.nil_append]

/-- **`PreAppendData` adds at the front**, in the reserve. -/
theorem preAppendData_spec {data : List Byte} (hv : b.Valid) (hlen : data.length ≤ b.readIdx) :
    ∃ b', b.preAppendData data = .ok b' ∧ b'.Valid ∧ b'.readable = data ++ b.readable ∧
      b'.readIdx = b.readIdx - data.length ∧ b'.bytes.length = b.bytes.length := by
  have h1 := hv.read_le_write
  have h2 := hv.write_le_size
  have hin : b.readIdx - data.length + data.length ≤ b.bytes.length := by omega
  refine ⟨⟨store b.bytes (b.readIdx - data.length) data, b.readIdx - data.length, b.writeIdx⟩,
    ?_, ⟨?_, ?_⟩, ?_, rfl, length_store hin⟩
  · rw [preAppendData, if_neg (by omega)]
    exact copyIn_of_le hin
  · simp only; omega
  · simp only [length_store hin]; exact h2
  · unfold readable
    rw [show b.writeIdx - (b.readIdx - data.length) =
      data.length + (b.writeIdx - b.readIdx) by omega, load_store_cons hin,
      Nat.sub_add_cancel hlen]

end Valid

end Buffer

end GameNetwork
