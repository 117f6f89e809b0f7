import GameNetwork.Lib.Queues
import GameNetwork.Lib.Run
import GameNetwork.Buffer.Buffer

/-!
# The buffer as a queue

Any number of buffers under any calls of their operations. What they hold are
queues: `AppendData` and `AppendNumber` put at the end, `PreAppendData` at the
front, `AddReadIndex` drops from it.

`AdjustBuffer` moves the content behind the reserve, also when a pre-append
has put it in front of `IDX_BEGIN`; the content then moves towards the end of
the storage. `buffers_refine_iff` says that this can go wrong, and a capacity
so large that the reserve cannot be added to it, and nothing else;
`buffers_refine_of_no_preAppend` that the first does not without pre-appends.
-/

namespace GameNetwork

open Lib

/-! ## One buffer -/

/-- `b` is well formed and holds `xs`. -/
structure Buffer.Holds (b : Buffer) (xs : List Byte) : Prop where
  valid : b.Valid
  readable_eq : b.readable = xs
  reserve : idxBegin ≤ b.bytes.length

namespace Buffer

theorem holds_new {n : Nat} (h : n + idxBegin < 2 ^ 64) : (new n).Holds [] :=
  ⟨valid_new h, readable_new n, (valid_new h).write_le_size⟩

section Holds

variable {b : Buffer} {xs : List Byte} (h : b.Holds xs)

include h

theorem Holds.adjusted (hf : b.Fits) : b.adjusted.Holds xs :=
  ⟨valid_adjusted hf, (readable_adjusted hf).trans h.readable_eq,
    by rw [length_adjusted hf]; exact h.reserve⟩

theorem Holds.appended (hf : b.Fits) (data : List Byte) : (b.appended data).Holds (xs ++ data) := by
  refine ⟨valid_appended hf, by rw [readable_appended hf, h.readable_eq], ?_⟩
  have hfits : (b.appended data).Fits := fits_appended hf
  exact Nat.le_trans (Nat.le_add_right ..) hfits

theorem Holds.addReadIndex (n : Nat) : (b.addReadIndex n).Holds (xs.drop n) := by
  refine ⟨valid_addReadIndex h.valid, by rw [readable_addReadIndex h.valid, h.readable_eq], ?_⟩
  rw [(consumed_addReadIndex h.valid n).bytes_eq]
  exact h.reserve

theorem Holds.readableSize_eq : b.readableSize = xs.length := by
  rw [readableSize_readable h.valid, h.readable_eq]

theorem Holds.dropAllData : b.dropAllData.Holds [] := by
  have hdrop := h.addReadIndex xs.length
  rw [List.drop_length] at hdrop
  rwa [Buffer.dropAllData, h.readableSize_eq]

theorem Holds.reset : b.reset.Holds [] :=
  ⟨⟨Nat.le_refl _, h.reserve⟩, by simp [Buffer.reset, readable], h.reserve⟩

theorem Holds.written {data : List Byte} (hroom : data.length ≤ b.writableSize) :
    (b.written data).Holds (xs ++ data) := by
  have hw := h.valid.write_le_size
  rw [writableSize_eq h.valid] at hroom
  refine ⟨valid_written h.valid (by omega), ?_, ?_⟩
  · rw [readable_written h.valid (by omega), h.readable_eq]
  · rw [length_written (by omega)]
    exact h.reserve

theorem Holds.preAppendData {data : List Byte} (hlen : data.length ≤ b.readIdx) :
    ∃ b', b.preAppendData data = .ok b' ∧ b'.Holds (data ++ xs) := by
  obtain ⟨b', hb', hv', hreadable, -, hsize⟩ := preAppendData_spec h.valid hlen
  exact ⟨b', hb', hv', by rw [hreadable, h.readable_eq], by rw [hsize]; exact h.reserve⟩

theorem Holds.readAllAsString : b.readAllAsString = .ok (xs, b.dropAllData) := by
  have hout : b.copyOut b.readIdx xs.length = .ok xs := by
    have hcopy := copyOut_readable h.valid (Nat.le_refl _)
    rwa [List.take_length, h.readable_eq] at hcopy
  rw [Buffer.readAllAsString, h.readableSize_eq, hout, Buffer.dropAllData, h.readableSize_eq]
  rfl

end Holds

end Buffer

/-! ## Any number of buffers -/

structure Buffers (ι : Type) where
  buffer : ι → Buffer
  /-- What `ReadAllAsString` has returned, in order. -/
  returned : List (List Byte)

/-- The calls, each with the buffer it is made on. -/
inductive BufferCall (ι : Type) where
  | appendData (i : ι) (data : List Byte)
  /-- `AppendNumber<T>` for a `T` of `k` bytes. -/
  | appendNumber (i : ι) {k : Nat} (number : BitVec (8 * k))
  | preAppendData (i : ι) (data : List Byte)
  | addReadIndex (i : ι) (index : Nat)
  /-- `AddWriteIndex` after the caller has stored as many bytes at `WriteBegin()`. -/
  | addWriteIndex (i : ι) (data : List Byte)
  | adjustBuffer (i : ι)
  | readAllAsString (i : ι)
  | dropAllData (i : ι)
  | reset (i : ι)
  /-- `SwapBuffer`; `none` is the null pointer. -/
  | swapBuffer (i : ι) (buffer : Option ι)

/-- What a call is to the queues. -/
def BufferCall.queueOp {ι : Type} : BufferCall ι → QueueOp ι Byte
  | .appendData i data => .push i data
  | .appendNumber i number => .push i (wire number)
  | .preAppendData i data => .pushFront i data
  | .addReadIndex i index => .drop i index
  | .addWriteIndex i data => .push i data
  | .adjustBuffer _ => .keep
  | .readAllAsString i => .takeAll i
  | .dropAllData i => .clear i
  | .reset i => .clear i
  | .swapBuffer _ none => .keep
  | .swapBuffer i (some j) => .swap i j

namespace Buffers

variable {ι : Type}

/-- Buffers just made, each with its own capacity, a `size_t`. -/
def new (bufferSize : ι → BitVec 64) : Buffers ι := ⟨fun i => .new (bufferSize i).toNat, []⟩

/-- The reserve can be added to every capacity. -/
def CapacityFits (bufferSize : ι → BitVec 64) : Prop := ∀ i, (bufferSize i).toNat + idxBegin < 2 ^ 64

def put [DecidableEq ι] (s : Buffers ι) (i : ι) (b : Buffer) : Buffers ι :=
  { s with buffer := Function.update s.buffer i b }

def step [DecidableEq ι] (s : Buffers ι) : BufferCall ι → Except Fault (Buffers ι)
  | .appendData i data => do
    let b ← (s.buffer i).appendData data
    return s.put i b
  | .appendNumber i number => do
    let b ← (s.buffer i).appendNumber number
    return s.put i b
  | .preAppendData i data => do
    let b ← (s.buffer i).preAppendData data
    return s.put i b
  | .addReadIndex i index => return s.put i ((s.buffer i).addReadIndex index)
  | .addWriteIndex i data => do
    let b ← (s.buffer i).copyIn (s.buffer i).writeIdx data
    return s.put i (b.addWriteIndex data.length)
  | .adjustBuffer i => do
    let b ← (s.buffer i).adjustBuffer
    return s.put i b
  | .readAllAsString i => do
    let (result, b) ← (s.buffer i).readAllAsString
    return { s.put i b with returned := s.returned ++ [result] }
  | .dropAllData i => return s.put i (s.buffer i).dropAllData
  | .reset i => return s.put i (s.buffer i).reset
  | .swapBuffer i buffer =>
    match buffer, (s.buffer i).swapBuffer (buffer.map s.buffer) with
    | some j, (b, some b') => return (s.put i b).put j b'
    | _, (b, _) => return s.put i b

/-- The calls keep to what the operations ask of their callers. -/
def Obeys (s : Buffers ι) : BufferCall ι → Prop
  | .preAppendData i data => data.length ≤ (s.buffer i).readIdx
  | .addWriteIndex i data => data.length ≤ (s.buffer i).writableSize
  | _ => True

/-- **The buffers are well formed and hold what the queues hold**, and what was returned is what
was taken from them. -/
structure Represents (s : Buffers ι) (q : Queues ι Byte) : Prop where
  valid : ∀ i, (s.buffer i).Valid
  content_eq : ∀ i, (s.buffer i).readable = q.content i
  returned_eq : s.returned = q.taken

/-- Where the content is moved behind the reserve, it fits there. -/
def CompactsInside (s : Buffers ι) : BufferCall ι → Prop
  | .appendData i _ => (s.buffer i).Fits
  | .appendNumber i _ => (s.buffer i).Fits
  | .adjustBuffer i => (s.buffer i).Fits
  | _ => True

instance (s : Buffers ι) : ∀ call, Decidable (s.Obeys call)
  | .preAppendData i data => inferInstanceAs (Decidable (data.length ≤ (s.buffer i).readIdx))
  | .addWriteIndex i data => inferInstanceAs (Decidable (data.length ≤ (s.buffer i).writableSize))
  | .appendData .. | .appendNumber .. | .addReadIndex .. | .adjustBuffer _ | .readAllAsString _
  | .dropAllData _ | .reset _ | .swapBuffer .. => .isTrue trivial

instance (s : Buffers ι) : ∀ call, Decidable (s.CompactsInside call)
  | .appendData i _ => inferInstanceAs (Decidable (_ ≤ (s.buffer i).bytes.length))
  | .appendNumber i _ => inferInstanceAs (Decidable (_ ≤ (s.buffer i).bytes.length))
  | .adjustBuffer i => inferInstanceAs (Decidable (_ ≤ (s.buffer i).bytes.length))
  | .preAppendData .. | .addWriteIndex .. | .addReadIndex .. | .readAllAsString _
  | .dropAllData _ | .reset _ | .swapBuffer .. => .isTrue trivial

/-- The storage of every buffer has room for the reserve. -/
def Reserved (s : Buffers ι) : Prop := ∀ i, idxBegin ≤ (s.buffer i).bytes.length

theorem holds {s : Buffers ι} {q : Queues ι Byte} (hI : s.Reserved) (hR : s.Represents q) (i : ι) :
    (s.buffer i).Holds (q.content i) := ⟨hR.valid i, hR.content_eq i, hI i⟩

/-- Every read index is behind the reserve. -/
def Behind (s : Buffers ι) : Prop := ∀ i, idxBegin ≤ (s.buffer i).readIdx

theorem Behind.compactsInside {s : Buffers ι} {q : Queues ι Byte} (h : s.Behind)
    (hR : s.Represents q) (call : BufferCall ι) : s.CompactsInside call := by
  have hfits : ∀ i, (s.buffer i).Fits := fun i => Buffer.fits_of_reserve (hR.valid i) (h i)
  cases call with
  | appendData i => exact hfits i
  | appendNumber i => exact hfits i
  | adjustBuffer i => exact hfits i
  | _ => trivial

theorem represents_new_iff {bufferSize : ι → BitVec 64} :
    (new bufferSize).Represents Queues.empty ↔ CapacityFits bufferSize :=
  ⟨fun h i => (Buffer.valid_new_iff (bufferSize i).isLt).mp (h.valid i),
    fun h => ⟨fun i => Buffer.valid_new (h i), fun _ => Buffer.readable_new _, rfl⟩⟩

section Step

variable [DecidableEq ι]

@[simp] theorem put_self (s : Buffers ι) (i : ι) (b : Buffer) : (s.put i b).buffer i = b :=
  Function.update_self ..

theorem put_of_ne (s : Buffers ι) {i k : ι} (h : k ≠ i) (b : Buffer) :
    (s.put i b).buffer k = s.buffer k := Function.update_of_ne h ..

theorem Behind.put {s : Buffers ι} (h : s.Behind) {i : ι} {b : Buffer} (hb : idxBegin ≤ b.readIdx) :
    (s.put i b).Behind := by
  intro k
  by_cases hk : k = i
  · subst hk
    rw [put_self]
    exact hb
  · rw [put_of_ne s hk]
    exact h k

variable {s : Buffers ι} {q : Queues ι Byte} (hI : s.Reserved) (hR : s.Represents q)
  {call : BufferCall ι}

include hI hR

/-- One buffer and its queue are given new content. -/
theorem represents_put {i : ι} {b : Buffer} {xs : List Byte} (h : b.Holds xs) :
    (s.put i b).Reserved ∧ (s.put i b).Represents (q.set i xs) := by
  have each : ∀ k, ((s.put i b).buffer k).Holds ((q.set i xs).content k) := by
    intro k
    by_cases hk : k = i
    · subst hk
      rw [Queues.content_set_self, put_self]
      exact h
    · rw [Queues.content_set_of_ne q hk, put_of_ne s hk]
      exact holds hI hR k
  exact ⟨fun k => (each k).reserve, fun k => (each k).valid, fun k => (each k).readable_eq,
    hR.returned_eq⟩

/-- **A call that compacts inside the storage does to the buffers what it is to the queues**; only a
pre-append moves a read index in front of `IDX_BEGIN`. -/
theorem step_represents (hO : s.Obeys call) (hC : s.CompactsInside call) :
    ∃ t, s.step call = .ok t ∧ (t.Reserved ∧ t.Represents (q.apply call.queueOp)) ∧
      ((∀ i data, call ≠ .preAppendData i data) → s.Behind → t.Behind) := by
  have stored : ∀ {i : ι} {x : Except Fault Buffer} {b : Buffer} {xs : List Byte}, x = .ok b →
      b.Holds xs → ((∀ i data, call ≠ .preAppendData i data) → s.Behind → idxBegin ≤ b.readIdx) →
      ∃ t, (x.bind fun b => .ok (s.put i b)) = .ok t ∧
        (t.Reserved ∧ t.Represents (q.set i xs)) ∧
        ((∀ i data, call ≠ .preAppendData i data) → s.Behind → t.Behind) := by
    rintro i _ b xs rfl hb hread
    exact ⟨s.put i b, rfl, represents_put hI hR hb, fun hno h => h.put (hread hno h)⟩
  have h := holds hI hR
  have hread : ∀ i n, s.Behind → idxBegin ≤ ((s.buffer i).addReadIndex n).readIdx := fun i n hb =>
    Nat.le_trans (hb i) (Buffer.consumed_addReadIndex (hR.valid i) n).le_readIdx
  cases call with
  | appendData i data =>
    exact stored (Buffer.appendData_eq (hR.valid i) hC) ((h i).appended hC data)
      fun _ _ => Nat.le_of_eq (Buffer.appended_readIdx ..).symm
  | @appendNumber i k number =>
    exact stored (Buffer.appendNumber_eq (Nat.dvd_mul_right 8 k) (hR.valid i) hC number)
      ((h i).appended hC (wire number)) fun _ _ => Nat.le_of_eq (Buffer.appended_readIdx ..).symm
  | preAppendData i data =>
    obtain ⟨b, hb, hholds⟩ := (h i).preAppendData hO
    exact stored hb hholds fun hno => absurd rfl (hno i data)
  | addReadIndex i index =>
    exact stored rfl ((h i).addReadIndex index) fun _ => hread i index
  | addWriteIndex i data =>
    have hroom : data.length ≤ (s.buffer i).writableSize := hO
    have hw := (hR.valid i).write_le_size
    rw [Buffer.writableSize_eq (hR.valid i)] at hroom
    refine ⟨s.put i ((s.buffer i).written data), ?_, represents_put hI hR ((h i).written hO),
      fun _ hb => hb.put (hb i)⟩
    show ((s.buffer i).copyIn (s.buffer i).writeIdx data).bind _ = _
    rw [Buffer.copyIn_of_le (by omega)]
    rfl
  | adjustBuffer i =>
    have hset := stored (i := i) (Buffer.adjustBuffer_eq (hR.valid i) hC) ((h i).adjusted hC)
      fun _ _ => Nat.le_refl _
    rwa [Queues.set_content] at hset
  | readAllAsString i =>
    obtain ⟨hI', hR'⟩ := represents_put hI hR (i := i) (h i).dropAllData
    refine ⟨{ s.put i (s.buffer i).dropAllData with returned := s.returned ++ [q.content i] }, ?_,
      ⟨hI', hR'.valid, hR'.content_eq, by rw [hR.returned_eq]; rfl⟩, fun _ hb => ?_⟩
    · show (s.buffer i).readAllAsString.bind _ = _
      rw [(h i).readAllAsString]
      rfl
    · exact hb.put (hread i _ hb)
  | dropAllData i => exact stored rfl (h i).dropAllData fun _ => hread i _
  | reset i => exact stored rfl (h i).reset fun _ _ => Nat.le_refl _
  | swapBuffer i buffer =>
    cases buffer with
    | none =>
      have hset := stored (i := i) rfl (h i) fun _ hb => hb i
      rwa [Queues.set_content] at hset
    | some j =>
      obtain ⟨hI', hR'⟩ := represents_put hI hR (i := i) (h j)
      refine ⟨_, rfl, ?_, fun _ hb => (hb.put (hb j)).put (hb i)⟩
      rw [BufferCall.queueOp, Queues.apply_swap]
      exact represents_put hI' hR' (h i)

omit hI in
/-- A call that does not compact inside the storage writes past its end. -/
theorem step_fault (hC : ¬ s.CompactsInside call) : s.step call = .error .outOfBounds := by
  cases call with
  | appendData i data =>
    show ((s.buffer i).appendData data).bind _ = _
    rw [Buffer.appendData_fault (hR.valid i) hC]
    rfl
  | appendNumber i number =>
    show ((s.buffer i).appendData _).bind _ = _
    rw [Buffer.appendData_fault (hR.valid i) hC]
    rfl
  | adjustBuffer i =>
    show (s.buffer i).adjustBuffer.bind _ = _
    rw [Buffer.adjustBuffer_fault (hR.valid i) hC]
    rfl
  | _ => exact absurd trivial hC

end Step

section Run

variable [DecidableEq ι]

/-- **The buffers refine the queues in a run if and only if the reserve can be added to their
capacities and every call compacts inside the storage.** -/
theorem buffers_refine_iff {bufferSize : ι → BitVec 64} {calls : List (BufferCall ι)}
    (hO : EachStep step Obeys (new bufferSize) calls) :
    Refines step (fun q call => q.apply call.queueOp) Represents (new bufferSize) Queues.empty calls ↔
      CapacityFits bufferSize ∧ EachStep step CompactsInside (new bufferSize) calls := by
  have hrun (hcap : CapacityFits bufferSize) : Refines step (fun q call => q.apply call.queueOp)
      Represents (new bufferSize) Queues.empty calls ↔
        EachStep step CompactsInside (new bufferSize) calls := by
    refine refines_iff_eachStep (I := Reserved) ?_ ?_ ?_ ?_ hO
    · intro s q call t hI hR hO hC ht
      obtain ⟨t', ht', ⟨hI', -⟩, -⟩ := step_represents hI hR hO hC
      rw [ht] at ht'
      cases ht'
      exact hI'
    · intro s q call hI hR hO
      constructor
      · rintro ⟨t, ht, -⟩
        by_contra hC
        rw [step_fault hR hC] at ht
        cases ht
      · intro hC
        obtain ⟨t, ht, ⟨-, hR'⟩, -⟩ := step_represents hI hR hO hC
        exact ⟨t, ht, hR'⟩
    · exact fun i => (Buffer.holds_new (hcap i)).reserve
    · exact represents_new_iff.mpr hcap
  constructor
  · intro h
    have hcap : CapacityFits bufferSize := represents_new_iff.mp h.start
    exact ⟨hcap, (hrun hcap).mp h⟩
  · rintro ⟨hcap, hC⟩
    exact (hrun hcap).mpr hC

/-- **Without pre-appends the buffers refine the queues.** -/
theorem buffers_refine_of_no_preAppend {bufferSize : ι → BitVec 64} {calls : List (BufferCall ι)}
    (hcap : CapacityFits bufferSize) (hO : EachStep step Obeys (new bufferSize) calls)
    (hno : ∀ i data, .preAppendData i data ∉ calls) :
    Refines step (fun q call => q.apply call.queueOp) Represents (new bufferSize) Queues.empty
      calls := by
  have hG : EachStep step (fun s call => s.Obeys call ∧ ∀ i data, call ≠ .preAppendData i data)
      (new bufferSize) calls := by
    intro ds call hds s hs
    refine ⟨hO ds call hds s hs, fun i data hcall => hno i data ?_⟩
    rw [← hcall]
    exact hds.subset (by simp)
  refine (refines_iff_eachStep (I := fun s => s.Reserved ∧ s.Behind) (C := fun _ _ => True)
    ?_ ?_ ?_ ?_ hG).mpr fun _ _ _ _ _ => trivial
  · rintro s q call t ⟨hI, hbehind⟩ hR ⟨hO, hno⟩ - ht
    obtain ⟨t', ht', ⟨hI', -⟩, hbehind'⟩ :=
      step_represents hI hR hO (hbehind.compactsInside hR call)
    rw [ht] at ht'
    cases ht'
    exact ⟨hI', hbehind' hno hbehind⟩
  · rintro s q call ⟨hI, hbehind⟩ hR ⟨hO, -⟩
    obtain ⟨t, ht, ⟨-, hR'⟩, -⟩ := step_represents hI hR hO (hbehind.compactsInside hR call)
    exact iff_of_true ⟨t, ht, hR'⟩ trivial
  · exact ⟨fun i => (Buffer.holds_new (hcap i)).reserve, fun i => Nat.le_refl _⟩
  · exact represents_new_iff.mpr hcap

end Run

/-- Two buffers; one number behind a prefix, and a swap. -/
def prefixedAndSwapped : List (BufferCall Bool) :=
  [.appendNumber true (k := 4) 7, .preAppendData true [4], .swapBuffer true (some false),
    .addReadIndex false 2, .appendData false [9], .readAllAsString false]

theorem buffers_refine_iff_swapped :
    (Refines step (fun q call => q.apply call.queueOp) Represents (new fun _ => 64) Queues.empty
        prefixedAndSwapped ↔
      CapacityFits (fun _ : Bool => 64) ∧
        EachStep step CompactsInside (new fun _ => 64) prefixedAndSwapped) ∧
      EachStep step CompactsInside (new fun _ => 64) prefixedAndSwapped :=
  ⟨buffers_refine_iff (by decide), by decide⟩

/-- A number with its length in front, in a buffer that has just room for it. -/
def prefixedAndAdjusted : List (BufferCall Unit) :=
  [.appendNumber () (k := 4) 7, .preAppendData () [0, 0, 0, 4], .adjustBuffer ()]

/-- **Compacting past the end of the storage, and a storage that is smaller than its reserve.** -/
theorem buffers_refine_fails :
    (EachStep step Obeys (new fun _ => 4) prefixedAndAdjusted ∧
      run step (new fun _ => 4) prefixedAndAdjusted = .error .outOfBounds ∧
      ¬ Refines step (fun q call => q.apply call.queueOp) Represents (new fun _ => 4) Queues.empty
        prefixedAndAdjusted) ∧
    (EachStep step Obeys (new fun _ => -8) [BufferCall.reset ()] ∧
      (∃ t, run step (new fun _ => -8) [BufferCall.reset ()] = .ok t ∧ ¬ (t.buffer ()).Valid) ∧
      ¬ Refines step (fun q call => q.apply call.queueOp) Represents (new fun _ => -8) Queues.empty
        [BufferCall.reset ()]) := by
  have hpast : run step (new fun _ => 4) prefixedAndAdjusted = .error .outOfBounds := rfl
  have hwrapped : run step (new fun _ => -8) [BufferCall.reset ()] =
    .ok ((new fun _ => -8).put () (Buffer.new (-8 : BitVec 64).toNat).reset) := rfl
  have hinvalid : ¬ (((new fun _ => -8).put ()
      (Buffer.new (-8 : BitVec 64).toNat).reset).buffer ()).Valid := by
    rw [put_self]
    intro hv
    exact absurd hv.write_le_size (by decide)
  refine ⟨⟨by decide, hpast, fun h => ?_⟩, by decide, ⟨_, hwrapped, hinvalid⟩, fun h => ?_⟩
  · obtain ⟨t, ht, -⟩ := h prefixedAndAdjusted (List.prefix_refl _)
    rw [hpast] at ht
    cases ht
  · obtain ⟨t, ht, hR⟩ := h [.reset ()] (List.prefix_refl _)
    rw [hwrapped] at ht
    cases ht
    exact hinvalid (hR.valid ())

end Buffers

end GameNetwork
