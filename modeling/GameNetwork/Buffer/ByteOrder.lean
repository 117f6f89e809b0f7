import GameNetwork.Lib.Bytes

/-!
# Byte order

`Buffer/ByteOrder.h`. A number of `w` bits lies in memory as its `w / 8`
bytes, least significant first on the little-endian hosts the program runs
on. `hton` and `ntoh` reverse those bytes, so that what is copied out of
memory is the big-endian form (`toMem_hton`) and what is copied in is read as
one (`ntoh_ofMem`).
-/

namespace GameNetwork

open Lib

/-- What stops a run of the program. -/
inductive Fault where
  /-- A failed `assert`, with its condition. -/
  | assertion (cond : String)
  /-- An access outside a vector's storage. -/
  | outOfBounds
  | nullDereference
  /-- `std::future_errc::future_already_retrieved`. -/
  | futureAlreadyRetrieved
  /-- `std::future_errc::promise_already_satisfied`. -/
  | promiseAlreadySatisfied
  /-- A callback on an object that no longer exists. -/
  | danglingObject
  | divisionByZero
  /-- `std::system_error`: a `join` of a thread that has been joined. -/
  | notJoinable
  /-- A loop that outran the bound the model gives it. -/
  | loopBound
  deriving DecidableEq, Repr

/-- `IsLittleEndian()`. -/
def isLittleEndian : Bool := true

/-- The bytes of a number in memory. -/
def toMem {w : Nat} (u : BitVec w) : List Byte := leBytes (w / 8) u.toNat

/-- The number whose bytes are in memory. -/
def ofMem (w : Nat) (bs : List Byte) : BitVec w := BitVec.ofNat w (leNat bs)

def swapEndian {w : Nat} (u : BitVec w) : BitVec w := ofMem w (toMem u).reverse

def hton {w : Nat} (u : BitVec w) : BitVec w := if isLittleEndian then swapEndian u else u

def ntoh {w : Nat} (u : BitVec w) : BitVec w := if isLittleEndian then swapEndian u else u

@[simp] theorem length_toMem {w : Nat} (u : BitVec w) : (toMem u).length = w / 8 := length_leBytes ..

/-- Whole bytes cover a number whose width is a multiple of eight. -/
theorem pow_bytes {w : Nat} (hw : 8 ∣ w) : 256 ^ (w / 8) = 2 ^ w := by
  obtain ⟨k, rfl⟩ := hw
  rw [Nat.mul_div_cancel_left k (by decide), Nat.pow_mul]

theorem toMem_ofMem {w : Nat} (hw : 8 ∣ w) {bs : List Byte} (hl : bs.length = w / 8) :
    toMem (ofMem w bs) = bs := by
  have hlt : leNat bs < 2 ^ w := by
    have := leNat_lt bs
    rwa [hl, pow_bytes hw] at this
  rw [toMem, ofMem, BitVec.toNat_ofNat, Nat.mod_eq_of_lt hlt, ← hl, leBytes_leNat]

/-- A number as it travels: its bytes, most significant first. -/
def wire {w : Nat} (u : BitVec w) : List Byte := beBytes (w / 8) u.toNat

/-- The number of `w` bits at the front of a byte string. -/
def numAt (w : Nat) (s : List Byte) : BitVec w := BitVec.ofNat w (beNat (s.take (w / 8)))

@[simp] theorem length_wire {w : Nat} (u : BitVec w) : (wire u).length = w / 8 := length_beBytes ..

/-- **What `AppendNumber` copies out of memory is the number's wire form.** -/
theorem toMem_hton {w : Nat} (hw : 8 ∣ w) (u : BitVec w) : toMem (hton u) = wire u := by
  simp only [hton, isLittleEndian, if_true, swapEndian]
  rw [toMem_ofMem hw (by simp)]
  rfl

/-- **What `PeekNumber` copies into memory is read as big-endian.** -/
theorem ntoh_ofMem {w : Nat} (hw : 8 ∣ w) {bs : List Byte} (hl : bs.length = w / 8) :
    ntoh (ofMem w bs) = BitVec.ofNat w (beNat bs) := by
  simp only [ntoh, isLittleEndian, if_true, swapEndian, toMem_ofMem hw hl]
  rfl

/-- A number read back from the front of a byte string. -/
theorem numAt_wire {w : Nat} (hw : 8 ∣ w) (u : BitVec w) (s : List Byte) :
    numAt w (wire u ++ s) = u := by
  apply BitVec.eq_of_toNat_eq
  rw [numAt, List.take_left' (length_wire u), wire, beNat_beBytes, pow_bytes hw,
    BitVec.toNat_ofNat, Nat.mod_mod, Nat.mod_eq_of_lt u.isLt]

/-- The bytes in front of which a number is read are its wire form. -/
theorem wire_numAt_append {w : Nat} (hw : 8 ∣ w) {s : List Byte} (h : w / 8 ≤ s.length) :
    wire (numAt w s) ++ s.drop (w / 8) = s := by
  have hlen : (s.take (w / 8)).length = w / 8 := List.length_take_of_le h
  have hlt : beNat (s.take (w / 8)) < 2 ^ w := by
    have hbytes := leNat_lt (s.take (w / 8)).reverse
    rwa [List.length_reverse, hlen, pow_bytes hw] at hbytes
  have hbytes := beBytes_beNat (s.take (w / 8))
  rw [hlen] at hbytes
  rw [wire, numAt, BitVec.toNat_ofNat, Nat.mod_eq_of_lt hlt, hbytes, List.take_append_drop]

theorem wire_append_inj {w : Nat} (hw : 8 ∣ w) {u v : BitVec w} {s t : List Byte} :
    wire u ++ s = wire v ++ t ↔ u = v ∧ s = t := by
  constructor
  · intro h
    obtain ⟨hwire, hrest⟩ := List.append_inj h (by rw [length_wire, length_wire])
    exact ⟨by rw [← numAt_wire hw u s, h, numAt_wire hw], hrest⟩
  · rintro ⟨rfl, rfl⟩
    rfl

/-- Bytes behind a number do not change it. -/
theorem numAt_append {w : Nat} {s : List Byte} (h : w / 8 ≤ s.length) (t : List Byte) :
    numAt w (s ++ t) = numAt w s := by
  rw [numAt, numAt, List.take_append_of_le_length h]

end GameNetwork
