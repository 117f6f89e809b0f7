import Mathlib.Algebra.Group.Nat.Defs
import Mathlib.Data.List.Basic
import Mathlib.Tactic.Common

/-!
# Numbers as bytes, and ranges of a flat memory

`leBytes k n` is the `k`-byte little-endian form of `n` and `leNat` reads it
back; `beBytes` and `beNat` are the same maps read from the other end. Both
pairs are inverse to each other: a number survives as `n % 256 ^ k`
(`leNat_leBytes`), and every list of bytes is the form of the number it
denotes (`leBytes_leNat`).

`load` and `store` read and overwrite a range of a list used as a memory. The
laws say what a load sees after a store: the stored data (`load_store`), or
what was there before, off the range (`load_store_before`,
`load_store_after`).
-/

namespace Lib

/-- An octet. -/
abbrev Byte := BitVec 8

/-! ## Little-endian -/

/-- The `k` little-endian bytes of `n`; what does not fit is dropped. -/
def leBytes : Nat → Nat → List Byte
  | 0, _ => []
  | k + 1, n => BitVec.ofNat 8 n :: leBytes k (n / 256)

/-- The number with the given little-endian bytes. -/
def leNat : List Byte → Nat
  | [] => 0
  | b :: bs => b.toNat + 256 * leNat bs

@[simp] theorem length_leBytes (k n : Nat) : (leBytes k n).length = k := by
  induction k generalizing n with
  | zero => rfl
  | succ k ih => simp only [leBytes, List.length_cons, ih]

theorem leNat_leBytes (k n : Nat) : leNat (leBytes k n) = n % 256 ^ k := by
  induction k generalizing n with
  | zero => simp [leBytes, leNat, Nat.mod_one]
  | succ k ih =>
    have hlow : (BitVec.ofNat 8 n).toNat = n % 256 := BitVec.toNat_ofNat n 8
    rw [leBytes, leNat, ih, hlow, Nat.pow_succ', Nat.mod_mul]

theorem leBytes_leNat (bs : List Byte) : leBytes bs.length (leNat bs) = bs := by
  induction bs with
  | nil => rfl
  | cons b bs ih =>
    have hb := b.isLt
    have hlow : BitVec.ofNat 8 (b.toNat + 256 * leNat bs) = b := by
      apply BitVec.eq_of_toNat_eq
      rw [BitVec.toNat_ofNat]; omega
    have hhigh : (b.toNat + 256 * leNat bs) / 256 = leNat bs := by omega
    simp only [List.length_cons, leNat, leBytes, hlow, hhigh, ih]

theorem leNat_lt (bs : List Byte) : leNat bs < 256 ^ bs.length := by
  induction bs with
  | nil => simp [leNat]
  | cons b bs ih =>
    have hb := b.isLt
    rw [leNat, List.length_cons, Nat.pow_succ]
    omega

/-! ## Big-endian -/

/-- The `k` big-endian bytes of `n`; what does not fit is dropped. -/
def beBytes (k n : Nat) : List Byte := (leBytes k n).reverse

/-- The number with the given big-endian bytes. -/
def beNat (bs : List Byte) : Nat := leNat bs.reverse

@[simp] theorem length_beBytes (k n : Nat) : (beBytes k n).length = k := by simp [beBytes]

theorem beNat_beBytes (k n : Nat) : beNat (beBytes k n) = n % 256 ^ k := by
  simp [beNat, beBytes, leNat_leBytes]

theorem beBytes_beNat (bs : List Byte) : beBytes bs.length (beNat bs) = bs := by
  have h := leBytes_leNat bs.reverse
  rw [List.length_reverse] at h
  rw [beBytes, beNat, h, List.reverse_reverse]

/-! ## Ranges of a memory -/

section Memory

variable {α : Type}

/-- The `n` cells from `p` on (fewer when the memory ends before). -/
def load (m : List α) (p n : Nat) : List α := (m.drop p).take n

/-- The memory with `d` written from `p` on. -/
def store (m : List α) (p : Nat) (d : List α) : List α := m.take p ++ (d ++ m.drop (p + d.length))

@[simp] theorem load_zero (m : List α) (p : Nat) : load m p 0 = [] := by simp [load]

theorem length_load {m : List α} {p n : Nat} (h : p + n ≤ m.length) : (load m p n).length = n := by
  simp only [load, List.length_take, List.length_drop]; omega

theorem length_store {m d : List α} {p : Nat} (h : p + d.length ≤ m.length) :
    (store m p d).length = m.length := by
  simp only [store, List.length_append, List.length_take, List.length_drop]; omega

/-- A range is its first `i` cells and the rest. -/
theorem load_add (m : List α) (p i j : Nat) : load m p (i + j) = load m p i ++ load m (p + i) j := by
  simp only [load, List.take_add, List.drop_drop]

theorem drop_load (m : List α) (p n i : Nat) : (load m p n).drop i = load m (p + i) (n - i) := by
  simp only [load, List.drop_take, List.drop_drop]

theorem take_load (m : List α) (p n i : Nat) : (load m p n).take i = load m p (min i n) := by
  simp only [load, List.take_take]

/-- **A load of what was just stored.** -/
theorem load_store {m d : List α} {p : Nat} (h : p + d.length ≤ m.length) :
    load (store m p d) p d.length = d := by
  have hp : (m.take p).length = p := by rw [List.length_take]; omega
  rw [load, store, List.drop_left' hp, List.take_left' rfl]

theorem load_store_before {m d : List α} {p q n : Nat} (h : p + d.length ≤ m.length)
    (hq : q + n ≤ p) : load (store m p d) q n = load m q n := by
  have hlen : n ≤ ((m.take p).drop q).length := by
    rw [List.length_drop, List.length_take]; omega
  rw [load, store, List.drop_append_of_le_length (by rw [List.length_take]; omega),
    List.take_append_of_le_length hlen, load, List.drop_take, List.take_take,
    Nat.min_eq_left (by omega)]

theorem load_store_after {m d : List α} {p q n : Nat} (h : p + d.length ≤ m.length)
    (hq : p + d.length ≤ q) : load (store m p d) q n = load m q n := by
  have hsplit : (store m p d).drop (p + d.length) = m.drop (p + d.length) := by
    rw [store, ← List.append_assoc]
    exact List.drop_left' (by rw [List.length_append, List.length_take]; omega)
  have hq' : q = p + d.length + (q - (p + d.length)) := by omega
  rw [load, load, hq', ← List.drop_drop, hsplit, List.drop_drop]

/-- A load that ends in what was just stored. -/
theorem load_store_snoc {m d : List α} {p q n : Nat} (h : p + d.length ≤ m.length)
    (hq : q + n = p) : load (store m p d) q (n + d.length) = load m q n ++ d := by
  rw [load_add, load_store_before h (by omega), hq, load_store h]

/-- A load that begins with what was just stored. -/
theorem load_store_cons {m d : List α} {p n : Nat} (h : p + d.length ≤ m.length) :
    load (store m p d) p (d.length + n) = d ++ load m (p + d.length) n := by
  rw [load_add, load_store h, load_store_after h (Nat.le_refl _)]

/-- Cells added behind the memory are not seen by a load inside it. -/
theorem load_append_left {m x : List α} {p n : Nat} (h : p + n ≤ m.length) :
    load (m ++ x) p n = load m p n := by
  rw [load, load, List.drop_append_of_le_length (by omega),
    List.take_append_of_le_length (by rw [List.length_drop]; omega)]

end Memory

end Lib
