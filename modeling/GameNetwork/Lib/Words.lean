import Mathlib.Data.List.Basic

/-!
# Words that commute

A word `w` commutes with a word `c` when `w ++ c = c ++ w`. Copies of `w` at
the front of `c` can be taken off (`commute_iff`), so that only a remainder
shorter than `w` is left to look at; a word that no proper beginning of its
own commutes with, commutes with its powers only (`commute_iff_power`).
-/

namespace Lib

section Words

variable {α : Type}

/-- `n` copies of `w`. -/
def power (w : List α) (n : Nat) : List α := (List.replicate n w).flatten

@[simp] theorem power_zero (w : List α) : power w 0 = [] := rfl

theorem power_succ (w : List α) (n : Nat) : power w (n + 1) = w ++ power w n := by
  rw [power, List.replicate_succ, List.flatten_cons]
  rfl

theorem length_power (w : List α) (n : Nat) : (power w n).length = n * w.length := by
  simp [power]

theorem power_comm (w : List α) (n : Nat) : w ++ power w n = power w n ++ w := by
  induction n with
  | zero => simp
  | succ n ih => rw [power_succ, List.append_assoc, ← ih]

/-- **A word that commutes with `w` is copies of `w` and a shorter word that commutes with `w`.** -/
theorem commute_iff {w c : List α} (hw : w ≠ []) :
    w ++ c = c ++ w ↔ ∃ n r, c = power w n ++ r ∧ r.length < w.length ∧ w ++ r = r ++ w := by
  constructor
  · intro h
    induction hl : c.length using Nat.strongRecOn generalizing c with
    | ind l ih =>
    have hpos : 0 < w.length := List.length_pos_iff.mpr hw
    by_cases hshort : c.length < w.length
    · exact ⟨0, c, rfl, hshort, h⟩
    obtain ⟨d, rfl⟩ : w <+: c :=
      List.prefix_of_prefix_length_le ⟨c, h⟩ ⟨w, rfl⟩ (Nat.le_of_not_lt hshort)
    rw [List.append_assoc] at h
    have hd : w ++ d = d ++ w := List.append_cancel_left h
    rw [List.length_append] at hl
    obtain ⟨n, r, rfl, hr, hcomm⟩ := ih d.length (by omega) hd rfl
    exact ⟨n + 1, r, by rw [power_succ, List.append_assoc], hr, hcomm⟩
  · rintro ⟨n, r, rfl, -, hcomm⟩
    rw [← List.append_assoc, power_comm, List.append_assoc, hcomm, List.append_assoc]

/-- **A word with which no proper beginning of it commutes, commutes with its powers only.** -/
theorem commute_iff_power {w c : List α} (hw : w ≠ [])
    (hprim : ∀ k < w.length, w ++ w.take k = w.take k ++ w → k = 0) :
    w ++ c = c ++ w ↔ ∃ n, c = power w n := by
  rw [commute_iff hw]
  constructor
  · rintro ⟨n, r, rfl, hr, hcomm⟩
    have hprefix : r <+: w :=
      List.prefix_of_prefix_length_le ⟨w, hcomm.symm⟩ ⟨r, rfl⟩ (Nat.le_of_lt hr)
    have htake : r = w.take r.length := List.prefix_iff_eq_take.mp hprefix
    have hnil : r = [] := by
      refine List.eq_nil_of_length_eq_zero (hprim r.length hr ?_)
      rw [← htake]
      exact hcomm
    exact ⟨n, by rw [hnil, List.append_nil]⟩
  · rintro ⟨n, rfl⟩
    exact ⟨n, [], by simp, List.length_pos_iff.mpr hw, by simp⟩

end Words

end Lib
