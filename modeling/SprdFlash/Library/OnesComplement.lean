import Mathlib.Data.Nat.ModEq
import Mathlib.Algebra.BigOperators.Group.List.Basic

/-!
Addition with end-around carry of digits below a base. The sum is the number of
one digit that is congruent to the total modulo the base less one, and zero only
for a total of zero, so the carries may as well be kept and folded at the end.
-/

namespace SprdFlash.OnesComplement

variable (base : ℕ)

def add (acc digit : ℕ) : ℕ := (acc + digit) % base + (acc + digit) / base

/-- The digit a total stands for. -/
def digit (total : ℕ) : ℕ := if total = 0 then 0 else (total - 1) % (base - 1) + 1

/-- Fold the high part of a number onto its low digit. -/
def fold (total : ℕ) : ℕ := total / base + total % base

variable {base}

theorem digit_lt (big : 1 < base) (total : ℕ) : digit base total < base := by
  rw [digit]
  split
  · omega
  · have bound := Nat.mod_lt (total - 1) (show 0 < base - 1 by omega)
    omega

theorem digit_modEq (total : ℕ) : digit base total ≡ total [MOD base - 1] := by
  rw [digit]
  split
  · rename_i zero
    rw [zero]
  · rename_i some
    have shift := (Nat.mod_modEq (total - 1) (base - 1)).add_right 1
    rwa [Nat.sub_add_cancel (Nat.pos_of_ne_zero some)] at shift

theorem eq_digit (big : 1 < base) {d total : ℕ} (small : d < base) (zero : d = 0 ↔ total = 0)
    (same : d ≡ total [MOD base - 1]) : d = digit base total := by
  by_cases none : total = 0
  · rw [digit, if_pos none]
    exact zero.mpr none
  · have some : d ≠ 0 := fun h => none (zero.mp h)
    have congruent : d - 1 ≡ total - 1 [MOD base - 1] := by
      apply Nat.ModEq.add_right_cancel' 1
      rwa [Nat.sub_add_cancel (Nat.pos_of_ne_zero some),
        Nat.sub_add_cancel (Nat.pos_of_ne_zero none)]
    have low : (d - 1) % (base - 1) = d - 1 := Nat.mod_eq_of_lt (by omega)
    rw [digit, if_neg none, ← congruent, low]
    omega

theorem fold_modEq (big : 1 < base) (total : ℕ) : fold base total ≡ total [MOD base - 1] := by
  have split := Nat.div_add_mod total base
  have unit : base ≡ 1 [MOD base - 1] := by
    have self := (Nat.modEq_zero_iff_dvd.mpr (dvd_refl (base - 1))).add_right 1
    rwa [Nat.sub_add_cancel big.le, Nat.zero_add] at self
  have high := (unit.mul_right (total / base)).add_right (total % base)
  rw [split, one_mul] at high
  exact high.symm

theorem fold_eq_zero {total : ℕ} : fold base total = 0 ↔ total = 0 := by
  rw [fold]
  constructor
  · intro none
    obtain ⟨high, low⟩ := Nat.add_eq_zero_iff.mp none
    have split := Nat.div_add_mod total base
    rw [high, low, Nat.mul_zero] at split
    exact split.symm
  · rintro rfl
    simp

theorem add_digit (big : 1 < base) {total d : ℕ} (small : d < base) :
    add base (digit base total) d = digit base (total + d) := by
  have acc := digit_lt big total
  have whole : add base (digit base total) d = fold base (digit base total + d) := Nat.add_comm _ _
  have carry : (digit base total + d) / base ≤ 1 := by
    rw [← Nat.lt_succ_iff, Nat.div_lt_iff_lt_mul (by omega)]
    omega
  rw [whole]
  refine eq_digit big ?_ ?_ ?_
  · rw [fold]
    have split := Nat.div_add_mod (digit base total + d) base
    have low := Nat.mod_lt (digit base total + d) (show 0 < base by omega)
    rcases Nat.le_one_iff_eq_zero_or_eq_one.mp carry with none | one
    · omega
    · rw [one] at split ⊢
      omega
  · rw [fold_eq_zero, Nat.add_eq_zero_iff, Nat.add_eq_zero_iff]
    refine and_congr_left fun _ => ?_
    rw [digit]
    split <;> simp_all
  · exact (fold_modEq big _).trans ((digit_modEq total).add_right d)

/-- By induction on the digits: what is accumulated is the digit of the total. -/
theorem foldl_add (big : 1 < base) (digits : List ℕ) (small : ∀ d ∈ digits, d < base) (total : ℕ) :
    digits.foldl (add base) (digit base total) = digit base (total + digits.sum) := by
  induction digits generalizing total with
  | nil => rw [List.foldl_nil, List.sum_nil, Nat.add_zero]
  | cons d digits ih =>
    rw [List.foldl_cons, add_digit big (small d List.mem_cons_self),
      ih (fun e he => small e (List.mem_cons_of_mem d he)), List.sum_cons, Nat.add_assoc]

/-- Two folds are enough for a total of two digits; the second leaves at most a
carry that is dropped for the one it has added. -/
theorem fold_fold (big : 1 < base) {total : ℕ} (short : total < base * base) :
    (fold base total + fold base total / base) % base = digit base total := by
  have quotient : total / base < base := (Nat.div_lt_iff_lt_mul (by omega)).mpr short
  have low := Nat.mod_lt total (show 0 < base by omega)
  have bound : fold base total ≤ 2 * (base - 1) := by
    rw [fold]
    omega
  have carry : fold base total / base ≤ 1 := by
    rw [← Nat.lt_succ_iff, Nat.div_lt_iff_lt_mul (by omega)]
    omega
  have split := Nat.div_add_mod (fold base total) base
  have congruent := fold_modEq big total
  have zero : fold base total = 0 ↔ total = 0 := fold_eq_zero
  rcases Nat.le_one_iff_eq_zero_or_eq_one.mp carry with none | one
  · rw [none, Nat.mul_zero, Nat.zero_add] at split
    rw [none, Nat.add_zero, split]
    have small : fold base total < base := by
      rw [← split]
      exact Nat.mod_lt _ (by omega)
    exact eq_digit big small zero congruent
  · rw [one, Nat.mul_one] at split
    have once : (fold base total + 1) % base = fold base total - base + 1 := by
      have carried : fold base total + 1 = fold base total - base + 1 + base := by omega
      rw [carried, Nat.add_mod_right, Nat.mod_eq_of_lt (by omega)]
    rw [one, once]
    have again := fold_modEq big (fold base total)
    have folded : fold base (fold base total) = fold base total - base + 1 := by
      have low' : fold base total % base = fold base total - base := by omega
      rw [fold, one, low', Nat.add_comm]
    rw [folded] at again
    refine eq_digit big (by omega) ?_ (again.trans congruent)
    rw [← zero]
    omega

end SprdFlash.OnesComplement
