import Mathlib.Algebra.Field.ZMod
import Mathlib.Algebra.Polynomial.FieldDivision
import Mathlib.Data.Nat.Bitwise
import Mathlib.Data.Nat.Size

/-!
Numbers as polynomials over the field of two elements, bit by bit. Exclusive or
is their sum and a shift the product with a power of the indeterminate, so a
register that shifts towards its high end and subtracts its generator holds a
remainder.
-/

namespace SprdFlash.BitPoly

open Polynomial

noncomputable def ofNat (n : ℕ) : (ZMod 2)[X] :=
  ∑ i ∈ Finset.range n.size, if n.testBit i then X ^ i else 0

theorem coeff_ofNat (n i : ℕ) : (ofNat n).coeff i = if n.testBit i then 1 else 0 := by
  have term (j : ℕ) : (if n.testBit j then (X : (ZMod 2)[X]) ^ j else 0).coeff i =
      if i = j then (if n.testBit j then 1 else 0) else 0 := by
    by_cases bit : n.testBit j = true
    · simp [bit, coeff_X_pow]
    · simp [bit]
  rw [ofNat, finsetSum_coeff]
  simp only [term, Finset.sum_ite_eq, Finset.mem_range]
  by_cases inside : i < n.size
  · rw [if_pos inside]
  · have high : n.testBit i = false :=
      Nat.testBit_lt_two_pow (Nat.size_le.mp (Nat.not_lt.mp inside))
    rw [if_neg inside, high]
    rfl

@[simp] theorem ofNat_zero : ofNat 0 = 0 := by simp [ofNat]

@[simp] theorem ofNat_one : ofNat 1 = 1 := by
  ext i
  rw [coeff_ofNat, coeff_one]
  cases i with
  | zero => rfl
  | succ i => simp [Nat.testBit_succ]

theorem ofNat_injective : Function.Injective ofNat := by
  intro a b same
  apply Nat.eq_of_testBit_eq
  intro i
  have bit := congrArg (fun p => p.coeff i) same
  simp only [coeff_ofNat] at bit
  cases ha : a.testBit i <;> cases hb : b.testBit i <;> simp_all

theorem ofNat_xor (a b : ℕ) : ofNat (a ^^^ b) = ofNat a + ofNat b := by
  ext i
  simp only [coeff_add, coeff_ofNat, Nat.testBit_xor]
  cases a.testBit i <;> cases b.testBit i <;> decide

theorem ofNat_shiftLeft (n k : ℕ) : ofNat (n <<< k) = ofNat n * X ^ k := by
  ext i
  rw [coeff_mul_X_pow', coeff_ofNat, coeff_ofNat, Nat.testBit_shiftLeft]
  by_cases high : k ≤ i
  · simp [high]
  · simp [high]

theorem ofNat_two_pow_mul_add (a : ℕ) {b k : ℕ} (low : b < 2 ^ k) :
    ofNat (2 ^ k * a + b) = ofNat a * X ^ k + ofNat b := by
  ext i
  rw [coeff_add, coeff_mul_X_pow', coeff_ofNat, coeff_ofNat, coeff_ofNat,
    Nat.testBit_two_pow_mul_add a low]
  by_cases below : i < k
  · simp [below, Nat.not_le.mpr below]
  · have gone : b.testBit i = false :=
      Nat.testBit_lt_two_pow (low.trans_le (Nat.pow_le_pow_right (by decide) (Nat.not_lt.mp below)))
    simp [below, Nat.not_lt.mp below, gone]

theorem degree_ofNat_lt {n w : ℕ} (h : n < 2 ^ w) : (ofNat n).degree < w := by
  rw [degree_lt_iff_coeff_zero]
  intro i hi
  rw [coeff_ofNat, Nat.testBit_lt_two_pow (h.trans_le (Nat.pow_le_pow_right (by decide) hi))]
  rfl

theorem add_self (p : (ZMod 2)[X]) : p + p = 0 := by
  ext i
  rw [coeff_add, coeff_zero]
  generalize p.coeff i = c
  revert c
  decide

section Register

/-- A generator of degree `w`, as the number with its bits. -/
structure Generator (w : ℕ) where
  bits : ℕ
  top : bits.testBit w = true
  narrow : bits < 2 ^ (w + 1)

variable {w : ℕ} (G : Generator w)

namespace Generator

noncomputable def poly : (ZMod 2)[X] := ofNat G.bits

theorem poly_degree : G.poly.degree = w := by
  apply le_antisymm
  · rw [degree_le_iff_coeff_zero]
    intro i above
    have high : w + 1 ≤ i := by exact_mod_cast above
    have short : G.bits.testBit i = false :=
      Nat.testBit_lt_two_pow (G.narrow.trans_le (Nat.pow_le_pow_right (by decide) high))
    rw [poly, coeff_ofNat, short]
    rfl
  · apply le_degree_of_ne_zero
    rw [poly, coeff_ofNat, G.top]
    exact one_ne_zero

theorem poly_monic : G.poly.Monic := by
  rw [Monic, leadingCoeff, natDegree_eq_of_degree_eq_some G.poly_degree, poly, coeff_ofNat, G.top]
  rfl

theorem eq_modByMonic_of_lt {n : ℕ} (h : n < 2 ^ w) {p : (ZMod 2)[X]}
    (same : G.poly ∣ ofNat n - p) : ofNat n = p %ₘ G.poly := by
  rw [← modByMonic_eq_of_dvd_sub G.poly_monic same]
  exact ((modByMonic_eq_self_iff G.poly_monic).mpr (G.poly_degree ▸ degree_ofNat_lt h)).symm

def shiftUp (n : ℕ) : ℕ := (n <<< 1) ^^^ (if n.testBit (w - 1) then G.bits else 0)

theorem ofNat_shiftUp (n : ℕ) : ofNat (G.shiftUp n) =
    ofNat n * X + if n.testBit (w - 1) then G.poly else 0 := by
  rw [shiftUp, ofNat_xor, ofNat_shiftLeft, pow_one]
  by_cases top : n.testBit (w - 1) = true
  · rw [if_pos top, if_pos top, poly]
  · rw [if_neg top, if_neg top, ofNat_zero]

theorem shiftUp_lt {n : ℕ} (h : n < 2 ^ w) (wide : 0 < w) : G.shiftUp n < 2 ^ w := by
  apply Nat.lt_pow_two_of_testBit
  intro i hi
  rw [shiftUp, Nat.testBit_xor, Nat.testBit_shiftLeft]
  rcases Nat.eq_or_lt_of_le hi with rfl | above
  · by_cases top : n.testBit (w - 1) = true
    · simp [top, G.top, Nat.succ_le_of_lt wide]
    · simp [top]
  · have gone : n.testBit (i - 1) = false :=
      Nat.testBit_lt_two_pow (h.trans_le (Nat.pow_le_pow_right (by decide) (by omega)))
    have short : G.bits.testBit i = false :=
      Nat.testBit_lt_two_pow (G.narrow.trans_le (Nat.pow_le_pow_right (by decide) above))
    by_cases top : n.testBit (w - 1) = true
    · simp [gone, top, short]
    · simp [gone, top]

theorem shiftUp_modByMonic {n : ℕ} (h : n < 2 ^ w) (wide : 0 < w) :
    ofNat (G.shiftUp n) = (ofNat n * X) %ₘ G.poly := by
  apply G.eq_modByMonic_of_lt (G.shiftUp_lt h wide)
  rw [ofNat_shiftUp, add_sub_cancel_left]
  split
  · exact dvd_rfl
  · exact dvd_zero _

theorem iterate_shiftUp_lt {n : ℕ} (h : n < 2 ^ w) (wide : 0 < w) (k : ℕ) :
    G.shiftUp^[k] n < 2 ^ w := by
  induction k with
  | zero => exact h
  | succ k ih =>
    rw [Function.iterate_succ_apply']
    exact G.shiftUp_lt ih wide

theorem iterate_shiftUp_modByMonic {n : ℕ} (h : n < 2 ^ w) (wide : 0 < w) (k : ℕ) :
    ofNat (G.shiftUp^[k] n) = (ofNat n * X ^ k) %ₘ G.poly := by
  induction k with
  | zero =>
    rw [Function.iterate_zero_apply, pow_zero, mul_one]
    exact G.eq_modByMonic_of_lt h (by rw [sub_self]; exact dvd_zero _)
  | succ k ih =>
    rw [Function.iterate_succ_apply', G.shiftUp_modByMonic (G.iterate_shiftUp_lt h wide k) wide, ih,
      pow_succ, ← mul_assoc]
    refine modByMonic_eq_of_dvd_sub G.poly_monic ?_
    rw [← sub_mul]
    exact (dvd_modByMonic_sub _ _).mul_right X

theorem isCoprime_X (odd : G.bits.testBit 0 = true) : IsCoprime X G.poly := by
  have low : G.bits % 2 = 1 := by simpa using odd
  have split : 2 ^ 1 * (G.bits / 2) + 1 = G.bits := by omega
  have sum := ofNat_two_pow_mul_add (G.bits / 2) (show 1 < 2 ^ 1 by decide)
  rw [split, ofNat_one, pow_one] at sum
  refine ⟨ofNat (G.bits / 2), 1, ?_⟩
  rw [one_mul, poly, sum, ← add_assoc, add_self, zero_add]

/-- A burst as short as the register is not divisible. -/
theorem eq_zero_of_dvd (odd : G.bits.testBit 0 = true) {n k : ℕ} (short : n < 2 ^ w)
    (divides : G.poly ∣ ofNat n * X ^ k) : n = 0 := by
  have burst : G.poly ∣ ofNat n :=
    (G.isCoprime_X odd).symm.pow_right.dvd_of_dvd_mul_right divides
  apply ofNat_injective
  rw [ofNat_zero]
  exact eq_zero_of_dvd_of_degree_lt burst (G.poly_degree ▸ degree_ofNat_lt short)

end Generator
end Register

section Bits

/-- The polynomial of a bit string, its first bit the highest coefficient. -/
noncomputable def ofBits : List Bool → (ZMod 2)[X]
  | [] => 0
  | b :: rest => (if b then X ^ rest.length else 0) + ofBits rest

theorem ofBits_append (xs ys : List Bool) :
    ofBits (xs ++ ys) = ofBits xs * X ^ ys.length + ofBits ys := by
  induction xs with
  | nil => rw [List.nil_append, ofBits, zero_mul, zero_add]
  | cons b xs ih =>
    rw [List.cons_append, ofBits, ofBits, ih, List.length_append, ← add_assoc, add_mul]
    cases b with
    | false => rw [if_neg (by decide), if_neg (by decide), zero_mul]
    | true => rw [if_pos rfl, if_pos rfl, pow_add]

def msbFirst (n : ℕ) : ℕ → List Bool
  | 0 => []
  | w + 1 => n.testBit w :: msbFirst n w

@[simp] theorem msbFirst_length (n w : ℕ) : (msbFirst n w).length = w := by
  induction w with
  | zero => rfl
  | succ w ih => rw [msbFirst, List.length_cons, ih]

theorem ofBits_msbFirst (n w : ℕ) : ofBits (msbFirst n w) = ofNat (n % 2 ^ w) := by
  induction w with
  | zero => rw [msbFirst, ofBits, pow_zero, Nat.mod_one, ofNat_zero]
  | succ w ih =>
    rw [msbFirst, ofBits, ih, msbFirst_length]
    ext i
    rw [coeff_add, coeff_ofNat, coeff_ofNat, Nat.testBit_mod_two_pow, Nat.testBit_mod_two_pow]
    rcases Nat.lt_trichotomy i w with below | rfl | above
    · have other : (if n.testBit w then (X : (ZMod 2)[X]) ^ w else 0).coeff i = 0 := by
        split
        · rw [coeff_X_pow, if_neg (by omega)]
        · rfl
      simp [other, below, Nat.lt_succ_of_lt below]
    · by_cases top : n.testBit i = true
      · simp [top]
      · simp [top]
    · have other : (if n.testBit w then (X : (ZMod 2)[X]) ^ w else 0).coeff i = 0 := by
        split
        · rw [coeff_X_pow, if_neg (by omega)]
        · rfl
      have outside : ¬ i < w + 1 := by omega
      simp [other, outside, Nat.not_lt.mpr above.le]

/-- The low bits of a number, least significant first. -/
def lsbFirst (n : ℕ) : ℕ → List Bool
  | 0 => []
  | w + 1 => n.testBit 0 :: lsbFirst (n / 2) w

end Bits

section Mirrored

variable (taps : ℕ)

/-- One bit into a register that shifts towards its low end. -/
def shiftDown (n : ℕ) (b : Bool) : ℕ :=
  if n.testBit 0 ^^ b then (n / 2) ^^^ taps else n / 2

theorem shiftDown_xor (a b : ℕ) : shiftDown taps (a ^^^ b) false =
    shiftDown taps a false ^^^ shiftDown taps b false := by
  simp only [shiftDown, Bool.xor_false, Nat.testBit_xor, Nat.xor_div_two]
  cases a.testBit 0 <;> cases b.testBit 0
  · rfl
  · exact Nat.xor_assoc _ _ _
  · simp only [Bool.xor_false, if_true, Bool.false_eq_true, if_false]
    ac_rfl
  · have cancel : a / 2 ^^^ taps ^^^ (b / 2 ^^^ taps) = a / 2 ^^^ b / 2 ^^^ (taps ^^^ taps) := by
      ac_rfl
    simp only [Bool.xor_self, Bool.false_eq_true, if_false, if_true, cancel, Nat.xor_self,
      Nat.xor_zero]

theorem iterate_shiftDown_xor (a b k : ℕ) : (shiftDown taps · false)^[k] (a ^^^ b) =
    (shiftDown taps · false)^[k] a ^^^ (shiftDown taps · false)^[k] b := by
  induction k with
  | zero => rfl
  | succ k ih =>
    simp only [Function.iterate_succ_apply']
    rw [ih, shiftDown_xor]

theorem iterate_shiftDown_shiftLeft (n k : ℕ) :
    (shiftDown taps · false)^[k] (n <<< k) = n := by
  induction k with
  | zero => rfl
  | succ k ih =>
    have even : (n <<< (k + 1)).testBit 0 = false := by
      rw [Nat.testBit_shiftLeft]
      simp
    have half : n <<< (k + 1) / 2 = n <<< k := by
      rw [Nat.shiftLeft_succ]
      omega
    have first : shiftDown taps (n <<< (k + 1)) false = n <<< k := by
      rw [shiftDown, even, half]
      rfl
    rw [Function.iterate_succ_apply, first, ih]

/-- The bits of a number can be added before their shifts. -/
theorem foldl_lsbFirst (n : ℕ) {b k : ℕ} (low : b < 2 ^ k) :
    (lsbFirst b k).foldl (shiftDown taps) n = (shiftDown taps · false)^[k] (n ^^^ b) := by
  induction k generalizing n b with
  | zero =>
    have zero : b = 0 := by simpa using low
    rw [zero, Nat.xor_zero]
    rfl
  | succ k ih =>
    have half : b / 2 < 2 ^ k := by
      rw [pow_succ] at low
      omega
    have first : shiftDown taps n (b.testBit 0) ^^^ b / 2 = shiftDown taps (n ^^^ b) false := by
      simp only [shiftDown, Bool.xor_false, Nat.testBit_xor, Nat.xor_div_two]
      split
      · ac_rfl
      · rfl
    rw [lsbFirst, List.foldl_cons, ih _ half, first, Function.iterate_succ_apply]

end Mirrored

end SprdFlash.BitPoly
