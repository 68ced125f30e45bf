import SprdFlash.Message
import SprdFlash.Library.BitPoly
import SprdFlash.Library.OnesComplement

/-!
What the two message checksums are. The sum defers its carries to two folds, and
is still the one that carries at every word as long as no frame is too long. The
CRC is the remainder of a polynomial over the field of two elements.
-/

namespace SprdFlash.Checksums

open Message Struct

section Sum

/-- Little-endian words, a last odd byte being a low byte. -/
def words : Bytes → List ℕ
  | [] => []
  | [a] => [a.toNat]
  | a :: b :: rest => (a.toNat + 256 * b.toNat) :: words rest

/-- The sum with a carry that comes back in at every word. -/
def endAroundSum (data : Bytes) : ℕ := (words data).foldl (OnesComplement.add 65536) 0

def complement (n : ℕ) : ℕ := 65535 - n

def swapBytes (n : ℕ) : ℕ := n % 256 * 256 + n / 256

theorem words_lt (data : Bytes) : ∀ d ∈ words data, d < 65536 := by
  fun_induction words data with
  | case1 => simp
  | case2 a =>
    have ha : a.toNat < 256 := a.toNat_lt
    rw [List.forall_mem_singleton]
    omega
  | case3 a b rest ih =>
    have ha : a.toNat < 256 := a.toNat_lt
    have hb : b.toNat < 256 := b.toNat_lt
    rw [List.forall_mem_cons]
    exact ⟨by omega, ih⟩

theorem words_length_le (data : Bytes) : 2 * (words data).length ≤ data.length + 1 := by
  fun_induction words data with
  | case1 => simp
  | case2 a => simp
  | case3 a b rest ih =>
    simp only [List.length_cons]
    omega

theorem sprdTotal_eq (total : ℕ) (data : Bytes) :
    sprdTotal total data = total + (words data).sum := by
  fun_induction sprdTotal total data with
  | case1 => simp [words]
  | case2 => simp [words]
  | case3 total a b rest ih =>
    have word : a.toNat ||| (b.toNat <<< 8) = a.toNat + 256 * b.toNat := by
      have ha : a.toNat < 2 ^ 8 := a.toNat_lt
      rw [Nat.lor_comm, ← Nat.shiftLeft_add_eq_or_of_lt ha, Nat.shiftLeft_eq]
      omega
    rw [ih, words, List.sum_cons, word, Nat.add_assoc]

theorem total_lt {data : Bytes} (fits : data.length ≤ 65539) :
    sprdTotal 0 data < 65536 * 65536 := by
  have bound := List.sum_le_card_nsmul (words data) 65535 fun d hd =>
    Nat.le_of_lt_succ (words_lt data d hd)
  have length := words_length_le data
  rw [sprdTotal_eq, Nat.zero_add]
  rw [smul_eq_mul] at bound
  omega

theorem xor_ffff {n : ℕ} (small : n < 65536) : n ^^^ 0xFFFF = complement n := by
  apply Nat.eq_of_testBit_eq
  intro i
  have flipped := Nat.testBit_two_pow_sub_succ (n := 16) small i
  have subtract : 2 ^ 16 - (n + 1) = complement n := by
    rw [complement]
    omega
  have ones : (0xFFFF : ℕ) = 2 ^ 16 - 1 := rfl
  rw [Nat.testBit_xor, ones, Nat.testBit_two_pow_sub_one, ← subtract, flipped]
  by_cases inside : i < 16
  · simp [inside]
  · have high : n.testBit i = false :=
      Nat.testBit_lt_two_pow (show n < 2 ^ i from small.trans_le
        (Nat.pow_le_pow_right (by decide) (Nat.not_lt.mp inside) : 2 ^ 16 ≤ 2 ^ i))
    simp [inside, high]

theorem swap_eq {n : ℕ} (small : n < 65536) :
    ((n >>> 8) ||| ((n &&& 0xFF) <<< 8)) &&& 0xFFFF = swapBytes n := by
  have high : n >>> 8 < 2 ^ 8 := by
    rw [Nat.shiftRight_eq_div_pow]
    omega
  have low : n &&& 0xFF = n % 256 := Nat.and_two_pow_sub_one_eq_mod n 8
  have mask (m : ℕ) : m &&& 0xFFFF = m % 65536 := Nat.and_two_pow_sub_one_eq_mod m 16
  rw [Nat.lor_comm, ← Nat.shiftLeft_add_eq_or_of_lt high, mask, low, Nat.shiftLeft_eq,
    Nat.shiftRight_eq_div_pow, swapBytes]
  omega

theorem sprdChecksum_digit {data : Bytes} (short : sprdTotal 0 data < 65536 * 65536) :
    sprdChecksum data = swapBytes (complement (OnesComplement.digit 65536 (sprdTotal 0 data))) := by
  have mask (m : ℕ) : m &&& 0xFFFF = m % 65536 := Nat.and_two_pow_sub_one_eq_mod m 16
  have shift (m : ℕ) : m >>> 16 = m / 65536 := Nat.shiftRight_eq_div_pow m 16
  have folded := OnesComplement.fold_fold (show 1 < 65536 by decide) short
  have small := OnesComplement.digit_lt (show 1 < 65536 by decide) (sprdTotal 0 data)
  have bound : complement (OnesComplement.digit 65536 (sprdTotal 0 data)) < 65536 := by
    rw [complement]
    omega
  rw [OnesComplement.fold] at folded
  simp only [sprdChecksum]
  rw [← swap_eq bound, ← xor_ffff small, ← folded]
  simp only [mask, shift]

/-- The deferred carries are all folded by the two lines behind the loop, in frames
of up to 65539 bytes. -/
theorem sprdChecksum_endAround (data : Bytes) (fits : data.length ≤ 65539) :
    sprdChecksum data = swapBytes (complement (endAroundSum data)) := by
  have sum := OnesComplement.foldl_add (show 1 < 65536 by decide) (words data) (words_lt data) 0
  have zero : OnesComplement.digit 65536 0 = 0 := rfl
  rw [zero, ← sprdTotal_eq] at sum
  rw [sprdChecksum_digit (total_lt fits), endAroundSum, sum]

/-- Three words whose second fold carries once more. -/
theorem sprdChecksum_carried :
    sprdChecksum [0xFF, 0xFF, 0xFF, 0xFF, 0x01] =
        swapBytes (complement (endAroundSum [0xFF, 0xFF, 0xFF, 0xFF, 0x01])) ∧
      endAroundSum [0xFF, 0xFF, 0xFF, 0xFF, 0x01] = 1 :=
  ⟨sprdChecksum_endAround [0xFF, 0xFF, 0xFF, 0xFF, 0x01] (by decide), by decide +kernel⟩

end Sum

section Remainder

open Polynomial BitPoly

def ccitt : Generator 16 where
  bits := 0x11021
  top := by decide
  narrow := by decide

theorem ccitt_poly : ccitt.poly = X ^ 16 + X ^ 12 + X ^ 5 + 1 := by
  have split : (1 <<< 16) ^^^ (1 <<< 12) ^^^ (1 <<< 5) ^^^ 1 = ccitt.bits := by decide
  rw [Generator.poly, ← split, ofNat_xor, ofNat_xor, ofNat_xor, ofNat_shiftLeft, ofNat_shiftLeft,
    ofNat_shiftLeft, ofNat_one, one_mul, one_mul, one_mul]

def bits (data : Bytes) : List Bool := data.flatMap fun b => msbFirst b.toNat 8

noncomputable def message (data : Bytes) : (ZMod 2)[X] := ofBits (bits data)

theorem bits_length (data : Bytes) : (bits data).length = 8 * data.length := by
  induction data with
  | nil => rfl
  | cons b data ih =>
    have first : bits (b :: data) = msbFirst b.toNat 8 ++ bits data := rfl
    rw [first, List.length_append, ih, msbFirst_length, List.length_cons]
    ring

theorem message_append (xs ys : Bytes) :
    message (xs ++ ys) = message xs * X ^ (8 * ys.length) + message ys := by
  have split : bits (xs ++ ys) = bits xs ++ bits ys := List.flatMap_append
  rw [message, split, ofBits_append, bits_length]
  rfl

theorem message_byte (b : UInt8) : message [b] = ofNat b.toNat := by
  have whole : bits [b] = msbFirst b.toNat 8 := List.append_nil _
  rw [message, whole, ofBits_msbFirst, Nat.mod_eq_of_lt b.toNat_lt]

theorem message_cons (b : UInt8) (data : Bytes) :
    message (b :: data) = ofNat b.toNat * X ^ (8 * data.length) + message data := by
  rw [← message_byte, ← message_append]
  rfl

theorem crc16Shift_eq {crc : ℕ} (small : crc < 2 ^ 16) : crc16Shift crc = ccitt.shiftUp crc := by
  have top : crc &&& 0x8000 ≠ 0 ↔ crc.testBit 15 = true := by
    have bit := Nat.and_two_pow crc 15
    rw [show (0x8000 : ℕ) = 2 ^ 15 from rfl, bit]
    cases crc.testBit 15 <;> decide
  have fits := ccitt.shiftUp_lt small (by decide)
  have mask := Nat.and_two_pow_sub_one_of_lt_two_pow fits
  rw [crc16Shift, if_congr top rfl rfl]
  exact mask

theorem iterate_crc16Shift_eq {crc : ℕ} (small : crc < 2 ^ 16) (k : ℕ) :
    crc16Shift^[k] crc = ccitt.shiftUp^[k] crc := by
  induction k with
  | zero => rfl
  | succ k ih =>
    rw [Function.iterate_succ_apply', Function.iterate_succ_apply', ih,
      crc16Shift_eq (ccitt.iterate_shiftUp_lt small (by decide) k)]

theorem crc16Byte_modByMonic {crc : ℕ} (small : crc < 2 ^ 16) (b : UInt8) :
    ofNat (crc16Byte crc b) = (ofNat crc * X ^ 8 + ofNat b.toNat * X ^ 16) %ₘ ccitt.poly := by
  have high : b.toNat <<< 8 < 2 ^ 16 := by
    have hb : b.toNat < 256 := b.toNat_lt
    rw [Nat.shiftLeft_eq]
    omega
  have mixed := Nat.xor_lt_two_pow small high
  rw [crc16Byte, iterate_crc16Shift_eq mixed, ccitt.iterate_shiftUp_modByMonic mixed (by decide),
    ofNat_xor, ofNat_shiftLeft, add_mul, mul_assoc, ← pow_add]

/-- By induction on the bytes: the register holds the remainder of what went before. -/
theorem crc16_foldl_modByMonic {crc : ℕ} (small : crc < 2 ^ 16) (data : Bytes) :
    ofNat (data.foldl crc16Byte crc) =
      (ofNat crc * X ^ (8 * data.length) + message data * X ^ 16) %ₘ ccitt.poly := by
  induction data generalizing crc with
  | nil =>
    have nothing : message [] = 0 := rfl
    rw [List.foldl_nil, nothing, zero_mul, add_zero, List.length_nil, Nat.mul_zero,
      pow_zero, mul_one]
    exact ccitt.eq_modByMonic_of_lt small (by rw [sub_self]; exact dvd_zero _)
  | cons b data ih =>
    rw [List.foldl_cons, ih (crc16Byte_lt crc b), crc16Byte_modByMonic small, message_cons,
      List.length_cons]
    refine modByMonic_eq_of_dvd_sub ccitt.poly_monic ?_
    have factor : (ofNat crc * X ^ 8 + ofNat b.toNat * X ^ 16) %ₘ ccitt.poly *
          X ^ (8 * data.length) + message data * X ^ 16 - (ofNat crc * X ^ (8 * (data.length + 1)) +
          (ofNat b.toNat * X ^ (8 * data.length) + message data) * X ^ 16) =
        ((ofNat crc * X ^ 8 + ofNat b.toNat * X ^ 16) %ₘ ccitt.poly -
          (ofNat crc * X ^ 8 + ofNat b.toNat * X ^ 16)) * X ^ (8 * data.length) := by
      ring
    rw [factor]
    exact (dvd_modByMonic_sub _ _).mul_right _

theorem crc16_modByMonic (data : Bytes) :
    ofNat (crc16 data 0) = (message data * X ^ 16) %ₘ ccitt.poly := by
  have whole := crc16_foldl_modByMonic (show 0 < 2 ^ 16 by decide) data
  rwa [ofNat_zero, zero_mul, zero_add] at whole

theorem crc16_append (xs ys : Bytes) : crc16 (xs ++ ys) 0 = crc16 ys (crc16 xs 0) := by
  have small : crc16 xs 0 &&& 0xFFFF = crc16 xs 0 :=
    Nat.and_two_pow_sub_one_of_lt_two_pow (n := 16) (crc16_lt xs 0)
  rw [crc16, crc16, List.foldl_append, small]
  rfl

theorem message_field {n : ℕ} (small : n < 65536) : message (field .big 2 n) = ofNat n := by
  have two : field .big 2 n = [UInt8.ofNat (n / 256), UInt8.ofNat n] := rfl
  have high : (UInt8.ofNat (n / 256)).toNat = n / 256 := by
    rw [UInt8.toNat_ofNat']
    omega
  have low : (UInt8.ofNat n).toNat = n % 256 := UInt8.toNat_ofNat'
  have joined : 2 ^ 8 * (n / 256) + n % 256 = n := Nat.div_add_mod n 256
  have split := ofNat_two_pow_mul_add (n / 256) (show n % 256 < 2 ^ 8 from Nat.mod_lt n (by decide))
  rw [joined] at split
  rw [two, message_cons, message_byte, high, low, split]
  rfl

theorem crc16_trailer (data : Bytes) : crc16 (data ++ field .big 2 (crc16 data 0)) 0 = 0 := by
  have twice : message data * X ^ (8 * 2) + ofNat (crc16 data 0) =
      ofNat (crc16 data 0) - message data * X ^ 16 := by
    rw [sub_eq_add_neg, neg_eq_of_add_eq_zero_left (add_self (message data * X ^ 16)), add_comm]
  apply ofNat_injective
  rw [crc16_modByMonic, ofNat_zero, message_append, message_field (crc16_lt data 0), field_length,
    twice, crc16_modByMonic]
  exact (modByMonic_eq_zero_iff_dvd ccitt.poly_monic).mpr ((dvd_modByMonic_sub _ _).mul_right _)

/-- The loop divides polynomials: it can stop and go on anywhere, and a message with
its CRC leaves no remainder. -/
theorem crc16_division (data more : Bytes) :
    ofNat (crc16 data 0) = (message data * X ^ 16) %ₘ (X ^ 16 + X ^ 12 + X ^ 5 + 1) ∧
      crc16 data 0 < 2 ^ 16 ∧ crc16 (data ++ more) 0 = crc16 more (crc16 data 0) ∧
      crc16 (data ++ field .big 2 (crc16 data 0)) 0 = 0 :=
  ⟨ccitt_poly ▸ crc16_modByMonic data, crc16_lt data 0, crc16_append data more, crc16_trailer data⟩

end Remainder

end SprdFlash.Checksums
