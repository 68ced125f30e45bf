import SprdFlash.Checksums
import SprdFlash.Handshake

/-!
One byte of a message changed. In the sum it weighs 1 or 256 by its place, which is
less than the modulus 65535; in the CRC it is a burst shorter than the register. So
the checksum of the mode the message was built in no longer fits.
-/

namespace SprdFlash.SingleByte

open Message Struct Checksums Handshake

section Sum

def weight (i : ℕ) : ℕ := if i % 2 = 0 then 1 else 256

theorem weight_cases (i : ℕ) : weight i = 1 ∨ weight i = 256 := by
  unfold weight
  split
  · exact .inl rfl
  · exact .inr rfl

theorem words_set (data : Bytes) {i : ℕ} (inside : i < data.length) (b : UInt8) :
    (words (data.set i b)).sum + weight i * data[i].toNat =
      (words data).sum + weight i * b.toNat := by
  fun_induction words data generalizing i with
  | case1 => simp at inside
  | case2 a =>
    have first : i = 0 := by simpa using inside
    subst first
    simp [words, weight]
    omega
  | case3 a c rest ih =>
    rcases i with _ | _ | i
    · simp [words, weight]
      omega
    · simp [words, weight]
      omega
    · have same : weight (i + 2) = weight i := by rw [weight, weight, Nat.add_mod_right]
      have later := ih (i := i) (by simpa using inside)
      simp only [List.set_cons_succ, words, List.sum_cons, List.getElem_cons_succ, same]
      omega

theorem swapBytes_complement_injective {x y : ℕ} (hx : x < 65536) (hy : y < 65536)
    (same : swapBytes (complement x) = swapBytes (complement y)) : x = y := by
  simp only [swapBytes, complement] at same
  omega

/-- Equal checksums come from totals that are equal modulo 65535. -/
theorem sprdChecksum_modEq {xs ys : Bytes} (hx : xs.length ≤ 65539) (hy : ys.length ≤ 65539)
    (same : sprdChecksum xs = sprdChecksum ys) : (words xs).sum ≡ (words ys).sum [MOD 65535] := by
  have total (data : Bytes) : sprdTotal 0 data = (words data).sum := by
    rw [sprdTotal_eq, Nat.zero_add]
  rw [sprdChecksum_digit (total_lt hx), sprdChecksum_digit (total_lt hy), total, total] at same
  have digits := swapBytes_complement_injective (OnesComplement.digit_lt (by decide) _)
    (OnesComplement.digit_lt (by decide) _) same
  have left : OnesComplement.digit 65536 (words xs).sum ≡ (words xs).sum [MOD 65535] :=
    OnesComplement.digit_modEq _
  have right : OnesComplement.digit 65536 (words ys).sum ≡ (words ys).sum [MOD 65535] :=
    OnesComplement.digit_modEq _
  exact left.symm.trans (digits ▸ right)

theorem sprdChecksum_set_ne {data : Bytes} (fits : data.length ≤ 65539) {i : ℕ}
    (inside : i < data.length) {b : UInt8} (other : b ≠ data[i]) :
    sprdChecksum (data.set i b) ≠ sprdChecksum data := by
  intro same
  have balance := words_set data inside b
  have congruent := sprdChecksum_modEq (by rwa [List.length_set]) fits same
  have old : data[i].toNat < 256 := data[i].toNat_lt
  have new : b.toNat < 256 := b.toNat_lt
  have ne : b.toNat ≠ data[i].toNat := fun h => other (UInt8.toNat_inj.mp h)
  have weights : weight i * data[i].toNat ≡ weight i * b.toNat [MOD 65535] := by
    have shifted := congruent.add_right (weight i * data[i].toNat)
    rw [balance] at shifted
    exact (Nat.ModEq.add_left_cancel' _ shifted).symm
  rcases weight_cases i with one | high
  · rw [one] at weights
    have equal := Nat.ModEq.eq_of_lt_of_lt weights (by omega) (by omega)
    omega
  · rw [high] at weights
    have equal := Nat.ModEq.eq_of_lt_of_lt weights (by omega) (by omega)
    omega

end Sum

section Remainder

open Polynomial BitPoly

theorem message_set (data : Bytes) {i : ℕ} (inside : i < data.length) (b : UInt8) :
    message (data.set i b) =
      message data + ofNat (data[i].toNat ^^^ b.toNat) * X ^ (8 * (data.length - 1 - i)) := by
  induction data generalizing i with
  | nil => simp at inside
  | cons a data ih =>
    cases i with
    | zero =>
      have twice := add_self (ofNat a.toNat * X ^ (8 * data.length))
      rw [List.set_cons_zero, message_cons, message_cons, List.getElem_cons_zero, ofNat_xor,
        List.length_cons, Nat.add_sub_cancel, Nat.sub_zero, add_mul]
      calc ofNat b.toNat * X ^ (8 * data.length) + message data
        _ = 0 + message data + ofNat b.toNat * X ^ (8 * data.length) := by
            rw [zero_add, add_comm]
        _ = _ := by
            rw [← twice]
            ac_rfl
    | succ i =>
      have later := ih (i := i) (by simpa using inside)
      have place : (a :: data).length - 1 - (i + 1) = data.length - 1 - i := by
        rw [List.length_cons]
        omega
      rw [List.set_cons_succ, message_cons, message_cons, List.length_set, later,
        List.getElem_cons_succ, place, add_assoc]

theorem crc16_set_ne {data : Bytes} {i : ℕ} (inside : i < data.length) {b : UInt8}
    (other : b ≠ data[i]) : crc16 (data.set i b) 0 ≠ crc16 data 0 := by
  intro same
  have remainders := congrArg ofNat same
  rw [crc16_modByMonic, crc16_modByMonic, message_set data inside b, add_mul, add_modByMonic,
    add_eq_left, modByMonic_eq_zero_iff_dvd ccitt.poly_monic, mul_assoc, ← pow_add] at remainders
  have old : data[i].toNat < 2 ^ 8 := data[i].toNat_lt
  have new : b.toNat < 2 ^ 8 := b.toNat_lt
  have short : data[i].toNat ^^^ b.toNat < 2 ^ 16 :=
    (Nat.xor_lt_two_pow old new).trans (by decide)
  have none := ccitt.eq_zero_of_dvd (by decide) short remainders
  exact other (UInt8.toNat_inj.mp (Nat.xor_eq_zero_iff.mp none).symm)

end Remainder

section Body

theorem checksumFor_set_ne (mode : Checksum) {data : Bytes} (fits : data.length ≤ 65539) {i : ℕ}
    (inside : i < data.length) {b : UInt8} (other : b ≠ data[i]) :
    checksumFor mode (data.set i b) ≠ checksumFor mode data := by
  cases mode with
  | sprd => exact sprdChecksum_set_ne fits inside other
  | crc => exact crc16_set_ne inside other

/-- In the part a checksum covers or in the checksum itself. -/
theorem messageBody_set_unverified {cmd : ℕ} {data : Bytes} (fits : data.length < 65536)
    (mode : Checksum) {i : ℕ} (inside : i < (messageBody cmd data mode).length) {b : UInt8}
    (other : b ≠ (messageBody cmd data mode)[i]) :
    ¬ Verifies mode ((messageBody cmd data mode).set i b) := by
  have length : (covered cmd data).length = data.length + 4 := by
    simp [covered, fields]
    omega
  have trailer : (field .big 2 (checksumFor mode (covered cmd data))).length = 2 :=
    field_length _ _ _
  have small : checksumFor mode (covered cmd data) < 256 ^ 2 := checksumFor_lt mode _
  rintro ⟨-, same⟩
  rw [List.length_set, messageBody_length, Nat.add_sub_assoc (by decide)] at same
  rw [messageBody_length] at inside
  by_cases front : i < (covered cmd data).length
  · have changed : (messageBody cmd data mode).set i b = (covered cmd data).set i b ++
        field .big 2 (checksumFor mode (covered cmd data)) := List.set_append_left i b front
    have size : ((covered cmd data).set i b).length = data.length + (6 - 2) := by
      rw [List.length_set, length]
    rw [changed, List.drop_left' size, List.take_left' size, unpack_field .big 2 _ small] at same
    have old : (messageBody cmd data mode)[i] = (covered cmd data)[i] :=
      List.getElem_append_left front
    exact checksumFor_set_ne mode (by omega) front (old ▸ other) same.symm
  · have back := Nat.not_lt.mp front
    have changed : (messageBody cmd data mode).set i b = covered cmd data ++
        (field .big 2 (checksumFor mode (covered cmd data))).set
          (i - (covered cmd data).length) b :=
      List.set_append_right i b back
    have size : (covered cmd data).length = data.length + (6 - 2) := length
    rw [changed, List.drop_left' size, List.take_left' size] at same
    have refilled := congrArg (field .big 2) same
    rw [field_unpack_of_length .big (by rw [List.length_set, trailer])] at refilled
    have inTrailer : i - (covered cmd data).length <
        (field .big 2 (checksumFor mode (covered cmd data))).length := by omega
    have old : (messageBody cmd data mode)[i] =
        (field .big 2 (checksumFor mode (covered cmd data)))[i - (covered cmd data).length] :=
      List.getElem_append_right back
    have kept := List.getElem_set_self (l := field .big 2 (checksumFor mode (covered cmd data)))
      (a := b) (by rwa [List.length_set])
    simp only [refilled] at kept
    exact other (kept.symm.trans old.symm)

theorem detectChecksum_ne {mode : Checksum} {body : Bytes} (unverified : ¬ Verifies mode body) :
    detectChecksum body ≠ some mode := by
  rw [detectChecksum_eq]
  cases mode with
  | sprd =>
    rw [if_neg unverified]
    split <;> simp
  | crc =>
    rw [if_neg unverified]
    split <;> simp

/-- A message with one byte of its body changed does not pass for one of its own mode. -/
theorem changed_byte_detected {cmd : ℕ} {data : Bytes} (hcmd : cmd < 65536)
    (hdata : data.length ≤ 65535) (mode : Checksum) :
    ∃ body, buildMessage cmd data mode = .ok ([hdlcFlag] ++ hdlcEscape body ++ [hdlcFlag]) ∧
      ∀ i (inside : i < body.length) b, b ≠ body[i] →
        detectChecksum (body.set i b) ≠ some mode := by
  have fits : data.length < 65536 := Nat.lt_succ_of_le hdata
  refine ⟨messageBody cmd data mode, ?_, fun i inside b other => ?_⟩
  · rw [buildMessage_ok hcmd fits, hdlcEscape_eq]
    rfl
  · exact detectChecksum_ne (messageBody_set_unverified fits mode inside other)

theorem changed_byte_detected_connect :
    (0 < 65536 ∧ ([0x7E] : Bytes).length ≤ 65535) ∧
      ∃ body, buildMessage 0 [0x7E] .crc = .ok ([hdlcFlag] ++ hdlcEscape body ++ [hdlcFlag]) ∧
        ∀ i (inside : i < body.length) b, b ≠ body[i] →
          detectChecksum (body.set i b) ≠ some .crc :=
  ⟨by decide, changed_byte_detected (by decide) (by decide) .crc⟩

end Body

end SprdFlash.SingleByte
