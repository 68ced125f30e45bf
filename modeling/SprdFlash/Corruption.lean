import Mathlib.Tactic.IntervalCases
import SprdFlash.Pac
import SprdFlash.Library.Register

/-!
Corruption detection in `.pac` files. The table-driven CRC of the parser is a
Galois register absorbing bytes, so two files that differ within two
neighbouring bytes of one protected area cannot both satisfy its stored CRC.
A change in the header can also redirect the parse; every way it can do so
ends in `ValueError` or in a header whose CRC is wrong.
-/

namespace SprdFlash.Pac

open Struct

/-- Eight shifts of the reflected register with polynomial 0xA001. -/
def arc : Register 16 := (Register.galois 0xA001#16 (by decide)).iterate 8

def symbol (b : UInt8) : BitVec 16 := BitVec.ofNat 16 b.toNat

theorem symbol_toNat (b : UInt8) : (symbol b).toNat = b.toNat := by
  have hb : b.toNat < 256 := UInt8.toNat_lt b
  rw [symbol, BitVec.toNat_ofNat]
  omega

theorem symbol_injective : Function.Injective symbol := by
  intro b c same
  have h := congrArg BitVec.toNat same
  rw [symbol_toNat, symbol_toNat] at h
  exact UInt8.toNat_inj.mp h

theorem shiftDown_toNat (x : BitVec 16) : (Register.shiftDown 0xA001#16 x).toNat =
    if x.toNat &&& 1 ≠ 0 then (x.toNat >>> 1) ^^^ 0xA001 else x.toNat >>> 1 := by
  have low : x.getLsbD 0 = decide (x.toNat &&& 1 ≠ 0) := by
    rw [BitVec.getLsbD, Nat.testBit_zero, Nat.and_one_is_mod]
    rcases Nat.mod_two_eq_zero_or_one x.toNat with h | h <;> simp [h]
  rw [Register.shiftDown, low]
  split_ifs with h₁ h₂ h₂
  · simp
  · simp_all
  · simp_all
  · simp

theorem crcTableEntry_toNat (x : BitVec 16) : crcTableEntry x.toNat = (arc.step x).toNat := by
  change _ = ((Register.shiftDown 0xA001#16)^[8] x).toNat
  rw [crcTableEntry]
  induction 8 generalizing x with
  | zero => rfl
  | succ n ih =>
    rw [Function.iterate_succ_apply, Function.iterate_succ_apply, ← ih, shiftDown_toNat]

theorem crc16Table_getD {i : ℕ} (h : i < 256) : crc16Table.getD i 0 = crcTableEntry i := by
  simp [crc16Table, List.getD_eq_getElem?_getD, h]

theorem low_byte (x : BitVec 16) : (x ^^^ ((x >>> 8) <<< 8)).toNat = x.toNat &&& 0xFF := by
  have bits : x ^^^ ((x >>> 8) <<< 8) = x &&& 0xFF#16 := by
    apply BitVec.eq_of_getLsbD_eq
    intro i hi
    interval_cases i <;> simp
  rw [bits, BitVec.toNat_and]
  rfl

theorem crc16Byte_eq (x : BitVec 16) (b : UInt8) :
    crc16Byte x.toNat b = (arc.step (x ^^^ symbol b)).toNat := by
  have hb : b.toNat < 256 := UInt8.toNat_lt b
  have sum : x.toNat ^^^ b.toNat = (x ^^^ symbol b).toNat := by
    rw [BitVec.toNat_xor, symbol_toNat]
  have index : (x.toNat ^^^ b.toNat) &&& 0xFF < 256 :=
    lt_of_le_of_lt Nat.and_le_right (by norm_num)
  have high : x.toNat >>> 8 = ((x ^^^ symbol b) >>> 8).toNat := by
    rw [BitVec.toNat_ushiftRight, ← sum, Nat.shiftRight_xor_distrib,
      Nat.shiftRight_eq_zero b.toNat 8 hb, Nat.xor_zero]
  rw [crc16Byte, crc16Table_getD index, arc, Register.iterate_galois_step, BitVec.toNat_xor,
    ← arc, ← crcTableEntry_toNat, low_byte, ← sum, high]

theorem crc16_eq_digest (data : Bytes) (x : BitVec 16) :
    crc16 data x.toNat = (arc.digest x (data.map symbol)).toNat := by
  induction data generalizing x with
  | nil => rfl
  | cons b data ih =>
    rw [crc16, List.foldl_cons, crc16Byte_eq, ← crc16, ih]
    rfl

theorem crc16_zero (data : Bytes) : crc16 data 0 = (arc.digest 0 (data.map symbol)).toNat :=
  crc16_eq_digest data 0

theorem crc16_lt (data : Bytes) : crc16 data 0 < 2 ^ 16 := by
  rw [crc16_zero]
  exact BitVec.isLt _

theorem arc_apart (d : BitVec 16) (small : d.toNat < 256) (image : (arc.step d).toNat < 256) :
    d = 0 := by
  have table : ∀ i < 256, crcTableEntry i < 256 → i = 0 := by decide +kernel
  rw [← crcTableEntry_toNat] at image
  exact BitVec.eq_of_toNat_eq (table d.toNat small image)

def Window (xs ys : Bytes) (p : ℕ) : Prop :=
  xs.length = ys.length ∧ ∀ i, i ≠ p → i ≠ p + 1 → xs[i]? = ys[i]?

theorem Window.eq_of_crc16 {xs ys : Bytes} {p : ℕ} (window : Window xs ys p)
    (same : crc16 xs 0 = crc16 ys 0) : xs = ys := by
  have small (zs : Bytes) : ∀ d ∈ zs.map symbol, d.toNat < 256 := by
    intro d hd
    obtain ⟨b, -, rfl⟩ := List.mem_map.mp hd
    rw [symbol_toNat]
    exact UInt8.toNat_lt b
  have digests : arc.digest 0 (xs.map symbol) = arc.digest 0 (ys.map symbol) := by
    apply BitVec.eq_of_toNat_eq
    rw [← crc16_eq_digest, ← crc16_eq_digest]
    exact same
  have mapped := arc.eq_of_digest_eq_of_window (S := fun d => d.toNat < 256)
    (fun x y hx hy => by
      rw [BitVec.toNat_xor]
      exact Nat.xor_lt_two_pow (n := 8) hx hy)
    arc_apart (small xs) (small ys) (by simpa using window.1) p
    (fun i h₀ h₁ => by simp [window.2 i h₀ h₁]) digests
  exact (List.map_injective_iff.mpr symbol_injective) mapped

/-- A change within two neighbouring bytes of one protected area. -/
structure LocalDamage (content damaged : Bytes) (p : ℕ) : Prop where
  window : Window content damaged p
  inside : p + 1 < pacHeaderSize - 4 ∨ pacHeaderSize ≤ p
  differs : content ≠ damaged

theorem Window.readAt_eq {xs ys : Bytes} {p : ℕ} (window : Window xs ys p) {offset size : ℕ}
    (apart : p + 1 < offset ∨ offset + size ≤ p) :
    readAt xs offset size = readAt ys offset size := by
  apply List.ext_getElem?
  intro i
  rw [readAt, readAt, List.getElem?_take, List.getElem?_take]
  split_ifs with h
  · rw [List.getElem?_drop, List.getElem?_drop]
    exact window.2 (offset + i) (by omega) (by omega)
  · rfl

theorem Window.take {xs ys : Bytes} {p : ℕ} (window : Window xs ys p) (n : ℕ) :
    Window (xs.take n) (ys.take n) p := by
  refine ⟨by simp [window.1], fun i h₀ h₁ => ?_⟩
  simp only [List.getElem?_take, window.2 i h₀ h₁]

theorem Window.drop {xs ys : Bytes} {p n : ℕ} (window : Window xs ys p) (h : n ≤ p) :
    Window (xs.drop n) (ys.drop n) (p - n) := by
  refine ⟨by simp [window.1], fun i h₀ h₁ => ?_⟩
  simp only [List.getElem?_drop]
  exact window.2 (n + i) (by omega) (by omega)

theorem LocalDamage.crc_ne_of_header {content damaged : Bytes} {p : ℕ}
    (damage : LocalDamage content damaged p) (h : p + 1 < 2120) :
    crc16 (content.take 2120) 0 ≠ crc16 (damaged.take 2120) 0 := by
  intro same
  have front := (damage.window.take 2120).eq_of_crc16 same
  have back : content.drop 2120 = damaged.drop 2120 := by
    apply List.ext_getElem?
    intro i
    rw [List.getElem?_drop, List.getElem?_drop]
    exact damage.window.2 (2120 + i) (by omega) (by omega)
  apply damage.differs
  rw [← List.take_append_drop 2120 content, front, back, List.take_append_drop]

theorem LocalDamage.crc_ne_of_payload {content damaged : Bytes} {p : ℕ}
    (damage : LocalDamage content damaged p) (h : pacHeaderSize ≤ p) :
    crc16 (content.drop pacHeaderSize) 0 ≠ crc16 (damaged.drop pacHeaderSize) 0 := by
  intro same
  have back := (damage.window.drop h).eq_of_crc16 same
  have front : content.take pacHeaderSize = damaged.take pacHeaderSize := by
    have header := damage.window.readAt_eq (.inr (by simpa using h) : p + 1 < 0 ∨
      0 + pacHeaderSize ≤ p)
    simpa only [readAt, List.drop_zero] using header
  apply damage.differs
  rw [← List.take_append_drop pacHeaderSize content, front, back, List.take_append_drop]

/-- Local damage to an accepted file with good checksums is never accepted with
good checksums. -/
theorem crcOk_false_of_localDamage {path damaged : PacFile} {info info' : PacInfo} {p : ℕ}
    (accepted : parsePac path true = .ok info) (good : info.crcOk = true)
    (damage : LocalDamage path.content damaged.content p)
    (reparsed : parsePac damaged true = .ok info') : info'.crcOk = false := by
  obtain ⟨-, -, -, header, payload⟩ := parsePac_eq_ok accepted
  obtain ⟨-, -, -, header', payload'⟩ := parsePac_eq_ok reparsed
  simp only [PacInfo.crcOk, header, payload, Bool.and_eq_true, decide_eq_true_eq, bne_iff_ne,
    ne_eq, Option.some.injEq, decide_eq_false_iff_not, not_not] at good
  rcases damage.inside with inHeader | inPayload
  · have stored : u16At damaged.content 2120 = u16At path.content 2120 := by
      rw [u16At, u16At, damage.window.readAt_eq (.inl (by simpa [pacHeaderSize] using inHeader))]
    have wrong : ¬ crc16 (damaged.content.take 2120) 0 = u16At damaged.content 2120 := by
      rw [stored, ← good.1]
      exact (damage.crc_ne_of_header inHeader).symm
    simp [PacInfo.crcOk, header', wrong]
  · have stored : u16At damaged.content 2122 = u16At path.content 2122 := by
      rw [u16At, u16At, damage.window.readAt_eq (.inr (by simpa [pacHeaderSize] using inPayload))]
    have wrong : ¬ crc16 (damaged.content.drop pacHeaderSize) 0 = u16At damaged.content 2122 := by
      rw [stored, ← good.2]
      exact (damage.crc_ne_of_payload inPayload).symm
    simp [PacInfo.crcOk, payload', wrong]

end SprdFlash.Pac
