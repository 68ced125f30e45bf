import Mathlib.Data.List.Basic
import Mathlib.Tactic.Linarith
import Mathlib.Tactic.Ring

/-!
Byte strings, exceptions and the `struct.pack` / `struct.unpack` calls of the
package. Every format string the package packs holds one repeated unsigned
field, so a format is a byte order, a field width and the list of values.
Packing a value that does not fit its field raises `struct.error`, as in the
standard library. Signed formats and native alignment never occur.
-/

namespace SprdFlash

abbrev Bytes := List UInt8

/-- The exceptions the package raises or lets through, with their messages. -/
inductive Exc
  | timeoutError (msg : String)
  | valueError (msg : String)
  | protocolError (msg : String)
  | pdlError (msg : String)
  | flashError (msg : String)
  | structError (msg : String)
  | indexError (msg : String)
  | keyError (msg : String)
  | osError (msg : String)
  | usbUnavailable (msg : String)
  deriving DecidableEq, Repr

def hex (width n : ℕ) : String :=
  let digits := Nat.toDigits 16 n
  String.ofList (List.replicate (width - digits.length) '0' ++ digits)

namespace Struct

inductive ByteOrder
  | big
  | little
  deriving DecidableEq, Repr

/-- The `width` low octets of `n`, least significant first. -/
def octets : (width n : ℕ) → Bytes
  | 0, _ => []
  | width + 1, n => UInt8.ofNat n :: octets width (n / 256)

def fromOctets : Bytes → ℕ
  | [] => 0
  | b :: rest => b.toNat + 256 * fromOctets rest

@[simp] theorem octets_length (width n : ℕ) : (octets width n).length = width := by
  induction width generalizing n with
  | zero => rfl
  | succ width ih => simp [octets, ih]

theorem fromOctets_octets (width n : ℕ) (fits : n < 256 ^ width) :
    fromOctets (octets width n) = n := by
  induction width generalizing n with
  | zero =>
    have hn : n = 0 := by simpa using fits
    simp [octets, fromOctets, hn]
  | succ width ih =>
    have tail : n / 256 < 256 ^ width := by
      rw [Nat.div_lt_iff_lt_mul (by norm_num)]
      simpa only [pow_succ] using fits
    have head : (UInt8.ofNat n).toNat = n % 256 := UInt8.toNat_ofNat'
    rw [octets, fromOctets, ih _ tail, head]
    omega

theorem fromOctets_lt (bs : Bytes) : fromOctets bs < 256 ^ bs.length := by
  induction bs with
  | nil => simp [fromOctets]
  | cons b rest ih =>
    have hb : b.toNat < 256 := UInt8.toNat_lt b
    rw [fromOctets, List.length_cons, pow_succ]
    omega

theorem octets_fromOctets (bs : Bytes) : octets bs.length (fromOctets bs) = bs := by
  induction bs with
  | nil => rfl
  | cons b rest ih =>
    have hb : b.toNat < 256 := UInt8.toNat_lt b
    have head : UInt8.ofNat (b.toNat + 256 * fromOctets rest) = b := by
      apply UInt8.toNat_inj.mp
      rw [UInt8.toNat_ofNat']
      omega
    have tail : (b.toNat + 256 * fromOctets rest) / 256 = fromOctets rest := by omega
    rw [List.length_cons, fromOctets, octets, head, tail, ih]

def field : ByteOrder → (width n : ℕ) → Bytes
  | .little, width, n => octets width n
  | .big, width, n => (octets width n).reverse

/-- `struct.unpack` of one unsigned field. -/
def unpack : ByteOrder → Bytes → ℕ
  | .little, bs => fromOctets bs
  | .big, bs => fromOctets bs.reverse

@[simp] theorem field_length (order : ByteOrder) (width n : ℕ) :
    (field order width n).length = width := by
  cases order <;> simp [field]

theorem unpack_field (order : ByteOrder) (width n : ℕ) (fits : n < 256 ^ width) :
    unpack order (field order width n) = n := by
  cases order
  · simp only [unpack, field, List.reverse_reverse, fromOctets_octets width n fits]
  · exact fromOctets_octets width n fits

theorem unpack_lt (order : ByteOrder) (bs : Bytes) : unpack order bs < 256 ^ bs.length := by
  cases order
  · simpa only [unpack, List.length_reverse] using fromOctets_lt bs.reverse
  · exact fromOctets_lt bs

theorem field_unpack (order : ByteOrder) (bs : Bytes) :
    field order bs.length (unpack order bs) = bs := by
  cases order
  · have h := octets_fromOctets bs.reverse
    rw [List.length_reverse] at h
    rw [field, unpack, h, List.reverse_reverse]
  · exact octets_fromOctets bs

theorem field_unpack_of_length (order : ByteOrder) {bs : Bytes} {width : ℕ}
    (h : bs.length = width) : field order width (unpack order bs) = bs := by
  subst h
  exact field_unpack order bs

/-- `struct.pack` of a run of equally wide unsigned fields. -/
def pack (order : ByteOrder) (width : ℕ) : List ℕ → Except Exc Bytes
  | [] => .ok []
  | v :: rest =>
    if v < 256 ^ width then do
      let tail ← pack order width rest
      return field order width v ++ tail
    else .error (.structError s!"format requires 0 <= number <= {256 ^ width - 1}")

/-- The fields of a packed run, without the range check. -/
def fields (order : ByteOrder) (width : ℕ) (values : List ℕ) : Bytes :=
  values.flatMap (field order width)

theorem fields_length (order : ByteOrder) (width : ℕ) (values : List ℕ) :
    (fields order width values).length = width * values.length := by
  induction values with
  | nil => rfl
  | cons v rest ih =>
    have step : fields order width (v :: rest) = field order width v ++ fields order width rest :=
      List.flatMap_cons
    rw [step, List.length_append, ih, field_length, List.length_cons]
    ring

theorem unpack_words (order : ByteOrder) {a b : ℕ} (ha : a < 2 ^ 32) (hb : b < 2 ^ 32)
    (more : List ℕ) :
    unpack order ((fields order 4 (a :: b :: more)).take 4) = a ∧
      unpack order (((fields order 4 (a :: b :: more)).drop 4).take 4) = b := by
  have split : fields order 4 (a :: b :: more) =
      field order 4 a ++ (field order 4 b ++ fields order 4 more) := by
    rw [fields, List.flatMap_cons, List.flatMap_cons, fields]
  rw [split, List.take_left' (by simp), List.drop_left' (by simp), List.take_left' (by simp)]
  exact ⟨unpack_field order 4 a ha, unpack_field order 4 b hb⟩

theorem pack_ok (order : ByteOrder) (width : ℕ) (values : List ℕ)
    (fits : ∀ v ∈ values, v < 256 ^ width) :
    pack order width values = .ok (fields order width values) := by
  induction values with
  | nil => rfl
  | cons v rest ih =>
    have tail := ih fun w hw => fits w (List.mem_cons_of_mem v hw)
    rw [pack, if_pos (fits v List.mem_cons_self), tail]
    rfl

theorem pack_eq_ok {order : ByteOrder} {width : ℕ} {values : List ℕ} {bs : Bytes}
    (h : pack order width values = .ok bs) :
    (∀ v ∈ values, v < 256 ^ width) ∧ bs = fields order width values := by
  induction values generalizing bs with
  | nil =>
    cases h
    exact ⟨by simp, rfl⟩
  | cons v rest ih =>
    rw [pack] at h
    split at h
    case isTrue fits =>
      cases tail : pack order width rest with
      | error e => simp [tail, bind, Except.bind] at h
      | ok tailBytes =>
        obtain ⟨restFits, rfl⟩ := ih tail
        simp only [tail, bind, Except.bind, pure, Except.pure, Except.ok.injEq] at h
        refine ⟨?_, h.symm⟩
        intro w hw
        rcases List.mem_cons.mp hw with rfl | hw
        · exact fits
        · exact restFits w hw
    case isFalse => cases h

theorem pack_error {order : ByteOrder} {width : ℕ} {values : List ℕ} {e : Exc}
    (h : pack order width values = .error e) :
    (∃ v ∈ values, 256 ^ width ≤ v) ∧ ∃ msg, e = .structError msg := by
  induction values with
  | nil => cases h
  | cons v rest ih =>
    rw [pack] at h
    split at h
    case isTrue fits =>
      cases tail : pack order width rest with
      | error e' =>
        simp only [tail, bind, Except.bind, Except.error.injEq] at h
        subst h
        obtain ⟨⟨w, hw, large⟩, msg⟩ := ih tail
        exact ⟨⟨w, List.mem_cons_of_mem v hw, large⟩, msg⟩
      | ok tailBytes => simp [tail, bind, Except.bind, pure, Except.pure] at h
    case isFalse large =>
      cases h
      exact ⟨⟨v, List.mem_cons_self, by omega⟩, _, rfl⟩

end Struct
end SprdFlash
