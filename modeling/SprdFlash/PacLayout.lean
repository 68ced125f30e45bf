import SprdFlash.Pac
import SprdFlash.Library.BitPoly

/-!
Which files are PAC files. A file is accepted exactly when its header is there, gives
its length and has room for its table; then every entry is read from its place and the
two flags compare the file with CRC-16/ARC, which takes the bits of a byte from its
least significant one.
-/

namespace SprdFlash.PacLayout

open Struct Pac

section Crc

open BitPoly

def lowBits (data : Bytes) : List Bool := data.flatMap fun b => lsbFirst b.toNat 8

/-- CRC-16/ARC, bit by bit. -/
def crc16Arc (data : Bytes) : ℕ := (lowBits data).foldl (shiftDown 0xA001) 0

theorem crcTableEntry_eq (i : ℕ) : crcTableEntry i = (shiftDown 0xA001 · false)^[8] i := by
  have step (crc : ℕ) : (if crc &&& 1 ≠ 0 then (crc >>> 1) ^^^ 0xA001 else crc >>> 1) =
      shiftDown 0xA001 crc false := by
    have low : crc &&& 1 ≠ 0 ↔ (crc.testBit 0 ^^ false) = true := by
      rw [Bool.xor_false, Nat.testBit_zero, Nat.and_one_is_mod]
      simp
    rw [if_congr low rfl rfl, shiftDown, Nat.shiftRight_eq_div_pow, pow_one]
  simp only [crcTableEntry, step]

theorem crc16Table_getD {i : ℕ} (h : i < 256) : crc16Table.getD i 0 = crcTableEntry i := by
  simp [crc16Table, h]

theorem split_low (x : ℕ) : (x >>> 8) <<< 8 ^^^ (x &&& 0xFF) = x := by
  have low : x &&& 0xFF = x % 2 ^ 8 := Nat.and_two_pow_sub_one_eq_mod x 8
  apply Nat.eq_of_testBit_eq
  intro i
  rw [low, Nat.testBit_xor, Nat.testBit_shiftLeft, Nat.testBit_shiftRight, Nat.testBit_mod_two_pow]
  by_cases below : i < 8
  · simp [below, Nat.not_le.mpr below]
  · have place : 8 + (i - 8) = i := by omega
    simp [below, Nat.not_lt.mp below, place]

theorem crc16Byte_eq (crc : ℕ) (b : UInt8) :
    Pac.crc16Byte crc b = (lsbFirst b.toNat 8).foldl (shiftDown 0xA001) crc := by
  have hb : b.toNat < 2 ^ 8 := b.toNat_lt
  have gone : b.toNat >>> 8 = 0 := by
    rw [Nat.shiftRight_eq_div_pow, Nat.div_eq_of_lt hb]
  have index : (crc ^^^ b.toNat) &&& 0xFF < 256 := Nat.lt_succ_of_le Nat.and_le_right
  have high : (crc ^^^ b.toNat) >>> 8 = crc >>> 8 := by
    rw [Nat.shiftRight_xor_distrib, gone, Nat.xor_zero]
  have parts := split_low (crc ^^^ b.toNat)
  have eight := iterate_shiftDown_xor 0xA001 ((crc ^^^ b.toNat) >>> 8 <<< 8)
    ((crc ^^^ b.toNat) &&& 0xFF) 8
  rw [parts, iterate_shiftDown_shiftLeft, high] at eight
  rw [foldl_lsbFirst 0xA001 crc hb, eight, Pac.crc16Byte, crc16Table_getD index, crcTableEntry_eq]

theorem crc16_eq (data : Bytes) (crc : ℕ) :
    Pac.crc16 data crc = (lowBits data).foldl (shiftDown 0xA001) crc := by
  induction data generalizing crc with
  | nil => rfl
  | cons b data ih =>
    have first : lowBits (b :: data) = lsbFirst b.toNat 8 ++ lowBits data := rfl
    have step : Pac.crc16 (b :: data) crc = Pac.crc16 data (Pac.crc16Byte crc b) := rfl
    rw [first, List.foldl_append, ← crc16Byte_eq, step, ih]

end Crc

section Layout

/-- The files a parser has to accept. -/
structure WellFormed (content : Bytes) : Prop where
  header : 2124 ≤ content.length
  size : u32At content 48 = content.length
  table : u32At content 1076 = 0 ∨
    u32At content 1080 + 2580 * u32At content 1076 ≤ content.length

structure EntryAt (content : Bytes) (pos : ℕ) (entry : PacEntry) : Prop where
  size : entry.size = u32At content (pos + 1540)
  flag : entry.flag = u32At content (pos + 1544)
  offset : entry.offset = u32At content (pos + 1552)
  omitted : entry.omitted = u32At content (pos + 1556)
  address : entry.address = u32At content (pos + 1564)

structure ReadFrom (content : Bytes) (info : PacInfo) : Prop where
  count : info.entries.length = u32At content 1076
  entry : ∀ i (inside : i < info.entries.length),
    EntryAt content (u32At content 1080 + 2580 * i) info.entries[i]
  headerCrc : info.headerCrcOk = true ↔ crc16Arc (content.take 2120) = u16At content 2120
  payloadCrc : info.payloadCrcOk = some true ↔ crc16Arc (content.drop 2124) = u16At content 2122
  payloadRead : info.payloadCrcOk ≠ none

instance (content : Bytes) : Decidable (WellFormed content) :=
  decidable_of_iff (2124 ≤ content.length ∧ u32At content 48 = content.length ∧
      (u32At content 1076 = 0 ∨ u32At content 1080 + 2580 * u32At content 1076 ≤ content.length))
    ⟨fun ⟨header, size, table⟩ => ⟨header, size, table⟩, fun h => ⟨h.header, h.size, h.table⟩⟩

theorem readAt_readAt (content : Bytes) (pos : ℕ) {total offset size : ℕ}
    (h : offset + size ≤ total) :
    readAt (readAt content pos total) offset size = readAt content (pos + offset) size := by
  rw [readAt, readAt, readAt, List.drop_take, List.take_take, List.drop_drop,
    Nat.min_eq_left (by omega)]

theorem fileHeader_entryAt (content : Bytes) (pos : ℕ) :
    EntryAt content pos (fileHeader (readAt content pos fileHeaderSize)) where
  size := congrArg (unpack .little) (readAt_readAt content pos (by decide))
  flag := congrArg (unpack .little) (readAt_readAt content pos (by decide))
  offset := congrArg (unpack .little) (readAt_readAt content pos (by decide))
  omitted := congrArg (unpack .little) (readAt_readAt content pos (by decide))
  address := congrArg (unpack .little) (readAt_readAt content pos (by decide))

theorem readAt_full (content : Bytes) (pos : ℕ) {size : ℕ} (positive : 0 < size) :
    (readAt content pos size).length = size ↔ pos + size ≤ content.length := by
  rw [readAt, List.length_take, List.length_drop]
  omega

/-- The loop comes to its end exactly if the file reaches to the end of the table. -/
theorem readTable_ok_iff (path : PacFile) (count pos : ℕ) :
    (∃ entries, readTable path count pos = .ok entries) ↔
      count = 0 ∨ pos + 2580 * count ≤ path.content.length := by
  induction count generalizing pos with
  | zero => simp [readTable]
  | succ count ih =>
    have full := readAt_full path.content pos (show 0 < fileHeaderSize by decide)
    have later := ih (pos + fileHeaderSize)
    have size : fileHeaderSize = 2580 := rfl
    rw [size] at full later
    rw [readTable, size]
    by_cases short : (readAt path.content pos 2580).length = 2580
    · rw [if_neg (not_not.mpr short)]
      have fits := full.mp short
      cases rest : readTable path count (pos + 2580) with
      | error e =>
        rw [rest] at later
        have none : ¬ (count = 0 ∨ pos + 2580 + 2580 * count ≤ path.content.length) := by
          simp [← later]
        simp only [bind, Except.bind, reduceCtorEq, exists_false, false_or, false_iff]
        omega
      | ok entries =>
        rw [rest] at later
        have room := later.mp ⟨entries, rfl⟩
        simp only [bind, Except.bind, pure, Except.pure, Except.ok.injEq, exists_eq', true_iff]
        omega
    · rw [if_pos short]
      simp only [reduceCtorEq, exists_false, false_or, false_iff]
      omega

/-- By induction on the count: the file position is always that of the next header. -/
theorem readTable_entries {path : PacFile} {count pos : ℕ} {entries : List PacEntry}
    (h : readTable path count pos = .ok entries) : entries.length = count ∧
      ∀ i (inside : i < entries.length), EntryAt path.content (pos + 2580 * i) entries[i] := by
  induction count generalizing pos entries with
  | zero =>
    cases h
    simp
  | succ count ih =>
    simp only [readTable] at h
    split_ifs at h with short
    cases rest : readTable path count (pos + fileHeaderSize) with
    | error e => simp [rest, bind, Except.bind] at h
    | ok tail =>
      simp only [rest, bind, Except.bind, pure, Except.pure, Except.ok.injEq] at h
      subst h
      have later := ih rest
      refine ⟨by rw [List.length_cons, later.1], fun i inside => ?_⟩
      cases i with
      | zero => exact fileHeader_entryAt path.content pos
      | succ i =>
        have place : pos + fileHeaderSize + 2580 * i = pos + 2580 * (i + 1) := by
          have size : fileHeaderSize = 2580 := rfl
          omega
        exact place ▸ later.2 i (by simpa using inside)

theorem parsePac_ok_iff (path : PacFile) :
    (∃ info, parsePac path true = .ok info) ↔ WellFormed path.content := by
  have table := readTable_ok_iff path (u32At path.content 1076) (u32At path.content 1080)
  constructor
  · rintro ⟨info, accepted⟩
    have fields := parsePac_eq_ok accepted
    exact ⟨fields.1, fields.2.1, table.mp ⟨info.entries, fields.2.2.1⟩⟩
  · intro formed
    obtain ⟨entries, read⟩ := table.mpr formed.table
    have accepted := parsePac_ok formed.header formed.size read
    exact accepted.imp fun info h => h.1

example : ∃ info, parsePac ⟨"empty.pac", List.replicate 48 0 ++ [0x4C, 0x08, 0, 0] ++
    List.replicate 1028 0 ++ [0xFF, 0xFF, 0, 0] ++ List.replicate 1040 0⟩ true = .ok info :=
  (parsePac_ok_iff _).mpr (by decide +kernel)

theorem parsePac_readFrom {path : PacFile} {info : PacInfo} (h : parsePac path true = .ok info) :
    ReadFrom path.content info := by
  obtain ⟨-, -, table, header, payload⟩ := parsePac_eq_ok h
  have entries := readTable_entries table
  constructor
  · exact entries.1
  · exact entries.2
  · rw [header, decide_eq_true_iff, crc16_eq]
    rfl
  · rw [payload, Option.some.injEq, decide_eq_true_iff, crc16_eq]
    rfl
  · rw [payload]
    exact Option.some_ne_none _

/-- The parser accepts the PAC layout and nothing else, and reads every field where the
layout puts it. -/
theorem parsePac_layout (path : PacFile) :
    ((∃ info, parsePac path true = .ok info) ↔ WellFormed path.content) ∧
      (¬ WellFormed path.content → ∃ msg, parsePac path true = .error (.valueError msg)) ∧
      ∀ info, parsePac path true = .ok info → ReadFrom path.content info := by
  refine ⟨parsePac_ok_iff path, fun malformed => ?_, fun info => parsePac_readFrom⟩
  cases parsed : parsePac path true with
  | ok info => exact absurd ((parsePac_ok_iff path).mp ⟨info, parsed⟩) malformed
  | error e =>
    obtain ⟨msg, rfl⟩ := parsePac_error parsed
    exact ⟨msg, rfl⟩

end Layout

end SprdFlash.PacLayout
