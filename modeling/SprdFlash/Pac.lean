import Mathlib.Logic.Function.Iterate
import SprdFlash.Struct

/-!
The parser for `.pac` firmware packages: a fixed header, a table of file
headers, then payloads, under two CRC-16/ARC values. Fields are read at their
offsets in the two `struct` formats; offsets and sizes in the table are not
related to the length of the file here.
-/

namespace SprdFlash.Pac

open Struct

def pacHeaderSize : ℕ := 2124
def fileHeaderSize : ℕ := 2580

structure PacFile where
  name : String
  content : Bytes

def crcTableEntry (i : ℕ) : ℕ :=
  (fun crc => if crc &&& 1 ≠ 0 then (crc >>> 1) ^^^ 0xA001 else crc >>> 1)^[8] i

def crc16Table : List ℕ := (List.range 256).map crcTableEntry

def crc16Byte (crc : ℕ) (b : UInt8) : ℕ :=
  (crc >>> 8) ^^^ crc16Table.getD ((crc ^^^ b.toNat) &&& 0xFF) 0

/-- CRC16 (IBM/ARC polynomial, table-driven). -/
def crc16 (data : Bytes) (crc : ℕ) : ℕ := data.foldl crc16Byte crc

def utf16Units : Bytes → List ℕ
  | [] => []
  | [_] => [0xFFFD]
  | a :: b :: rest => (a.toNat + 256 * b.toNat) :: utf16Units rest

/-- `decode('utf-16le', errors='replace')`: a lone surrogate becomes U+FFFD. -/
def utf16Decode : List ℕ → List Char
  | [] => []
  | [u] => if 0xD800 ≤ u ∧ u < 0xE000 then [Char.ofNat 0xFFFD] else [Char.ofNat u]
  | u :: v :: rest =>
    if 0xD800 ≤ u ∧ u < 0xDC00 then
      if 0xDC00 ≤ v ∧ v < 0xE000 then
        Char.ofNat (0x10000 + (u - 0xD800) * 0x400 + (v - 0xDC00)) :: utf16Decode rest
      else Char.ofNat 0xFFFD :: utf16Decode (v :: rest)
    else if 0xDC00 ≤ u ∧ u < 0xE000 then Char.ofNat 0xFFFD :: utf16Decode (v :: rest)
    else Char.ofNat u :: utf16Decode (v :: rest)

/-- Decode a NUL-terminated UTF-16LE fixed-size field. -/
def utf16z (raw : Bytes) : List Char := (utf16Decode (utf16Units raw)).takeWhile (· ≠ '\x00')

structure PacEntry where
  fileId : List Char
  fileName : List Char
  size : ℕ
  offset : ℕ
  address : ℕ
  flag : ℕ
  omitted : ℕ
  deriving DecidableEq, Repr

structure PacInfo where
  version : List Char
  productName : List Char
  productVersion : List Char
  size : ℕ
  fileCount : ℕ
  mode : ℕ
  flashType : ℕ
  magic : ℕ
  headerCrcOk : Bool
  payloadCrcOk : Option Bool
  entries : List PacEntry

def PacInfo.crcOk (info : PacInfo) : Bool := info.headerCrcOk && info.payloadCrcOk != some false

def readAt (content : Bytes) (offset size : ℕ) : Bytes := (content.drop offset).take size

def u32At (bs : Bytes) (offset : ℕ) : ℕ := unpack .little (readAt bs offset 4)
def u16At (bs : Bytes) (offset : ℕ) : ℕ := unpack .little (readAt bs offset 2)

def fileHeader (fh : Bytes) : PacEntry where
  fileId := utf16z (readAt fh 4 512)
  fileName := utf16z (readAt fh 516 512)
  size := u32At fh 1540
  flag := u32At fh 1544
  offset := u32At fh 1552
  omitted := u32At fh 1556
  address := u32At fh 1564

/-- The loop over the file table, from the file position it has reached. -/
def readTable (path : PacFile) : (count pos : ℕ) → Except Exc (List PacEntry)
  | 0, _ => .ok []
  | count + 1, pos => do
    let fh := readAt path.content pos fileHeaderSize
    if fh.length ≠ fileHeaderSize then
      let name := path.name
      .error (.valueError s!"{name}: truncated file table")
    else
      let rest ← readTable path count (pos + fileHeaderSize)
      return fileHeader fh :: rest

def crcChunks (unread : Bytes) (crc : ℕ) : ℕ :=
  if unread = [] then crc else crcChunks (unread.drop (2 ^ 20)) (crc16 (unread.take (2 ^ 20)) crc)
termination_by unread.length
decreasing_by
  rename_i nonempty
  have := List.length_pos_of_ne_nil nonempty
  rw [List.length_drop]
  omega

def verifyPayloadCrc (path : PacFile) (expected : ℕ) : Bool :=
  crcChunks (path.content.drop pacHeaderSize) 0 = expected

/-- Parse and validate a file; raises ValueError on malformed files. -/
def parsePac (path : PacFile) (verifyPayload : Bool) : Except Exc PacInfo := do
  let name := path.name
  let fileSize := path.content.length
  if fileSize < pacHeaderSize then
    .error (.valueError s!"{name}: too small to be a PAC file ({fileSize} bytes)")
  else
    let header := readAt path.content 0 pacHeaderSize
    let pacSize := u32At header 48
    let fileCount := u32At header 1076
    let fileOffset := u32At header 1080
    let crc1 := u16At header 2120
    let crc2 := u16At header 2122
    let headerCrcOk := crc16 (header.take (header.length - 4)) 0 = crc1
    if pacSize ≠ fileSize then
      .error (.valueError
        s!"{name}: header size field {pacSize} != actual file size {fileSize} (truncated download?)")
    else
      let entries ← readTable path fileCount fileOffset
      let payloadCrcOk := if verifyPayload then some (verifyPayloadCrc path crc2) else none
      return {
        version := utf16z (readAt header 0 48)
        productName := utf16z (readAt header 52 512)
        productVersion := utf16z (readAt header 564 512)
        size := pacSize
        fileCount := fileCount
        mode := u32At header 1084
        flashType := u32At header 1088
        magic := u32At header 2116
        headerCrcOk := headerCrcOk
        payloadCrcOk := payloadCrcOk
        entries := entries }

theorem crc16_append (xs ys : Bytes) (crc : ℕ) :
    crc16 (xs ++ ys) crc = crc16 ys (crc16 xs crc) := List.foldl_append

theorem crcChunks_eq (unread : Bytes) (crc : ℕ) : crcChunks unread crc = crc16 unread crc := by
  fun_induction crcChunks unread crc with
  | case1 crc => rfl
  | case2 unread crc nonempty ih => rw [ih, ← crc16_append, List.take_append_drop]

theorem u32At_lt (bs : Bytes) (offset : ℕ) : u32At bs offset < 2 ^ 32 := by
  have bound := unpack_lt .little (readAt bs offset 4)
  have width : (readAt bs offset 4).length ≤ 4 := by
    rw [readAt, List.length_take]
    omega
  exact bound.trans_le (Nat.pow_le_pow_right (by norm_num : 0 < 256) width)

/-- A field read through the header is read from the file. -/
theorem readAt_header (content : Bytes) {offset size : ℕ} (h : offset + size ≤ pacHeaderSize) :
    readAt (readAt content 0 pacHeaderSize) offset size = readAt content offset size := by
  rw [readAt, readAt, readAt, List.drop_zero, List.drop_take, List.take_take,
    Nat.min_eq_left (by omega)]

theorem parsePac_eq_ok {path : PacFile} {info : PacInfo} (h : parsePac path true = .ok info) :
    pacHeaderSize ≤ path.content.length ∧
    u32At path.content 48 = path.content.length ∧
    readTable path (u32At path.content 1076) (u32At path.content 1080) = .ok info.entries ∧
    info.headerCrcOk = decide (crc16 (path.content.take 2120) 0 = u16At path.content 2120) ∧
    info.payloadCrcOk =
      some (decide (crc16 (path.content.drop pacHeaderSize) 0 = u16At path.content 2122)) := by
  simp only [parsePac, u32At, u16At, readAt_header path.content
    (show 48 + 4 ≤ pacHeaderSize by decide),
    readAt_header path.content (show 1076 + 4 ≤ pacHeaderSize by decide),
    readAt_header path.content (show 1080 + 4 ≤ pacHeaderSize by decide),
    readAt_header path.content (show 2120 + 2 ≤ pacHeaderSize by decide),
    readAt_header path.content (show 2122 + 2 ≤ pacHeaderSize by decide)] at h
  split_ifs at h with short size
  have long : pacHeaderSize ≤ path.content.length := by omega
  have covered : (readAt path.content 0 pacHeaderSize).take
      ((readAt path.content 0 pacHeaderSize).length - 4) = path.content.take 2120 := by
    rw [readAt, List.drop_zero, List.length_take, List.take_take, Nat.min_eq_left long]
    rfl
  cases table : readTable path (unpack .little (readAt path.content 1076 4))
      (unpack .little (readAt path.content 1080 4)) with
  | error e => simp [table, bind, Except.bind] at h
  | ok entries =>
    simp only [table, bind, Except.bind, pure, Except.pure, Except.ok.injEq] at h
    subst h
    refine ⟨long, not_not.mp size, table, ?_, ?_⟩
    · simp only [covered, u16At]
      rfl
    · simp only [verifyPayloadCrc, crcChunks_eq, u16At]
      rfl

theorem parsePac_ok {path : PacFile} {entries : List PacEntry}
    (long : pacHeaderSize ≤ path.content.length)
    (size : u32At path.content 48 = path.content.length)
    (table : readTable path (u32At path.content 1076) (u32At path.content 1080) = .ok entries) :
    ∃ info, parsePac path true = .ok info ∧ info.entries = entries := by
  have pacSize : u32At (readAt path.content 0 pacHeaderSize) 48 = path.content.length := by
    rw [u32At, readAt_header path.content (by decide), ← u32At, size]
  have table' : readTable path (u32At (readAt path.content 0 pacHeaderSize) 1076)
      (u32At (readAt path.content 0 pacHeaderSize) 1080) = .ok entries := by
    simp only [u32At, readAt_header path.content (show 1076 + 4 ≤ pacHeaderSize by decide),
      readAt_header path.content (show 1080 + 4 ≤ pacHeaderSize by decide)]
    exact table
  simp only [parsePac, if_neg (Nat.not_lt.mpr long), pacSize, ne_eq, not_true_eq_false, if_false,
    table', bind, Except.bind, pure, Except.pure]
  exact ⟨_, rfl, rfl⟩

theorem readTable_error {path : PacFile} {count pos : ℕ} {e : Exc}
    (h : readTable path count pos = .error e) : ∃ msg, e = .valueError msg := by
  induction count generalizing pos with
  | zero => cases h
  | succ count ih =>
    simp only [readTable] at h
    split_ifs at h with short
    · cases h
      exact ⟨_, rfl⟩
    · cases rest : readTable path count (pos + fileHeaderSize) with
      | error e' =>
        simp only [rest, bind, Except.bind, Except.error.injEq] at h
        subst h
        exact ih rest
      | ok entries => simp [rest, bind, Except.bind, pure, Except.pure] at h

theorem parsePac_error {path : PacFile} {verifyPayload : Bool} {e : Exc}
    (h : parsePac path verifyPayload = .error e) : ∃ msg, e = .valueError msg := by
  simp only [parsePac] at h
  split at h
  · cases h
    exact ⟨_, rfl⟩
  split at h
  · cases h
    exact ⟨_, rfl⟩
  · cases table : readTable path (u32At (readAt path.content 0 pacHeaderSize) 1076)
        (u32At (readAt path.content 0 pacHeaderSize) 1080) with
    | error e' =>
      simp only [table, bind, Except.bind, Except.error.injEq] at h
      subst h
      exact readTable_error table
    | ok entries => simp [table, bind, Except.bind, pure, Except.pure] at h

theorem readTable_bounds {path : PacFile} {count pos : ℕ} {entries : List PacEntry}
    (h : readTable path count pos = .ok entries) :
    ∀ e ∈ entries, e.size < 2 ^ 32 ∧ e.address < 2 ^ 32 := by
  induction count generalizing pos entries with
  | zero =>
    cases h
    simp
  | succ count ih =>
    simp only [readTable] at h
    split_ifs at h with short
    cases rest : readTable path count (pos + fileHeaderSize) with
    | error e => simp [rest, bind, Except.bind] at h
    | ok tail =>
      simp only [rest, bind, Except.bind, pure, Except.pure, Except.ok.injEq] at h
      subst h
      intro e he
      rcases List.mem_cons.mp he with rfl | he
      · exact ⟨u32At_lt _ _, u32At_lt _ _⟩
      · exact ih rest e he

end SprdFlash.Pac
