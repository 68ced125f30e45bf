import SprdFlash.Corruption
import SprdFlash.Plan

/-!
Packages laid out as `parse_pac` reads them: the header, the table right behind
it, the payload right behind the table, both checksums computed. What is laid
out parses back to the same table, whatever offsets and sizes it states.
-/

namespace SprdFlash.PacImage

open Pac Struct

def zeros (n : ℕ) : Bytes := List.replicate n 0

def nameField (name : List Char) : Bytes :=
  name.flatMap (fun c => [UInt8.ofNat c.toNat, 0]) ++ zeros (2 * (256 - name.length))

def fileHeaderBytes (e : PacEntry) : Bytes :=
  field .little 4 fileHeaderSize ++ (nameField e.fileId ++ (nameField e.fileName ++ (zeros 512 ++
    (field .little 4 e.size ++ (field .little 4 e.flag ++ (zeros 4 ++ (field .little 4 e.offset ++
      (field .little 4 e.omitted ++ (zeros 4 ++ (field .little 4 e.address ++ zeros 1012))))))))))

def body (entries : List PacEntry) (payload : Bytes) : Bytes :=
  entries.flatMap fileHeaderBytes ++ payload

def head (count size : ℕ) : Bytes :=
  zeros 48 ++ (field .little 4 size ++ (zeros 1024 ++ (field .little 4 count ++
    (field .little 4 pacHeaderSize ++ zeros 1036))))

def image (name : String) (entries : List PacEntry) (payload : Bytes) : PacFile where
  name := name
  content :=
    let rest := body entries payload
    let front := head entries.length (pacHeaderSize + rest.length)
    front ++ (field .little 2 (crc16 front 0) ++ (field .little 2 (crc16 rest 0) ++ rest))

def Ascii (name : List Char) : Prop :=
  name.length ≤ 256 ∧ ∀ c ∈ name, c ≠ '\x00' ∧ c.toNat < 128

/-- Entries a table can hold. -/
structure Storable (e : PacEntry) : Prop where
  fileId : Ascii e.fileId
  fileName : Ascii e.fileName
  size : e.size < 2 ^ 32
  offset : e.offset < 2 ^ 32
  address : e.address < 2 ^ 32
  flag : e.flag < 2 ^ 32
  omitted : e.omitted < 2 ^ 32

instance (name : List Char) : Decidable (Ascii name) :=
  @instDecidableAnd _ _ (Nat.decLe _ _) (List.decidableBAll _ name)

instance (e : PacEntry) : Decidable (Storable e) :=
  decidable_of_iff (Ascii e.fileId ∧ Ascii e.fileName ∧ e.size < 2 ^ 32 ∧ e.offset < 2 ^ 32 ∧
      e.address < 2 ^ 32 ∧ e.flag < 2 ^ 32 ∧ e.omitted < 2 ^ 32)
    ⟨fun h => ⟨h.1, h.2.1, h.2.2.1, h.2.2.2.1, h.2.2.2.2.1, h.2.2.2.2.2.1, h.2.2.2.2.2.2⟩,
      fun h => ⟨h.fileId, h.fileName, h.size, h.offset, h.address, h.flag, h.omitted⟩⟩

@[simp] theorem zeros_length (n : ℕ) : (zeros n).length = n := List.length_replicate

theorem nameField_length {name : List Char} (h : name.length ≤ 256) :
    (nameField name).length = 512 := by
  have letters : (name.flatMap fun c => [UInt8.ofNat c.toNat, 0]).length = 2 * name.length := by
    induction name with
    | nil => rfl
    | cons c name ih =>
      simp only [List.length_cons] at h
      simp only [List.flatMap_cons, List.length_append, List.length_cons, List.length_nil,
        ih (by omega)]
      ring
  rw [nameField, List.length_append, letters, zeros_length]
  omega

theorem utf16Units_letters (name : List Char) (small : ∀ c ∈ name, c.toNat < 256) (k : ℕ) :
    utf16Units (name.flatMap (fun c => [UInt8.ofNat c.toNat, 0]) ++ zeros (2 * k)) =
      name.map Char.toNat ++ List.replicate k 0 := by
  induction name with
  | nil =>
    induction k with
    | zero => rfl
    | succ k ih =>
      have two : zeros (2 * (k + 1)) = 0 :: 0 :: zeros (2 * k) := rfl
      rw [List.flatMap_nil, List.nil_append] at ih ⊢
      rw [two, utf16Units, ih]
      rfl
  | cons c name ih =>
    have later := ih fun b hb => small b (List.mem_cons_of_mem c hb)
    have unit : (UInt8.ofNat c.toNat).toNat = c.toNat := by
      rw [UInt8.toNat_ofNat']
      exact Nat.mod_eq_of_lt (small c List.mem_cons_self)
    rw [List.flatMap_cons, List.append_assoc, List.cons_append, List.cons_append, List.nil_append,
      utf16Units, later, unit]
    rfl

theorem utf16Decode_plain (units : List ℕ) (plain : ∀ u ∈ units, u < 0xD800) :
    utf16Decode units = units.map Char.ofNat := by
  induction units with
  | nil => rfl
  | cons u units ih =>
    have low := plain u List.mem_cons_self
    have later := ih fun b hb => plain b (List.mem_cons_of_mem u hb)
    cases units with
    | nil =>
      rw [utf16Decode, if_neg (by omega)]
      rfl
    | cons v units =>
      rw [utf16Decode, if_neg (by omega), if_neg (by omega), later]
      rfl

theorem utf16z_nameField {name : List Char} (ascii : Ascii name) :
    utf16z (nameField name) = name := by
  have small : ∀ c ∈ name, c.toNat < 256 := fun c hc => (ascii.2 c hc).2.trans (by decide)
  rw [utf16z, nameField, utf16Units_letters name small, utf16Decode_plain]
  · have back : name.map (Char.ofNat ∘ Char.toNat) = name := by
      conv_rhs => rw [← List.map_id name]
      exact List.map_congr_left fun c _ => Char.ofNat_toNat c
    rw [List.map_append, List.map_map, back, List.takeWhile_append_of_pos]
    · cases 256 - name.length with
      | zero => simp
      | succ k => simp [List.replicate_succ]
    · intro c hc
      simpa using (ascii.2 c hc).1
  · intro u hu
    rcases List.mem_append.mp hu with hu | hu
    · obtain ⟨c, hc, rfl⟩ := List.mem_map.mp hu
      have := (ascii.2 c hc).2
      omega
    · rw [List.eq_of_mem_replicate hu]
      decide

theorem fileHeaderBytes_length {e : PacEntry} (h : Storable e) :
    (fileHeaderBytes e).length = fileHeaderSize := by
  simp only [fileHeaderBytes, List.length_append, field_length, zeros_length,
    nameField_length h.fileId.1, nameField_length h.fileName.1, fileHeaderSize]

theorem drop_part {bs part rest : Bytes} {offset size next : ℕ}
    (h : bs.drop offset = part ++ rest) (length : part.length = size)
    (step : offset + size = next) : readAt bs offset size = part ∧ bs.drop next = rest := by
  refine ⟨by rw [readAt, h, List.take_left' length], ?_⟩
  rw [← step, ← List.drop_drop, h, List.drop_left' length]

theorem u32At_field {bs : Bytes} {offset n : ℕ} (fits : n < 2 ^ 32)
    (h : readAt bs offset 4 = field .little 4 n) : u32At bs offset = n := by
  rw [u32At, h, unpack_field .little 4 n fits]

theorem fileHeader_fileHeaderBytes {e : PacEntry} (h : Storable e) :
    fileHeader (fileHeaderBytes e) = e := by
  have d0 : (fileHeaderBytes e).drop 0 = field .little 4 fileHeaderSize ++ _ := rfl
  obtain ⟨-, d4⟩ := drop_part d0 (field_length _ 4 _) rfl
  obtain ⟨fileId, d516⟩ := drop_part d4 (nameField_length h.fileId.1) rfl
  obtain ⟨fileName, d1028⟩ := drop_part d516 (nameField_length h.fileName.1) rfl
  obtain ⟨-, d1540⟩ := drop_part d1028 (zeros_length 512) rfl
  obtain ⟨size, d1544⟩ := drop_part d1540 (field_length _ 4 _) rfl
  obtain ⟨flag, d1548⟩ := drop_part d1544 (field_length _ 4 _) rfl
  obtain ⟨-, d1552⟩ := drop_part d1548 (zeros_length 4) rfl
  obtain ⟨offset, d1556⟩ := drop_part d1552 (field_length _ 4 _) rfl
  obtain ⟨omitted, d1560⟩ := drop_part d1556 (field_length _ 4 _) rfl
  obtain ⟨-, d1564⟩ := drop_part d1560 (zeros_length 4) rfl
  obtain ⟨address, -⟩ := drop_part d1564 (field_length _ 4 _) rfl
  rw [fileHeader, fileId, fileName, utf16z_nameField h.fileId, utf16z_nameField h.fileName,
    u32At_field h.size size, u32At_field h.flag flag, u32At_field h.offset offset,
    u32At_field h.omitted omitted, u32At_field h.address address]

theorem readTable_headers {path : PacFile} {entries : List PacEntry} {rest : Bytes} {pos : ℕ}
    (storable : ∀ e ∈ entries, Storable e)
    (h : path.content.drop pos = entries.flatMap fileHeaderBytes ++ rest) :
    readTable path entries.length pos = .ok entries := by
  induction entries generalizing pos with
  | nil => rfl
  | cons e entries ih =>
    have first := storable e List.mem_cons_self
    have length := fileHeaderBytes_length first
    rw [List.flatMap_cons, List.append_assoc] at h
    obtain ⟨header, later⟩ := drop_part h length rfl
    have others := ih (fun b hb => storable b (List.mem_cons_of_mem e hb)) later
    rw [List.length_cons, readTable]
    simp only [header, length, ne_eq, not_true_eq_false, if_false, others,
      fileHeader_fileHeaderBytes first, bind, Except.bind, pure, Except.pure]

/-- Where the payload of a package with so many entries starts. -/
def payloadOffset (count : ℕ) : ℕ := pacHeaderSize + count * fileHeaderSize

/-- Packages that can be laid out. -/
structure Layable (entries : List PacEntry) (payload : Bytes) : Prop where
  storable : ∀ e ∈ entries, Storable e
  size : payloadOffset entries.length + payload.length < 2 ^ 32

theorem body_length {entries : List PacEntry} (storable : ∀ e ∈ entries, Storable e)
    (payload : Bytes) :
    (body entries payload).length = entries.length * fileHeaderSize + payload.length := by
  have table : (entries.flatMap fileHeaderBytes).length = entries.length * fileHeaderSize := by
    induction entries with
    | nil => simp
    | cons e entries ih =>
      rw [List.flatMap_cons, List.length_append, List.length_cons,
        fileHeaderBytes_length (storable e List.mem_cons_self),
        ih fun b hb => storable b (List.mem_cons_of_mem e hb)]
      ring
  rw [body, List.length_append, table]

theorem image_length (name : String) {entries : List PacEntry} {payload : Bytes}
    (layable : Layable entries payload) :
    (image name entries payload).content.length =
      payloadOffset entries.length + payload.length := by
  have rest := body_length layable.storable payload
  simp only [image, head, List.length_append, field_length, zeros_length, rest, payloadOffset,
    pacHeaderSize]
  omega

theorem u16At_field {bs : Bytes} {offset n : ℕ} (fits : n < 2 ^ 16)
    (h : readAt bs offset 2 = field .little 2 n) : u16At bs offset = n := by
  rw [u16At, h, unpack_field .little 2 n fits]

/-- A package that is laid out is accepted, with the table it was given, and its
payload lies behind the table. -/
theorem parsePac_image (name : String) {entries : List PacEntry} {payload : Bytes}
    (layable : Layable entries payload) :
    (∃ info, Plan.Accepted (image name entries payload) info ∧ info.entries = entries) ∧
      (image name entries payload).content.drop (payloadOffset entries.length) = payload := by
  have total := body_length layable.storable payload
  have table : (entries.flatMap fileHeaderBytes).length = entries.length * fileHeaderSize := by
    have parts : (body entries payload).length =
        (entries.flatMap fileHeaderBytes).length + payload.length := List.length_append
    omega
  generalize hrest : body entries payload = rest at total
  have whole := layable.size
  have size : pacHeaderSize + rest.length < 2 ^ 32 := by
    rw [payloadOffset] at whole
    omega
  have few : entries.length < 2 ^ 32 := by
    rw [payloadOffset, fileHeaderSize] at whole
    omega
  have content : (image name entries payload).content =
      head entries.length (pacHeaderSize + rest.length) ++
        (field .little 2 (crc16 (head entries.length (pacHeaderSize + rest.length)) 0) ++
          (field .little 2 (crc16 rest 0) ++ rest)) := by
    rw [image, hrest]
  have length : (image name entries payload).content.length = pacHeaderSize + rest.length := by
    rw [image_length name layable, total, payloadOffset]
    omega
  have d0 : (image name entries payload).content.drop 0 =
      zeros 48 ++ (field .little 4 (pacHeaderSize + rest.length) ++ (zeros 1024 ++
        (field .little 4 entries.length ++ (field .little 4 pacHeaderSize ++ (zeros 1036 ++
          (field .little 2 (crc16 (head entries.length (pacHeaderSize + rest.length)) 0) ++
            (field .little 2 (crc16 rest 0) ++ rest))))))) := by
    rw [List.drop_zero, content]
    simp only [head, List.append_assoc]
  obtain ⟨-, d48⟩ := drop_part d0 (zeros_length 48) rfl
  obtain ⟨pacSize, d52⟩ := drop_part d48 (field_length _ 4 _) rfl
  obtain ⟨-, d1076⟩ := drop_part d52 (zeros_length 1024) rfl
  obtain ⟨count, d1080⟩ := drop_part d1076 (field_length _ 4 _) rfl
  obtain ⟨offset, d1084⟩ := drop_part d1080 (field_length _ 4 _) rfl
  obtain ⟨-, d2120⟩ := drop_part d1084 (zeros_length 1036) rfl
  obtain ⟨crc1, d2122⟩ := drop_part d2120 (field_length _ 2 _) rfl
  obtain ⟨crc2, d2124⟩ := drop_part d2122 (field_length _ 2 _) rfl
  have found : readTable (image name entries payload)
      (u32At (image name entries payload).content 1076)
      (u32At (image name entries payload).content 1080) = .ok entries := by
    rw [u32At_field few count, u32At_field (by decide) offset]
    exact readTable_headers layable.storable (d2124.trans hrest.symm)
  obtain ⟨info, parsed, same⟩ := parsePac_ok (by rw [length]; omega)
    (by rw [u32At_field size pacSize, length]) found
  obtain ⟨-, -, -, headerOk, payloadOk⟩ := parsePac_eq_ok parsed
  have behind : (image name entries payload).content.drop pacHeaderSize = rest := d2124
  refine ⟨⟨info, ⟨parsed, ?_⟩, same⟩, ?_⟩
  swap
  · rw [payloadOffset, ← List.drop_drop, behind, ← hrest, body, List.drop_left' table]
  have covered : (image name entries payload).content.take 2120 =
      head entries.length (pacHeaderSize + rest.length) := by
    rw [content, List.take_left' (by simp [head])]
  rw [PacInfo.crcOk, headerOk, payloadOk, covered, behind, u16At_field (crc16_lt _) crc1,
    u16At_field (crc16_lt _) crc2]
  simp

theorem readAt_image (name : String) {entries : List PacEntry} {payload : Bytes}
    (layable : Layable entries payload) (i size : ℕ) :
    readAt (image name entries payload).content (payloadOffset entries.length + i) size =
      (payload.drop i).take size := by
  rw [readAt, ← List.drop_drop, (parsePac_image name layable).2]

def entry (fileId : List Char) (address offset size : ℕ) : PacEntry where
  fileId := fileId
  fileName := fileId
  size := size
  offset := offset
  address := address
  flag := 0
  omitted := 0

theorem entry_storable {fileId : List Char} {address offset size : ℕ} (ascii : Ascii fileId)
    (haddress : address < 2 ^ 32) (hoffset : offset < 2 ^ 32) (hsize : size < 2 ^ 32) :
    Storable (entry fileId address offset size) :=
  ⟨ascii, ascii, hsize, hoffset, haddress, (by decide : 0 < 2 ^ 32), (by decide : 0 < 2 ^ 32)⟩

def hostFdl : List Char := ['H', 'O', 'S', 'T', '_', 'F', 'D', 'L']

/-- A loader, a partition and an NV image of so many bytes. -/
def packageEntries (slot : ℕ) : List PacEntry :=
  [entry hostFdl 0x00838000 (payloadOffset 3) 2,
    entry ['A', 'P'] 0x60010000 (payloadOffset 3 + 2) 3,
    entry Native.nvId 0xFE000003 (payloadOffset 3 + 5) slot]

def package (slot : ℕ) : PacFile :=
  image "package.pac" (packageEntries slot) [0x11, 0x12, 0x21, 0x22, 0x23, 0x31, 0x32]

theorem package_layable {slot : ℕ} (small : slot < 2 ^ 32) :
    Layable (packageEntries slot) [0x11, 0x12, 0x21, 0x22, 0x23, 0x31, 0x32] where
  storable := by
    rw [packageEntries, List.forall_mem_cons, List.forall_mem_cons, List.forall_mem_singleton]
    exact ⟨by decide, by decide, entry_storable (by decide) (by decide) (by decide) small⟩
  size := show payloadOffset 3 + 7 < 2 ^ 32 by decide

theorem package_accepted {slot : ℕ} (small : slot < 2 ^ 32) :
    ∃ info, Plan.Accepted (package slot) info ∧ info.entries = packageEntries slot :=
  (parsePac_image "package.pac" (package_layable small)).1

theorem package_length {slot : ℕ} (small : slot < 2 ^ 32) :
    (package slot).content.length = payloadOffset 3 + 7 :=
  image_length "package.pac" (package_layable small)

section Roles

variable {info : PacInfo} {slot : ℕ} (entries : info.entries = packageEntries slot)

include entries

theorem package_fdl1 :
    Plan.fdl1Of info = some (entry hostFdl 0x00838000 (payloadOffset 3) 2) := by
  rw [Plan.fdl1Of, entries]
  rfl

variable (filled : slot ≠ 0)

include filled

theorem package_flashable : Flasher.flashableEntries info =
    [entry ['A', 'P'] 0x60010000 (payloadOffset 3 + 2) 3] := by
  obtain ⟨n, rfl⟩ := Nat.exists_eq_succ_of_ne_zero filled
  rw [Flasher.flashableEntries, entries]
  rfl

theorem package_markers : Native.dataMarkers info =
    [entry Native.nvId 0xFE000003 (payloadOffset 3 + 5) slot] := by
  obtain ⟨n, rfl⟩ := Nat.exists_eq_succ_of_ne_zero filled
  rw [Native.dataMarkers, entries]
  rfl

end Roles

end SprdFlash.PacImage
