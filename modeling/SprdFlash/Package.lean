import SprdFlash.Runs
import SprdFlash.Transfers

/-!
The plans of an accepted package. Its table has 32-bit fields, so every
START_DATA can be packed, and every key that is looked up is in its dictionary:
the image behind a file id is that of the last entry of its list with the id.
What is left that can fail is an NV image without room for its CRC.
-/

namespace SprdFlash.Package

open Message Pac Flasher Native Struct Script Plan Exchange WireLog Runs Transfers

/-- The entry whose bytes a dictionary over `entries` holds under the id of `e`. -/
def standIn (entries : List PacEntry) (e : PacEntry) : PacEntry :=
  (LastWins.last PacEntry.fileId entries e.fileId).getD e

/-- The bytes `native_flash` sends for an entry. -/
def imageOf (content : Bytes) (entries : List PacEntry) (e : PacEntry) : Bytes :=
  Native.readEntry content (standIn entries e)

theorem standIn_mem {entries : List PacEntry} {e : PacEntry} (h : e ∈ entries) :
    standIn entries e ∈ entries ∧ (standIn entries e).fileId = e.fileId := by
  obtain ⟨b, found, mem, same⟩ := LastWins.last_isSome PacEntry.fileId h
  rw [standIn, found]
  exact ⟨mem, same⟩

theorem lookup_imageDict (content : Bytes) {entries : List PacEntry} {e : PacEntry}
    (h : e ∈ entries) :
    lookup (imageDict content entries) e.fileId = .ok (imageOf content entries e) := by
  obtain ⟨b, found, -, -⟩ := LastWins.last_isSome PacEntry.fileId h
  have held : imageDict content entries e.fileId = some (Native.readEntry content b) := by
    rw [imageDict, LastWins.comprehension_eq, found]
    rfl
  rw [lookup, held, imageOf, standIn, found]
  rfl

theorem readEntry_length_le (content : Bytes) (e : PacEntry) :
    (Native.readEntry content e).length ≤ e.size := by
  rw [Native.readEntry, readAt, List.length_take]
  omega

def InFile (content : Bytes) (e : PacEntry) : Prop := e.offset + e.size ≤ content.length

instance (content : Bytes) (e : PacEntry) : Decidable (InFile content e) :=
  inferInstanceAs (Decidable (_ ≤ _))

theorem readEntry_length_iff {content : Bytes} {e : PacEntry} (some : e.size ≠ 0) :
    (Native.readEntry content e).length = e.size ↔ InFile content e := by
  rw [Native.readEntry, readAt, List.length_take, List.length_drop, InFile]
  omega

/-- Every table entry has 32-bit fields. -/
def Narrow (entries : List PacEntry) : Prop := ∀ e ∈ entries, e.size < 2 ^ 32 ∧ e.address < 2 ^ 32

theorem accepted_narrow {path : PacFile} {info : PacInfo} (accepted : Accepted path info) :
    Narrow info.entries :=
  readTable_bounds (parsePac_eq_ok accepted.parsed).2.2.1

theorem Narrow.filter {entries : List PacEntry} (h : Narrow entries) (p : PacEntry → Bool) :
    Narrow (entries.filter p) := fun e he => h e (List.mem_of_mem_filter he)

theorem Narrow.imageOf_length {entries : List PacEntry} (h : Narrow entries) (content : Bytes)
    {e : PacEntry} (he : e ∈ entries) : (imageOf content entries e).length < 2 ^ 32 :=
  (readEntry_length_le content _).trans_lt (h _ (standIn_mem he).1).1

theorem stage_eq {addr : ℕ} {data : Bytes} (haddr : addr < 2 ^ 32) (hdata : data.length < 2 ^ 32)
    (chunk : ℕ+) :
    stage addr data chunk =
      .command bslCmdStartData (fields .big 4 [addr, data.length]) "START_DATA" ::
        ((Pieces.pieces chunk data).map (.command bslCmdMidstData · "MIDST_DATA") ++
          [.command bslCmdEndData [] "END_DATA"]) := by
  rw [stage, pack_ok .big 4 _ (by simpa using ⟨haddr, hdata⟩)]
  rfl

def nvFixed (template : Bytes) : Bytes :=
  UInt8.ofNat ((nvCrc16 (template.drop 2) >>> 8) &&& 0xFF) ::
    UInt8.ofNat (nvCrc16 (template.drop 2) &&& 0xFF) :: template.drop 2

theorem nvFixCrc_eq (template : Bytes) :
    nvFixCrc template = if 2 ≤ template.length then .ok (nvFixed template)
      else .error (.indexError "bytearray index out of range") := by
  match template with
  | [] => rfl
  | [_] => rfl
  | _ :: _ :: rest => rw [if_pos (by simp)]; rfl

theorem nvFixed_length {template : Bytes} (h : 2 ≤ template.length) :
    (nvFixed template).length = template.length := by
  simp only [nvFixed, List.length_cons, List.length_drop]
  omega

theorem sum32_lt (data : Bytes) : sum32 data < 2 ^ 32 :=
  lt_of_le_of_lt Nat.and_le_right (by norm_num)

theorem nv_eq {addr : ℕ} {template : Bytes} (haddr : addr < 2 ^ 32)
    (room : 2 ≤ template.length) (hdata : template.length < 2 ^ 32) :
    nv addr template =
      .command bslCmdStartData
          (fields .big 4 [addr, template.length, sum32 (nvFixed template)]) "NV START" ::
        ((Pieces.pieces bslChunk (nvFixed template)).map (.command bslCmdMidstData · "NV MIDST") ++
          [.lenient bslCmdEndData [] "NV END"]) := by
  have bounds : ∀ v ∈ [addr, template.length, sum32 (nvFixed template)], v < 256 ^ 4 := by
    have sum := sum32_lt (nvFixed template)
    simp only [List.mem_cons, List.not_mem_nil, or_false, forall_eq_or_imp, forall_eq]
    exact ⟨haddr, hdata, sum⟩
  rw [nv, nvFixCrc_eq, if_pos room]
  simp only [given]
  rw [nvFixed_length room, pack_ok .big 4 _ bounds]

theorem nv_short {template : Bytes} (short : ¬ 2 ≤ template.length) (addr : ℕ) :
    nv addr template = [.fail (.indexError "bytearray index out of range")] := by
  rw [nv, nvFixCrc_eq, if_neg short, given]

/-- The steps that cannot fail for the package's sake. -/
def Sound (steps : List Step) : Prop := ∀ i ∈ steps, halts i = false

theorem Sound.append {xs ys : List Step} (hx : Sound xs) (hy : Sound ys) : Sound (xs ++ ys) := by
  intro i hi
  rcases List.mem_append.mp hi with hi | hi
  · exact hx i hi
  · exact hy i hi

theorem sound_flatMap {α : Type} {items : List α} {f : α → List Step}
    (h : ∀ a ∈ items, Sound (f a)) : Sound (items.flatMap f) := by
  intro i hi
  obtain ⟨a, ha, hi⟩ := List.mem_flatMap.mp hi
  exact h a ha i hi

/-- Steps that send a run of whole transfers, whatever is sent after them. -/
def Yields (steps : List Step) (ts : List Transfer) : Prop :=
  ∀ rest, transfers (steps.flatMap emits ++ rest) = ts ++ transfers rest

theorem Yields.append {xs ys : List Step} {ts us : List Transfer} (hx : Yields xs ts)
    (hy : Yields ys us) : Yields (xs ++ ys) (ts ++ us) := by
  intro rest
  rw [List.flatMap_append, List.append_assoc, hx, hy, List.append_assoc]

theorem yields_flatMap {α : Type} {items : List α} {f : α → List Step} {g : α → Transfer}
    (h : ∀ a ∈ items, Yields (f a) [g a]) : Yields (items.flatMap f) (items.map g) := by
  induction items with
  | nil => exact fun rest => rfl
  | cons a items ih =>
    rw [List.flatMap_cons, List.map_cons, ← List.singleton_append]
    exact (h a List.mem_cons_self).append (ih fun b hb => h b (List.mem_cons_of_mem a hb))

theorem yields_nil {steps : List Step} (h : ∀ i ∈ steps, ∀ c ∈ emits i, startOf c = none) :
    Yields steps [] := by
  intro rest
  rw [transfers_append_of_none, List.nil_append]
  intro c hc
  obtain ⟨i, hi, hc⟩ := List.mem_flatMap.mp hc
  exact h i hi c hc

def Fits (chunk : ℕ+) (data : Bytes) : Prop := (chunk : ℕ) < 65536 ∨ data.length < 65536

theorem stage_sound_iff {addr : ℕ} {data : Bytes} (haddr : addr < 2 ^ 32)
    (hdata : data.length < 2 ^ 32) (chunk : ℕ+) :
    Sound (stage addr data chunk) ↔ Fits chunk data := by
  rw [stage_eq haddr hdata]
  constructor
  · intro sound
    by_contra large
    unfold Fits at large
    have some : data ≠ [] := by
      intro none
      rw [none] at large
      simp at large
    have first : Step.command bslCmdMidstData (data.take chunk) "MIDST_DATA" ∈
        (Pieces.pieces chunk data).map (.command bslCmdMidstData · "MIDST_DATA") := by
      rw [Pieces.pieces_of_ne_nil chunk some, List.map_cons]
      exact List.mem_cons_self
    have runs := sound _ (List.mem_cons_of_mem _ (List.mem_append_left _ first))
    simp only [halts, Framable, List.length_take, decide_eq_false_iff_not, not_not] at runs
    omega
  · intro fits i hi
    unfold Fits at fits
    rcases List.mem_cons.mp hi with rfl | hi
    · simp [halts, Framable, fields, bslCmdStartData]
    rcases List.mem_append.mp hi with hi | hi
    · obtain ⟨piece, hp, rfl⟩ := List.mem_map.mp hi
      have bound := Pieces.mem_pieces hp
      have small : piece.length < 65536 := by omega
      simp [halts, Framable, bslCmdMidstData, small]
    · rw [List.mem_singleton.mp hi]
      decide

theorem stage_bslChunk_sound {addr : ℕ} {data : Bytes} (haddr : addr < 2 ^ 32)
    (hdata : data.length < 2 ^ 32) : Sound (stage addr data bslChunk) :=
  (stage_sound_iff haddr hdata bslChunk).mpr (.inl (by decide))

def written (addr : ℕ) (data : Bytes) : Transfer := ⟨addr, data.length, false, data, true⟩

theorem startOf_words {addr size : ℕ} (haddr : addr < 2 ^ 32) (hsize : size < 2 ^ 32)
    (more : List ℕ) :
    startOf (.bsl bslCmdStartData (fields .big 4 (addr :: size :: more))) =
      some (addr, size, decide (more.length = 1)) := by
  obtain ⟨address, declared⟩ := unpack_words .big haddr hsize more
  have length : ((fields .big 4 (addr :: size :: more)).length = 12) = (more.length = 1) := by
    simp only [fields_length, List.length_cons, eq_iff_iff]
    omega
  simp only [startOf, if_true, address, declared, length]

theorem pieces_sent (cmd : ℕ) (what : String) (datas : List Bytes) :
    (datas.map (Step.command cmd · what)).flatMap emits = datas.map (.bsl cmd ·) := by
  rw [List.flatMap_map, List.map_eq_flatMap]
  rfl

theorem midst_pieces (datas : List Bytes) :
    (datas.map (Sent.bsl bslCmdMidstData ·)).map pieceOf = datas.map some := by
  rw [List.map_map]
  rfl

theorem stage_yields {addr : ℕ} {data : Bytes} (haddr : addr < 2 ^ 32)
    (hdata : data.length < 2 ^ 32) (chunk : ℕ+) :
    Yields (stage addr data chunk) [written addr data] := by
  intro rest
  have whole := transfers_whole _ (.bsl bslCmdEndData []) _ _ (startOf_words haddr hdata [])
    (midst_pieces (Pieces.pieces chunk data)) rfl rfl rfl rest
  rw [Pieces.pieces_flatten] at whole
  rw [stage_eq haddr hdata, List.flatMap_cons, List.flatMap_append, pieces_sent]
  simpa [emits, written] using whole

def writtenNv (addr : ℕ) (template : Bytes) : Transfer :=
  ⟨addr, template.length, true, nvFixed template, true⟩

theorem nv_yields {addr : ℕ} {template : Bytes} (haddr : addr < 2 ^ 32)
    (room : 2 ≤ template.length) (hdata : template.length < 2 ^ 32) :
    Yields (nv addr template) [writtenNv addr template] := by
  intro rest
  have whole := transfers_whole _ (.bsl bslCmdEndData []) _ _
    (startOf_words haddr hdata [sum32 (nvFixed template)])
    (midst_pieces (Pieces.pieces bslChunk (nvFixed template))) rfl rfl rfl rest
  rw [Pieces.pieces_flatten] at whole
  rw [nv_eq haddr room hdata, List.flatMap_cons, List.flatMap_append, pieces_sent]
  simpa [emits, writtenNv] using whole

theorem nv_sound {addr : ℕ} {template : Bytes} (haddr : addr < 2 ^ 32)
    (room : 2 ≤ template.length) (hdata : template.length < 2 ^ 32) : Sound (nv addr template) := by
  rw [nv_eq haddr room hdata]
  intro i hi
  rcases List.mem_cons.mp hi with rfl | hi
  · simp [halts, Framable, fields, bslCmdStartData]
  rcases List.mem_append.mp hi with hi | hi
  · obtain ⟨piece, hp, rfl⟩ := List.mem_map.mp hi
    have bound := (Pieces.mem_pieces hp).2.1
    have small : piece.length < 65536 := bound.trans_lt (by decide)
    simp [halts, Framable, bslCmdMidstData, small]
  · rw [List.mem_singleton.mp hi]
    decide

/-- Phase 1 on an accepted package. -/
theorem loader_eq {fdl1 : PacEntry} {data : Bytes} (endChecksum : UInt32) :
    loader fdl1 data endChecksum =
      .request .connect 0 0 [] ::
        .request .startData fdl1.address data.length [0x50, 0x44, 0x4C, 0x31, 0x00] ::
          ((Pdl.blocks data).map (fun (i, chunk) => .request .midstData i chunk.length chunk) ++
            [.request .endData 0 0 (fields .little 4 [endChecksum.toNat])]) := by
  have packed := pack_ok .little 4 [endChecksum.toNat] (by simpa using endChecksum.toNat_lt)
  rw [loader, image]
  simp only [Option.getD_some, packed, given]

theorem blocks_pieces (data : Bytes) :
    (Pdl.blocks data).map Prod.snd = Pieces.pieces 2048 data := by
  rw [← Pieces.range_slices, Pdl.blocks, List.map_map]
  rfl

theorem mem_blocks {data : Bytes} {block : ℕ × Bytes} (h : block ∈ Pdl.blocks data) :
    block.1 ≤ data.length ∧ block.2.length ≤ 2048 := by
  obtain ⟨i, hi, rfl⟩ := List.mem_map.mp h
  rw [List.mem_range] at hi
  refine ⟨?_, by simp only [List.length_take]; exact Nat.min_le_left _ _⟩
  simp only [Pdl.pdlChunk] at hi ⊢
  omega

theorem loader_yields (fdl1 : PacEntry) (data : Bytes) (endChecksum : UInt32) :
    Yields (loader fdl1 data endChecksum) [written fdl1.address data] := by
  intro rest
  have pieces : ((Pdl.blocks data).map fun block =>
      Sent.pdl Pdl.Command.midstData.code block.1 block.2.length block.2).map pieceOf =
        (Pieces.pieces 2048 data).map some := by
    rw [← blocks_pieces, List.map_map, List.map_map]
    rfl
  have whole := transfers_whole
    (.pdl Pdl.Command.startData.code fdl1.address data.length [0x50, 0x44, 0x4C, 0x31, 0x00])
    (.pdl Pdl.Command.endData.code 0 0 (fields .little 4 [endChecksum.toNat])) _ _ rfl pieces
    rfl rfl rfl rest
  rw [Pieces.pieces_flatten] at whole
  have connect : ∀ l, transfers (.pdl Pdl.Command.connect.code 0 0 [] :: l) = transfers l :=
    fun l => transfers_cons_of_none rfl l
  have sent : ((Pdl.blocks data).map fun (i, chunk) =>
      Step.request .midstData i chunk.length chunk).flatMap emits =
        (Pdl.blocks data).map fun block =>
          Sent.pdl Pdl.Command.midstData.code block.1 block.2.length block.2 := by
    rw [List.flatMap_map, List.map_eq_flatMap]
    rfl
  rw [loader_eq, List.flatMap_cons, List.flatMap_cons, List.flatMap_append, sent]
  simpa [emits, connect, written] using whole

theorem loader_sound {fdl1 : PacEntry} {data : Bytes} (haddr : fdl1.address < 2 ^ 32)
    (hdata : data.length < 2 ^ 32) (endChecksum : UInt32) :
    Sound (loader fdl1 data endChecksum) := by
  rw [loader_eq]
  intro i hi
  rcases List.mem_cons.mp hi with rfl | hi
  · decide
  rcases List.mem_cons.mp hi with rfl | hi
  · simp only [halts, decide_eq_false_iff_not, not_not]
    exact ⟨haddr, hdata, by decide⟩
  rcases List.mem_append.mp hi with hi | hi
  · obtain ⟨⟨index, chunk⟩, hb, rfl⟩ := List.mem_map.mp hi
    have bound := mem_blocks hb
    simp only at bound
    have packable : Packable index chunk.length chunk := by
      unfold Packable
      omega
    simp [halts, packable]
  · rw [List.mem_singleton.mp hi]
    simp [halts, Packable, fields]

def fdl2Of (info : PacInfo) : Option PacEntry := info.entries.find? fun e => classify e = .fdl2

theorem role_size {e : PacEntry} {role : Role} (h : classify e = role) (payload : role ≠ .marker) :
    e.size ≠ 0 := (classify_ne_marker (h.trans_ne payload)).1

theorem find_role {info : PacInfo} {role : Role} {e : PacEntry}
    (h : info.entries.find? (fun e => classify e = role) = some e) :
    e ∈ info.entries ∧ classify e = role :=
  ⟨List.mem_of_find?_eq_some h, by simpa using List.find?_some h⟩

/-- The entries loaded before the writes, in the order in which they are loaded. -/
def loaders (info : PacInfo) : List PacEntry := (fdl1Of info).toList ++ (fdl2Of info).toList

theorem fdl2Load_eq (info : PacInfo) (content : Bytes) :
    fdl2Load (fdl2Of info) (((fdl2Of info).map (Native.readEntry content)).getD []) =
      (fdl2Of info).toList.flatMap fun e =>
        stage e.address (Native.readEntry content e) bslChunk ++
          [.command bslCmdExecData [] "EXEC FDL2", .command bslCmdConnect [] "CONNECT"] := by
  cases fdl2Of info with
  | none => rfl
  | some e => simp [fdl2Load]

theorem flatMap_fromDict (content : Bytes) (entries : List PacEntry)
    (write : PacEntry → Bytes → List Step) :
    entries.flatMap (fromDict (imageDict content entries) write) =
      entries.flatMap fun e => write e (imageOf content entries e) := by
  apply List.flatMap_congr
  intro e he
  rw [fromDict, lookup_imageDict content he]
  rfl

/-- An NV image has room for its CRC; other markers need none. -/
def Roomy (info : PacInfo) (content : Bytes) (e : PacEntry) : Prop :=
  upper e.fileId = nvId → 2 ≤ (imageOf content (dataMarkers info) e).length

instance (info : PacInfo) (content : Bytes) (e : PacEntry) : Decidable (Roomy info content e) :=
  inferInstanceAs (Decidable (_ → _))

def markerSteps (info : PacInfo) (content : Bytes) (e : PacEntry) : List Step :=
  writeMarkerSteps e (imageOf content (dataMarkers info) e)

def writtenMarker (info : PacInfo) (content : Bytes) (e : PacEntry) : Transfer :=
  let data := imageOf content (dataMarkers info) e
  if upper e.fileId = nvId then writtenNv e.address data else written e.address data

theorem dataMarkers_mem {info : PacInfo} {e : PacEntry} (h : e ∈ dataMarkers info) :
    e ∈ info.entries := List.mem_of_mem_filter h

theorem flashable_mem {info : PacInfo} {e : PacEntry} (h : e ∈ flashableEntries info) :
    e ∈ info.entries := List.mem_of_mem_filter h

section Accepted

variable {info : PacInfo} (narrow : Narrow info.entries) (content : Bytes)
include narrow

theorem markerImage_length {e : PacEntry} (he : e ∈ dataMarkers info) :
    (imageOf content (dataMarkers info) e).length < 2 ^ 32 :=
  (narrow.filter _).imageOf_length content he

theorem partitionImage_length {e : PacEntry} (he : e ∈ flashableEntries info) :
    (imageOf content (flashableEntries info) e).length < 2 ^ 32 :=
  (narrow.filter _).imageOf_length content he

theorem markerSteps_yields {e : PacEntry} (he : e ∈ dataMarkers info)
    (roomy : Roomy info content e) :
    Yields (markerSteps info content e) [writtenMarker info content e] := by
  have address := (narrow e (dataMarkers_mem he)).2
  have length := markerImage_length narrow content he
  simp only [markerSteps, writeMarkerSteps, writtenMarker]
  split
  · rename_i isNv
    exact nv_yields address (roomy isNv) length
  · exact stage_yields address length bslChunk

theorem markerSteps_sound {e : PacEntry} (he : e ∈ dataMarkers info)
    (roomy : Roomy info content e) : Sound (markerSteps info content e) := by
  have address := (narrow e (dataMarkers_mem he)).2
  have length := markerImage_length narrow content he
  simp only [markerSteps, writeMarkerSteps]
  split
  · rename_i isNv
    exact nv_sound address (roomy isNv) length
  · exact stage_bslChunk_sound address length

omit narrow in
theorem markerSteps_halts {e : PacEntry} (short : ¬ Roomy info content e) :
    markerSteps info content e = [.fail (.indexError "bytearray index out of range")] := by
  have isNv : upper e.fileId = nvId := by
    by_contra other
    exact short fun same => absurd same other
  have noRoom : ¬ 2 ≤ (imageOf content (dataMarkers info) e).length := fun room =>
    short fun _ => room
  rw [markerSteps, writeMarkerSteps, if_pos isNv, nv_short noRoom]

end Accepted

def reached (info : PacInfo) (content : Bytes) : List PacEntry :=
  (dataMarkers info).takeWhile fun e => Roomy info content e

theorem mem_reached {info : PacInfo} {content : Bytes} {e : PacEntry}
    (h : e ∈ reached info content) : e ∈ dataMarkers info ∧ Roomy info content e :=
  ⟨(List.takeWhile_subset _) h, by simpa using List.mem_takeWhile_imp h⟩

theorem reached_eq {info : PacInfo} {content : Bytes}
    (h : ∀ e ∈ dataMarkers info, Roomy info content e) :
    reached info content = dataMarkers info :=
  List.takeWhile_eq_self_iff.mpr fun e he => by simpa using h e he

def opening (info : PacInfo) (fdl1 : PacEntry) (content : Bytes) (endChecksum : UInt32)
    (formatFs : Bool) : List Step :=
  loader fdl1 (Native.readEntry content fdl1) endChecksum ++
    ([.handOver, .setChecksum .sprd, .command bslCmdConnect [] "CONNECT"] ++
      (((fdl2Of info).toList.flatMap fun e =>
        stage e.address (Native.readEntry content e) bslChunk ++
          [.command bslCmdExecData [] "EXEC FDL2", .command bslCmdConnect [] "CONNECT"]) ++
        (((flashableEntries info).flatMap fun e =>
            stage e.address (imageOf content (flashableEntries info) e) bslChunk) ++
          if formatFs then (eraseOps info).flatMap eraseStep else [])))

theorem native_eq (info : PacInfo) (fdl1 : PacEntry) (content : Bytes) (options : NativeOptions) :
    native info fdl1 content options =
      opening info fdl1 content options.fdl1EndChecksum options.formatFs ++
        ((if options.formatFs then (dataMarkers info).flatMap (markerSteps info content) else []) ++
          reset options.doReset) := by
  have fdl2 := fdl2Load_eq info content
  rw [fdl2Of] at fdl2
  rw [native, bslWrites, opening, fdl2Of]
  simp only [fdl2, flatMap_fromDict, format]
  cases options.formatFs with
  | false => simp [writePartition]
  | true =>
    simp only [if_true, List.append_assoc, List.cons_append, List.nil_append]
    rfl

theorem reset_sound (doReset : Bool) : Sound (reset doReset) := by
  intro i hi
  rw [mem_reset hi]
  decide

theorem reset_yields (doReset : Bool) : Yields (reset doReset) [] := by
  apply yields_nil
  intro i hi c hc
  rw [mem_reset hi] at hc
  rw [List.mem_singleton.mp hc]
  rfl

theorem eraseParam_length {fileId : List Char} {param : Bytes}
    (h : eraseParam fileId = some param) : param.length = 4 := by
  have all : ∀ key, (∃ p, eraseParams.lookup key = some p ∧ p.length ≠ 4) → False := by
    rintro key ⟨p, found, odd⟩
    simp only [eraseParams, List.lookup_cons, List.lookup_nil] at found
    split at found
    · cases found
      exact odd rfl
    split at found
    · cases found
      exact odd rfl
    · cases found
  by_contra odd
  rw [eraseParam] at h
  cases first : eraseParams.lookup (upper fileId) with
  | some p =>
    rw [first] at h
    cases h
    exact all _ ⟨_, first, odd⟩
  | none =>
    rw [first] at h
    exact all _ ⟨_, h, odd⟩

theorem mem_eraseOpsFrom {seen : List ℕ} {entries : List PacEntry}
    {op : List Char × ℕ × Bytes} (h : op ∈ eraseOpsFrom seen entries) :
    op.2.2.length = 4 ∧ ∃ e ∈ entries, e.address = op.2.1 := by
  fun_induction eraseOpsFrom seen entries with
  | case1 => cases h
  | case2 seen e rest skip ih =>
    obtain ⟨length, b, hb, same⟩ := ih h
    exact ⟨length, b, List.mem_cons_of_mem e hb, same⟩
  | case3 seen e rest keep unknown ih =>
    obtain ⟨length, b, hb, same⟩ := ih h
    exact ⟨length, b, List.mem_cons_of_mem e hb, same⟩
  | case4 seen e rest keep param found repeated ih =>
    obtain ⟨length, b, hb, same⟩ := ih h
    exact ⟨length, b, List.mem_cons_of_mem e hb, same⟩
  | case5 seen e rest keep param found fresh ih =>
    rcases List.mem_cons.mp h with rfl | h
    · exact ⟨eraseParam_length found, e, List.mem_cons_self, rfl⟩
    · obtain ⟨length, b, hb, same⟩ := ih h
      exact ⟨length, b, List.mem_cons_of_mem e hb, same⟩

theorem eraseStep_eq {info : PacInfo} (narrow : Narrow info.entries) {op : List Char × ℕ × Bytes}
    (h : op ∈ eraseOps info) : ∃ what, eraseStep op =
      [.command bslCmdEraseFlash (field .big 4 op.2.1 ++ op.2.2) what] ∧ op.2.2.length = 4 := by
  obtain ⟨length, e, he, same⟩ := mem_eraseOpsFrom h
  have address := (narrow e he).2
  rw [same] at address
  rw [eraseStep, pack_ok .big 4 [op.2.1] (by simpa using address)]
  simp only [given, fields, List.flatMap_cons, List.flatMap_nil, List.append_nil]
  exact ⟨_, rfl, length⟩

section Opening

variable {info : PacInfo} {fdl1 : PacEntry} (narrow : Narrow info.entries)
variable (found : fdl1Of info = some fdl1)
include narrow

theorem erases_sound : Sound ((eraseOps info).flatMap eraseStep) := by
  apply sound_flatMap
  intro op hop i hi
  obtain ⟨what, steps, length⟩ := eraseStep_eq narrow hop
  rw [steps, List.mem_singleton] at hi
  simp [hi, halts, Framable, bslCmdEraseFlash, length]

theorem erases_yields : Yields ((eraseOps info).flatMap eraseStep) [] := by
  apply yields_nil
  intro i hi c hc
  obtain ⟨op, hop, hi⟩ := List.mem_flatMap.mp hi
  obtain ⟨what, steps, -⟩ := eraseStep_eq narrow hop
  rw [steps, List.mem_singleton] at hi
  rw [hi, emits, List.mem_singleton] at hc
  rw [hc]
  rfl

theorem loaderEntry_narrow {role : Role} {e : PacEntry}
    (h : info.entries.find? (fun e => classify e = role) = some e) (content : Bytes) :
    e.address < 2 ^ 32 ∧ (Native.readEntry content e).length < 2 ^ 32 := by
  have bounds := narrow e (List.mem_of_find?_eq_some h)
  exact ⟨bounds.2, (readEntry_length_le content e).trans_lt bounds.1⟩

theorem opening_yields (content : Bytes) (endChecksum : UInt32) (formatFs : Bool) :
    Yields (opening info fdl1 content endChecksum formatFs)
      (written fdl1.address (Native.readEntry content fdl1) ::
        ((fdl2Of info).toList.map (fun e => written e.address (Native.readEntry content e)) ++
          (flashableEntries info).map fun e =>
            written e.address (imageOf content (flashableEntries info) e))) := by
  have handshake : Yields [.handOver, .setChecksum .sprd,
    .command bslCmdConnect [] "CONNECT"] [] := by
    apply yields_nil
    intro i hi c hc
    simp only [List.mem_cons, List.not_mem_nil, or_false] at hi
    rcases hi with rfl | rfl | rfl
    · rw [List.mem_singleton.mp hc]
      rfl
    · exact absurd hc List.not_mem_nil
    · rw [List.mem_singleton.mp hc]
      rfl
  have start : Yields [.command bslCmdExecData [] "EXEC FDL2", .command bslCmdConnect [] "CONNECT"]
      [] := by
    apply yields_nil
    intro i hi c hc
    simp only [List.mem_cons, List.not_mem_nil, or_false] at hi
    rcases hi with rfl | rfl
    · rw [List.mem_singleton.mp hc]
      rfl
    · rw [List.mem_singleton.mp hc]
      rfl
  have fdl2 : Yields ((fdl2Of info).toList.flatMap fun e =>
      stage e.address (Native.readEntry content e) bslChunk ++
        [.command bslCmdExecData [] "EXEC FDL2", .command bslCmdConnect [] "CONNECT"])
      ((fdl2Of info).toList.map fun e => written e.address (Native.readEntry content e)) := by
    apply yields_flatMap
    intro e he
    have stage := loaderEntry_narrow narrow (Option.mem_toList.mp he) content
    exact (stage_yields stage.1 stage.2 bslChunk).append start
  have partitions : Yields ((flashableEntries info).flatMap fun e =>
      stage e.address (imageOf content (flashableEntries info) e) bslChunk)
      ((flashableEntries info).map fun e =>
        written e.address (imageOf content (flashableEntries info) e)) := by
    apply yields_flatMap
    intro e he
    exact stage_yields (narrow e (flashable_mem he)).2 (partitionImage_length narrow content he)
      bslChunk
  have erases : Yields (if formatFs then (eraseOps info).flatMap eraseStep else []) [] := by
    cases formatFs
    · exact fun rest => rfl
    · exact erases_yields narrow
  have whole := (loader_yields fdl1 (Native.readEntry content fdl1) endChecksum).append
    (handshake.append (fdl2.append (partitions.append erases)))
  simpa [opening] using whole

include found

theorem opening_sound (content : Bytes) (endChecksum : UInt32) (formatFs : Bool) :
    Sound (opening info fdl1 content endChecksum formatFs) := by
  have loader := loaderEntry_narrow narrow found content
  refine (loader_sound loader.1 loader.2 endChecksum).append (Sound.append ?_
    (Sound.append (sound_flatMap ?_) (Sound.append (sound_flatMap ?_) ?_)))
  · intro i hi
    simp only [List.mem_cons, List.not_mem_nil, or_false] at hi
    rcases hi with rfl | rfl | rfl <;> decide
  · intro e he
    have stage := loaderEntry_narrow narrow (Option.mem_toList.mp he) content
    refine (stage_bslChunk_sound stage.1 stage.2).append ?_
    intro i hi
    simp only [List.mem_cons, List.not_mem_nil, or_false] at hi
    rcases hi with rfl | rfl <;> decide
  · intro e he
    exact stage_bslChunk_sound (narrow e (flashable_mem he)).2
      (partitionImage_length narrow content he)
  · cases formatFs
    · exact fun i hi => absurd hi List.not_mem_nil
    · exact erases_sound narrow

end Opening

theorem commands_append {xs : List Step} (sound : Sound xs) (ys : List Step) :
    commands (xs ++ ys) = xs.flatMap emits ++ commands ys := by
  rw [commands, live_append_of_forall ys sound, List.flatMap_append, commands]

/-- All transfers of a run that nothing but the package stops. -/
def planned (info : PacInfo) (fdl1 : PacEntry) (content : Bytes) (formatFs : Bool) :
    List Transfer :=
  (written fdl1.address (Native.readEntry content fdl1) ::
    ((fdl2Of info).toList.map (fun e => written e.address (Native.readEntry content e)) ++
      (flashableEntries info).map fun e =>
        written e.address (imageOf content (flashableEntries info) e))) ++
    if formatFs then (reached info content).map (writtenMarker info content) else []

section Native

variable {info : PacInfo} {fdl1 : PacEntry} (narrow : Narrow info.entries)
include narrow

/-- Of a run of markers, those before the first without room are written. -/
theorem commands_markers (content : Bytes) (last : Bool) {markers : List PacEntry}
    (h : ∀ e ∈ markers, e ∈ dataMarkers info) :
    ∃ rest, transfers rest = [] ∧
      commands (markers.flatMap (markerSteps info content) ++ reset last) =
        ((markers.takeWhile fun e => Roomy info content e).flatMap
          (markerSteps info content)).flatMap emits ++ rest := by
  induction markers with
  | nil =>
    refine ⟨(reset last).flatMap emits, ?_, ?_⟩
    · have nothing := reset_yields last []
      rwa [List.append_nil] at nothing
    · rw [List.flatMap_nil, List.nil_append, commands, live_eq_self (reset_sound last)]
      rfl
  | cons e markers ih =>
    obtain ⟨rest, empty, split⟩ := ih fun b hb => h b (List.mem_cons_of_mem e hb)
    rw [List.flatMap_cons, List.append_assoc]
    by_cases roomy : Roomy info content e
    · refine ⟨rest, empty, ?_⟩
      rw [commands_append (markerSteps_sound narrow content (h e List.mem_cons_self) roomy), split,
        List.takeWhile_cons_of_pos (by simpa using roomy), List.flatMap_cons, List.flatMap_append,
        List.append_assoc]
    · refine ⟨[], rfl, ?_⟩
      rw [markerSteps_halts content roomy, List.takeWhile_cons_of_neg (by simpa using roomy),
        List.cons_append, commands, live_cons_of_halts _ rfl]
      rfl

theorem markers_yield (content : Bytes) :
    Yields ((reached info content).flatMap (markerSteps info content))
      ((reached info content).map (writtenMarker info content)) :=
  yields_flatMap fun _ he =>
    markerSteps_yields narrow content (mem_reached he).1 (mem_reached he).2

variable (found : fdl1Of info = some fdl1)
include found

theorem native_transfers (content : Bytes) (options : NativeOptions) :
    transfers (commands (native info fdl1 content options)) =
      planned info fdl1 content options.formatFs := by
  have sound := opening_sound narrow found content options.fdl1EndChecksum options.formatFs
  have yields : Yields (opening info fdl1 content options.fdl1EndChecksum options.formatFs) _ :=
    opening_yields narrow content options.fdl1EndChecksum options.formatFs
  rw [native_eq, commands_append sound, yields, planned]
  congr 1
  cases options.formatFs with
  | false =>
    have nothing := reset_yields options.doReset []
    rw [List.append_nil] at nothing
    simp only [Bool.false_eq_true, if_false, List.nil_append]
    rw [commands, live_eq_self (reset_sound options.doReset), nothing]
    rfl
  | true =>
    obtain ⟨rest, empty, split⟩ := commands_markers narrow content options.doReset
      (fun e (he : e ∈ dataMarkers info) => he)
    have markers := markers_yield narrow content rest
    simp only [if_true]
    rw [split]
    rw [empty, List.append_nil] at markers
    exact markers

theorem native_sound_iff (content : Bytes) (options : NativeOptions) :
    Sound (native info fdl1 content options) ↔
      (options.formatFs = true → ∀ e ∈ dataMarkers info, Roomy info content e) := by
  have sound := opening_sound narrow found content options.fdl1EndChecksum options.formatFs
  rw [native_eq]
  constructor
  · intro whole format e he
    by_contra short
    have stop : Step.fail (.indexError "bytearray index out of range") ∈
        markerSteps info content e := by
      rw [markerSteps_halts content short]
      exact List.mem_cons_self
    have mem : Step.fail (.indexError "bytearray index out of range") ∈
        (dataMarkers info).flatMap (markerSteps info content) := List.mem_flatMap_of_mem he stop
    rw [if_pos format] at whole
    exact absurd (whole _ (List.mem_append_right _ (List.mem_append_left _ mem))) (by decide)
  · intro roomy
    refine sound.append (Sound.append ?_ (reset_sound _))
    split
    · rename_i format
      exact sound_flatMap fun e he => markerSteps_sound narrow content he (roomy format e he)
    · exact fun i hi => absurd hi List.not_mem_nil

end Native

end SprdFlash.Package
