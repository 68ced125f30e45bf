import SprdFlash.FailStop
import SprdFlash.Library.Firsts

/-!
The BSL operations of `native_flash` with `format_fs`, in the order in which an
acknowledging device gets them: loader, partitions, one erase for each address
that an eligible marker names, data-bearing markers, reset.
-/

namespace SprdFlash.FormatSession

open Message Port Pac SpdIO Flasher Native Struct Script Plan Exchange WireLog Runs Transfers
open Package Acknowledging

def isBsl : Sent → Bool
  | .bsl _ _ => true
  | .pdl _ _ _ _ => false

def bslOps (log : List Act) : List Sent := (sentCmds log).filter isBsl

def connectOp : Sent := .bsl bslCmdConnect []

def stageOps (addr : ℕ) (data : Bytes) : List Sent :=
  .bsl bslCmdStartData (fields .big 4 [addr, data.length]) ::
    ((Pieces.pieces bslChunk data).map (.bsl bslCmdMidstData ·) ++ [.bsl bslCmdEndData []])

def nvOps (addr : ℕ) (template : Bytes) : List Sent :=
  .bsl bslCmdStartData (fields .big 4 [addr, template.length, sum32 (nvFixed template)]) ::
    ((Pieces.pieces bslChunk (nvFixed template)).map (.bsl bslCmdMidstData ·) ++
      [.bsl bslCmdEndData []])

def secondLoader (info : PacInfo) : Option PacEntry :=
  info.entries.find? fun e => classify e = .fdl2

def fdl2Ops (info : PacInfo) (content : Bytes) : List Sent :=
  match secondLoader info with
  | none => []
  | some e => stageOps e.address (Native.readEntry content e) ++
      [.bsl bslCmdExecData [], connectOp]

def partitions (info : PacInfo) : List PacEntry :=
  info.entries.filter fun e => classify e = .flash

def partitionOps (info : PacInfo) (content : Bytes) : List Sent :=
  (partitions info).flatMap fun e => stageOps e.address (imageOf content (partitions info) e)

/-- What an erase of this name carries behind the address, upper and lower case
being the same. -/
def eraseWord (fileId : List Char) : Option Bytes := eraseParams.lookup (upper fileId)

/-- A zero-size marker of a logical address whose name has an erase parameter. -/
def Eligible (e : PacEntry) : Prop :=
  e.size = 0 ∧ logicalAddressBase ≤ e.address ∧ (eraseWord e.fileId).isSome

instance (e : PacEntry) : Decidable (Eligible e) := inferInstanceAs (Decidable (_ ∧ _ ∧ _))

/-- The first eligible marker of each address. -/
def erased (info : PacInfo) : List PacEntry :=
  Firsts.firsts PacEntry.address (info.entries.filter fun e => Eligible e)

def eraseOp (e : PacEntry) : Sent :=
  .bsl bslCmdEraseFlash (field .big 4 e.address ++ (eraseWord e.fileId).getD [])

def markers (info : PacInfo) : List PacEntry :=
  info.entries.filter fun e => e.size ≠ 0 ∧ logicalAddressBase ≤ e.address

def markerOps (info : PacInfo) (content : Bytes) (e : PacEntry) : List Sent :=
  let data := imageOf content (markers info) e
  if upper e.fileId = nvId then nvOps e.address data else stageOps e.address data

def resetOps (doReset : Bool) : List Sent :=
  if doReset then [.bsl bslCmdNormalReset []] else []

/-- A format, operation by operation. -/
def session (info : PacInfo) (content : Bytes) (doReset : Bool) : List Sent :=
  connectOp :: fdl2Ops info content ++ partitionOps info content ++ (erased info).map eraseOp ++
    (markers info).flatMap (markerOps info content) ++ resetOps doReset

def erasedAddress : Sent → Option ℕ
  | .bsl cmd data => if cmd = bslCmdEraseFlash then some (unpack .big (data.take 4)) else none
  | .pdl _ _ _ _ => none

/-- Of two operations in order: what is behind an erase writes only to logical
addresses, what is in front of one to none of them. -/
def Ordered (c d : Sent) : Prop :=
  ((erasedAddress c).isSome → ∀ start, startOf d = some start → logicalAddressBase ≤ start.1) ∧
    ((erasedAddress d).isSome → ∀ start, startOf c = some start → start.1 < logicalAddressBase)

section Plan

theorem eraseParam_eq (fileId : List Char) : eraseParam fileId = eraseWord fileId := by
  -- a name that is found as it stands is found in upper case
  have kept : ∀ param, eraseParams.lookup fileId = some param →
      eraseParams.lookup (upper fileId) = some param := by
    intro param found
    simp only [eraseParams, List.lookup_cons, List.lookup_nil] at found
    split at found
    · rename_i same
      rw [← found, eq_of_beq same]
      decide
    · split at found
      · rename_i same
        rw [← found, eq_of_beq same]
        decide
      · cases found
  rw [eraseParam, eraseWord]
  cases first : eraseParams.lookup (upper fileId) with
  | some param => rfl
  | none =>
    cases plain : eraseParams.lookup fileId with
    | none => rfl
    | some param =>
      rw [kept param plain] at first
      cases first

theorem eligible_of {e : PacEntry} {param : Bytes}
    (keep : ¬ (classify e ≠ .marker ∨ e.size ≠ 0 ∨ e.address < 0xFE000000))
    (found : eraseParam e.fileId = some param) : Eligible e := by
  rw [eraseParam_eq] at found
  simp only [not_or, not_not, not_lt] at keep
  exact ⟨keep.2.1, keep.2.2, by rw [found]; rfl⟩

/-- The loop of `_erase_ops` keeps the first eligible marker of each address. -/
theorem eraseOpsFrom_eq (seen : List ℕ) (entries : List PacEntry) :
    eraseOpsFrom seen entries =
      (Firsts.unseen PacEntry.address seen (entries.filter fun e => Eligible e)).map fun e =>
        (e.fileId, e.address, (eraseWord e.fileId).getD []) := by
  fun_induction eraseOpsFrom seen entries with
  | case1 => rfl
  | case2 seen e rest skip ih =>
    have other : ¬ Eligible e := by
      rintro ⟨empty, logical, -⟩
      rcases skip with role | size | address
      · exact role (by rw [classify, if_pos (.inl empty)])
      · exact size empty
      · exact absurd logical (Nat.not_le.mpr address)
    rw [List.filter_cons_of_neg (by simpa using other), ih]
  | case3 seen e rest keep unknown ih =>
    have other : ¬ Eligible e := by
      rintro ⟨-, -, known⟩
      rw [← eraseParam_eq, unknown] at known
      cases known
    rw [List.filter_cons_of_neg (by simpa using other), ih]
  | case4 seen e rest keep param found repeated ih =>
    rw [List.filter_cons_of_pos (by simpa using eligible_of keep found),
      Firsts.unseen_cons_of_mem PacEntry.address repeated, ih]
  | case5 seen e rest keep param found fresh ih =>
    rw [List.filter_cons_of_pos (by simpa using eligible_of keep found),
      Firsts.unseen_cons_of_notMem PacEntry.address fresh, ih, List.map_cons,
        ← eraseParam_eq, found]
    rfl

theorem fdl2Of_eq (info : PacInfo) : fdl2Of info = secondLoader info := rfl

/-- A logical address makes an entry a marker. -/
theorem dataMarkers_eq (info : PacInfo) : dataMarkers info = markers info := by
  refine List.filter_congr fun e _ => ?_
  by_cases logical : logicalAddressBase ≤ e.address
  · have role : classify e = .marker := by rw [classify, if_pos (.inr (.inr logical))]
    simp [role, logical, show 0xFE000000 ≤ e.address from logical]
  · simp [logical, show ¬ 0xFE000000 ≤ e.address from logical]

theorem eraseOps_eq (info : PacInfo) : eraseOps info =
    (erased info).map fun e => (e.fileId, e.address, (eraseWord e.fileId).getD []) := by
  rw [eraseOps, eraseOpsFrom_eq, Firsts.unseen_nil, erased]

theorem mem_erased {info : PacInfo} {e : PacEntry} (h : e ∈ erased info) :
    e ∈ info.entries ∧ Eligible e := by
  have kept := (Firsts.firsts_sublist PacEntry.address _).subset h
  simpa using List.mem_filter.mp kept

theorem stage_emits {addr : ℕ} {data : Bytes} (haddr : addr < 2 ^ 32)
    (hdata : data.length < 2 ^ 32) :
    (stage addr data bslChunk).flatMap emits = stageOps addr data := by
  rw [stage_eq haddr hdata, List.flatMap_cons, List.flatMap_append, pieces_sent]
  rfl

theorem nv_emits {addr : ℕ} {template : Bytes} (haddr : addr < 2 ^ 32)
    (room : 2 ≤ template.length) (hdata : template.length < 2 ^ 32) :
    (nv addr template).flatMap emits = nvOps addr template := by
  rw [nv_eq haddr room hdata, List.flatMap_cons, List.flatMap_append, pieces_sent]
  rfl

theorem reset_emits (doReset : Bool) : (reset doReset).flatMap emits = resetOps doReset := by
  cases doReset
  · rfl
  · rfl

theorem loader_emits (fdl1 : PacEntry) (data : Bytes) (endChecksum : UInt32) :
    ((loader fdl1 data endChecksum).flatMap emits).filter isBsl = [] := by
  have requests : ∀ i ∈ loader fdl1 data endChecksum, ∀ c ∈ emits i, isBsl c = false := by
    have request (cmd : Pdl.Command) (arg1 arg2 : ℕ) (extra : Bytes) :
        ∀ c ∈ emits (.request cmd arg1 arg2 extra), isBsl c = false := by
      simp [emits, isBsl]
    rw [loader, image, List.forall_mem_cons, List.forall_mem_cons, List.forall_mem_append,
      List.forall_mem_map]
    refine ⟨request _ _ _ _, request _ _ _ _, fun block _ => request _ _ _ _,
      forall_given (fun _ => by simp [emits]) _ fun trailer => ?_⟩
    rw [List.forall_mem_singleton]
    exact request _ _ _ _
  rw [List.filter_eq_nil_iff, List.forall_mem_flatMap]
  exact fun i hi c hc => by simp [requests i hi c hc]

theorem exchanged_isBsl {erasing : Bool} {steps : List Step}
    (h : ∀ i ∈ steps, Exchanged erasing i) :
    (steps.flatMap emits).filter isBsl = steps.flatMap emits := by
  rw [List.filter_eq_self, List.forall_mem_flatMap]
  intro i hi c hc
  have exchanged := h i hi
  cases i with
  | command cmd data what =>
    rw [List.mem_singleton.mp hc]
    rfl
  | lenient cmd data what =>
    rw [List.mem_singleton.mp hc]
    rfl
  | fail e => exact absurd hc List.not_mem_nil
  | _ => exact exchanged.elim

section Accepted

variable {info : PacInfo} (narrow : Narrow info.entries) (content : Bytes)
include narrow

theorem fdl2_emits :
    (fdl2Load (fdl2Of info)
      (((fdl2Of info).map (Native.readEntry content)).getD [])).flatMap emits =
      fdl2Ops info content := by
  rw [fdl2Ops, ← fdl2Of_eq]
  cases found : fdl2Of info with
  | none => rfl
  | some e =>
    have bounds := loaderEntry_narrow narrow found content
    simp only [fdl2Load, Option.map_some, Option.getD_some]
    rw [List.flatMap_append, stage_emits bounds.1 bounds.2]
    rfl

theorem partitions_emits :
    ((flashableEntries info).flatMap
        (fromDict (imageDict content (flashableEntries info)) writePartition)).flatMap emits =
      partitionOps info content := by
  rw [flatMap_fromDict, List.flatMap_assoc, partitionOps]
  exact List.flatMap_congr fun e he =>
    stage_emits (narrow e (flashable_mem he)).2 (partitionImage_length narrow content he)

omit content in
theorem erases_emits :
    ((eraseOps info).flatMap eraseStep).flatMap emits = (erased info).map eraseOp := by
  rw [eraseOps_eq, List.flatMap_map, List.flatMap_assoc, List.map_eq_flatMap]
  refine List.flatMap_congr fun e he => ?_
  have address := (narrow e (mem_erased he).1).2
  rw [eraseStep, pack_ok .big 4 [e.address] (by simpa using address)]
  simp [given, fields, emits, eraseOp]

theorem markers_emits (roomy : ∀ e ∈ dataMarkers info, Roomy info content e) :
    ((dataMarkers info).flatMap
        (fromDict (imageDict content (dataMarkers info)) writeMarkerSteps)).flatMap emits =
      (markers info).flatMap (markerOps info content) := by
  rw [flatMap_fromDict, List.flatMap_assoc, ← dataMarkers_eq]
  refine List.flatMap_congr fun e he => ?_
  have address := (narrow e (dataMarkers_mem he)).2
  have length := markerImage_length narrow content he
  simp only [writeMarkerSteps, markerOps, ← dataMarkers_eq]
  split
  · rename_i isNv
    exact nv_emits address (roomy e he isNv) length
  · exact stage_emits address length

theorem native_emits {fdl1 : PacEntry} (options : NativeOptions) (format : options.formatFs = true)
    (roomy : ∀ e ∈ dataMarkers info, Roomy info content e) :
    ((native info fdl1 content options).flatMap emits).filter isBsl =
      session info content options.doReset := by
  have second := exchanged_isBsl (exchanged_bslWrites info content options.formatFs)
  have handshake : (emits .handOver).filter isBsl = [] := rfl
  have mode : emits (.setChecksum .sprd) = [] := rfl
  have last : (resetOps options.doReset).filter isBsl = resetOps options.doReset := by
    cases options.doReset
    · rfl
    · rfl
  rw [native, List.flatMap_append, List.flatMap_append, List.flatMap_cons, List.flatMap_cons,
    List.filter_append, List.filter_append, List.filter_append, loader_emits, handshake, mode,
    List.nil_append, List.nil_append, List.nil_append, second, reset_emits, last]
  rw [bslWrites, format, if_pos rfl, Plan.format, List.flatMap_append, List.flatMap_append,
    List.flatMap_append, List.flatMap_cons, ← fdl2Of, fdl2_emits narrow, partitions_emits narrow,
    erases_emits narrow, markers_emits narrow content roomy, session]
  simp [emits, connectOp]

end Accepted

end Plan

section Order

def WritesAt (addr : ℕ) (c : Sent) : Prop :=
  erasedAddress c = none ∧ ∀ start, startOf c = some start → start.1 = addr

theorem bsl_writesAt (addr : ℕ) {cmd : ℕ} (data : Bytes)
    (other : cmd ≠ bslCmdEraseFlash ∧ cmd ≠ bslCmdStartData) : WritesAt addr (.bsl cmd data) := by
  refine ⟨by rw [erasedAddress, if_neg other.1], fun start opened => ?_⟩
  rw [startOf, if_neg other.2] at opened
  cases opened

theorem transfer_writesAt {addr size : ℕ} (haddr : addr < 2 ^ 32) (hsize : size < 2 ^ 32)
    (more : List ℕ) (pieces : List Bytes) :
    ∀ c ∈ Sent.bsl bslCmdStartData (fields .big 4 (addr :: size :: more)) ::
      (pieces.map (.bsl bslCmdMidstData ·) ++ [.bsl bslCmdEndData []]), WritesAt addr c := by
  rw [List.forall_mem_cons, List.forall_mem_append, List.forall_mem_map, List.forall_mem_singleton]
  refine ⟨⟨rfl, fun start opened => ?_⟩, fun piece _ => bsl_writesAt addr piece (by decide),
    bsl_writesAt addr [] (by decide)⟩
  rw [startOf_words haddr hsize] at opened
  cases opened
  rfl

def Early (c : Sent) : Prop :=
  erasedAddress c = none ∧ ∀ start, startOf c = some start → start.1 < logicalAddressBase

def Late (c : Sent) : Prop :=
  erasedAddress c = none ∧ ∀ start, startOf c = some start → logicalAddressBase ≤ start.1

theorem WritesAt.early {addr : ℕ} {c : Sent} (h : WritesAt addr c)
    (physical : addr < logicalAddressBase) : Early c :=
  ⟨h.1, fun start opened => by rwa [h.2 start opened]⟩

theorem WritesAt.late {addr : ℕ} {c : Sent} (h : WritesAt addr c)
    (logical : logicalAddressBase ≤ addr) : Late c :=
  ⟨h.1, fun start opened => by rwa [h.2 start opened]⟩

theorem phases_ordered {front erases back : List Sent} (early : ∀ c ∈ front, Early c)
    (quiet : ∀ c ∈ erases, startOf c = none) (late : ∀ c ∈ back, Late c) :
    (front ++ erases ++ back).Pairwise Ordered := by
  have none_early (c : Sent) (hc : c ∈ front) : ¬ (erasedAddress c).isSome := by
    simp [(early c hc).1]
  have none_late (c : Sent) (hc : c ∈ back) : ¬ (erasedAddress c).isSome := by
    simp [(late c hc).1]
  have unopened (c : Sent) (hc : c ∈ erases) (start : ℕ × ℕ × Bool) :
      startOf c ≠ some start := by
    simp [quiet c hc]
  rw [List.pairwise_append, List.pairwise_append]
  refine ⟨⟨List.pairwise_of_forall_mem_list fun c hc d hd => ?_,
    List.pairwise_of_forall_mem_list fun c hc d hd => ?_, fun c hc d hd => ?_⟩,
    List.pairwise_of_forall_mem_list fun c hc d hd => ?_, fun c hc d hd => ?_⟩
  · exact ⟨fun h => absurd h (none_early c hc), fun h => absurd h (none_early d hd)⟩
  · exact ⟨fun _ start h => absurd h (unopened d hd start),
      fun _ start h => absurd h (unopened c hc start)⟩
  · exact ⟨fun h => absurd h (none_early c hc), fun _ => (early c hc).2⟩
  · exact ⟨fun h => absurd h (none_late c hc), fun h => absurd h (none_late d hd)⟩
  · refine ⟨fun _ => (late d hd).2, fun h => absurd h (none_late d hd)⟩

variable {info : PacInfo} (narrow : Narrow info.entries) (content : Bytes)
include narrow

theorem front_early : ∀ c ∈ connectOp :: fdl2Ops info content ++ partitionOps info content,
    Early c := by
  have plain {cmd : ℕ} (other : cmd ≠ bslCmdEraseFlash ∧ cmd ≠ bslCmdStartData) :
      Early (.bsl cmd []) := (bsl_writesAt 0 [] other).early (by decide)
  rw [List.cons_append, List.forall_mem_cons, List.forall_mem_append]
  refine ⟨plain (by decide), ?_, ?_⟩
  · rw [fdl2Ops, ← fdl2Of_eq]
    cases found : fdl2Of info with
    | none => exact fun c hc => absurd hc List.not_mem_nil
    | some e =>
      have bounds := loaderEntry_narrow narrow found content
      have physical := (classify_ne_marker ((find_role found).2.trans_ne (by decide))).2.2
      simp only [List.forall_mem_append, List.forall_mem_cons]
      exact ⟨fun c hc => (transfer_writesAt bounds.1 bounds.2 [] _ c hc).early physical,
        plain (by decide), plain (by decide), fun c hc => absurd hc List.not_mem_nil⟩
  · rw [partitionOps, List.forall_mem_flatMap]
    intro e he c hc
    have role : classify e = .flash := by simpa using (List.mem_filter.mp he).2
    exact (transfer_writesAt (narrow e (flashable_mem he)).2
      (partitionImage_length narrow content he)
      [] _ c hc).early (classify_ne_marker (role.trans_ne (by decide))).2.2

theorem back_late (doReset : Bool) :
    ∀ c ∈ (markers info).flatMap (markerOps info content) ++ resetOps doReset, Late c := by
  rw [List.forall_mem_append, List.forall_mem_flatMap, ← dataMarkers_eq]
  refine ⟨fun e he c hc => ?_, fun c hc => ?_⟩
  · have address := (narrow e (dataMarkers_mem he)).2
    have length := markerImage_length narrow content he
    have logical : logicalAddressBase ≤ e.address := by
      have kept := (List.mem_filter.mp he).2
      simp only [Bool.and_eq_true, decide_eq_true_eq] at kept
      exact kept.2
    have at_address : WritesAt e.address c := by
      simp only [markerOps, ← dataMarkers_eq] at hc
      split at hc
      · exact transfer_writesAt address length [_] _ c hc
      · exact transfer_writesAt address length [] _ c hc
    exact at_address.late logical
  · cases doReset with
    | false => exact absurd hc List.not_mem_nil
    | true =>
      rw [List.mem_singleton.mp hc]
      exact (bsl_writesAt logicalAddressBase [] (by decide)).late le_rfl

theorem erasedAddress_eraseOp {e : PacEntry} (he : e ∈ erased info) :
    erasedAddress (eraseOp e) = some e.address := by
  have address := (narrow e (mem_erased he).1).2
  have first : (field .big 4 e.address ++ (eraseWord e.fileId).getD []).take 4 =
      field .big 4 e.address := List.take_left' (by simp)
  rw [eraseOp, erasedAddress, if_pos rfl, first, unpack_field .big 4 _ address]

theorem session_erases (doReset : Bool) :
    (session info content doReset).filterMap erasedAddress =
      (erased info).map PacEntry.address := by
  have nothing {cs : List Sent} (h : ∀ c ∈ cs, erasedAddress c = none) :
      cs.filterMap erasedAddress = [] := List.filterMap_eq_nil_iff.mpr h
  have addresses : ((erased info).map eraseOp).filterMap erasedAddress =
      (erased info).map PacEntry.address := by
    rw [List.filterMap_map, ← List.filterMap_eq_map]
    exact List.filterMap_congr fun e he => erasedAddress_eraseOp narrow he
  rw [session, List.append_assoc, List.filterMap_append, List.filterMap_append,
    nothing fun c hc => (front_early narrow content c hc).1,
    nothing fun c hc => (back_late narrow content doReset c hc).1, addresses, List.append_nil,
    List.nil_append]

theorem session_ordered (doReset : Bool) : (session info content doReset).Pairwise Ordered := by
  rw [session, List.append_assoc]
  refine phases_ordered (front_early narrow content) ?_ (back_late narrow content doReset)
  rw [List.forall_mem_map]
  exact fun e _ => rfl

end Order

section Runs

variable {σ : Type} [Device σ] [AckDevice σ]

/-- A format does exactly the operations of its package, in order. -/
theorem nativeFlash_format {path : PacFile} {info : PacInfo} (accepted : Accepted path info)
    (loader : ∃ e ∈ info.entries, classify e = .fdl1)
    (inFile : ∀ e ∈ info.entries, InFile path.content e)
    (slotted : ∀ e ∈ markers info, upper e.fileId = nvId → 2 ≤ e.size)
    (com : String) (endChecksum : UInt32) (doReset : Bool) (d : σ) :
    ∃ t, nativeFlash path ⟨com, endChecksum, true, doReset⟩ (Port.fresh d) = .ok () t ∧
      bslOps t.log = session info path.content doReset ∧
      ((bslOps t.log).filterMap erasedAddress).Nodup ∧
      (bslOps t.log).Pairwise Ordered := by
  have narrow := accepted_narrow accepted
  obtain ⟨fdl1, found⟩ : ∃ fdl1, fdl1Of info = some fdl1 := by
    rw [← Option.isSome_iff_exists, fdl1Of, List.find?_isSome]
    simpa using loader
  rw [← dataMarkers_eq] at slotted
  have roomy : ∀ e ∈ dataMarkers info, Roomy info path.content e := by
    intro e he isNv
    have held := standIn_mem he
    have size : 2 ≤ (standIn (dataMarkers info) e).size :=
      slotted _ held.1 (by rw [held.2]; exact isNv)
    rw [imageOf, (readEntry_length_iff (by omega)).mpr (inFile _ (dataMarkers_mem held.1))]
    exact size
  have sound := (native_sound_iff narrow found path.content
    ⟨com, endChecksum, true, doReset⟩).mpr fun _ => roomy
  obtain ⟨t, written, ⟨-, returned⟩ | ⟨⟨i, hi, stop⟩, -⟩⟩ :=
    nativeFlash_acknowledged accepted found ⟨com, endChecksum, true, doReset⟩ d
  · have ops : bslOps t.log = session info path.content doReset := by
      rw [bslOps, written, commands, live_eq_self sound]
      exact native_emits narrow path.content ⟨com, endChecksum, true, doReset⟩ rfl roomy
    refine ⟨t, returned, ops, ?_, ?_⟩
    · rw [ops, session_erases narrow]
      exact Firsts.firsts_nodup PacEntry.address _
    · rw [ops]
      exact session_ordered narrow path.content doReset
  · rw [sound i hi] at stop
    cases stop

end Runs

section Package

open PacImage

def flashId : List Char := ['F', 'L', 'A', 'S', 'H']

/-- Both loaders, an NV image in front of a partition, and three markers of two
addresses. -/
def markedEntries : List PacEntry :=
  [entry hostFdl 0x00838000 (payloadOffset 7) 1, entry ['f', 'l', 'a', 's', 'h'] 0xFE000002 0 0,
    entry nvId 0xFE000003 (payloadOffset 7 + 1) 3, entry flashId 0xFE000002 0 0,
    entry ['A', 'P'] 0x60010000 (payloadOffset 7 + 4) 1,
    entry ['f', 'm', 't', '_', 'f', 's', 's', 'y', 's'] 0xFE000001 0 0,
    entry ['F', 'D', 'L', '2'] 0x00810000 (payloadOffset 7 + 5) 1]

def marked : PacFile := image "marked.pac" markedEntries [0x11, 0x31, 0x32, 0x33, 0x21, 0x12]

theorem marked_layable : Layable markedEntries [0x11, 0x31, 0x32, 0x33, 0x21, 0x12] where
  storable := by decide
  size := by decide

def markedOps : List Sent :=
  [.bsl bslCmdConnect [],
    .bsl bslCmdStartData [0, 0x81, 0, 0, 0, 0, 0, 1], .bsl bslCmdMidstData [0x12],
    .bsl bslCmdEndData [], .bsl bslCmdExecData [], .bsl bslCmdConnect [],
    .bsl bslCmdStartData [0x60, 1, 0, 0, 0, 0, 0, 1], .bsl bslCmdMidstData [0x21],
    .bsl bslCmdEndData [],
    .bsl bslCmdEraseFlash [0xFE, 0, 0, 2, 0, 0, 0, 0],
    .bsl bslCmdEraseFlash [0xFE, 0, 0, 1, 0x53, 0x59, 0x53, 0x46],
    .bsl bslCmdStartData [0xFE, 0, 0, 3, 0, 0, 0, 3, 0, 0, 0, 0x88],
    .bsl bslCmdMidstData [0x15, 0x40, 0x33], .bsl bslCmdEndData [],
    .bsl bslCmdNormalReset []]

section Marked

variable {info : PacInfo} (entries : info.entries = markedEntries)

include entries

theorem marked_fdl2Ops : fdl2Ops info marked.content =
    [.bsl bslCmdStartData [0, 0x81, 0, 0, 0, 0, 0, 1], .bsl bslCmdMidstData [0x12],
      .bsl bslCmdEndData [], .bsl bslCmdExecData [], .bsl bslCmdConnect []] := by
  have second : secondLoader info =
      some (entry ['F', 'D', 'L', '2'] 0x00810000 (payloadOffset 7 + 5) 1) := by
    rw [secondLoader, entries]
    rfl
  have image : Native.readEntry marked.content
      (entry ['F', 'D', 'L', '2'] 0x00810000 (payloadOffset 7 + 5) 1) = [0x12] :=
    readAt_image "marked.pac" marked_layable 5 1
  simp only [fdl2Ops, second, image]
  rw [stageOps, Pieces.pieces_short (by decide) (by decide)]
  decide

theorem marked_partitionOps : partitionOps info marked.content =
    [.bsl bslCmdStartData [0x60, 1, 0, 0, 0, 0, 0, 1], .bsl bslCmdMidstData [0x21],
      .bsl bslCmdEndData []] := by
  have parts : partitions info = [entry ['A', 'P'] 0x60010000 (payloadOffset 7 + 4) 1] := by
    rw [partitions, entries]
    rfl
  have image : imageOf marked.content [entry ['A', 'P'] 0x60010000 (payloadOffset 7 + 4) 1]
      (entry ['A', 'P'] 0x60010000 (payloadOffset 7 + 4) 1) = [0x21] :=
    readAt_image "marked.pac" marked_layable 4 1
  rw [partitionOps, parts, List.flatMap_singleton, image, stageOps,
    Pieces.pieces_short (by decide) (by decide)]
  decide

theorem marked_markerOps : (markers info).flatMap (markerOps info marked.content) =
    [.bsl bslCmdStartData [0xFE, 0, 0, 3, 0, 0, 0, 3, 0, 0, 0, 0x88],
      .bsl bslCmdMidstData [0x15, 0x40, 0x33], .bsl bslCmdEndData []] := by
  have marks : markers info = [entry nvId 0xFE000003 (payloadOffset 7 + 1) 3] := by
    rw [markers, entries]
    rfl
  have template : imageOf marked.content [entry nvId 0xFE000003 (payloadOffset 7 + 1) 3]
      (entry nvId 0xFE000003 (payloadOffset 7 + 1) 3) = [0x31, 0x32, 0x33] :=
    readAt_image "marked.pac" marked_layable 1 3
  have isNv : upper (entry nvId 0xFE000003 (payloadOffset 7 + 1) 3).fileId = nvId := by decide
  simp only [marks, List.flatMap_singleton, markerOps, template, isNv, if_true]
  rw [nvOps, Pieces.pieces_short (by decide) (by decide)]
  decide

theorem marked_erases : (erased info).map eraseOp =
    [.bsl bslCmdEraseFlash [0xFE, 0, 0, 2, 0, 0, 0, 0],
      .bsl bslCmdEraseFlash [0xFE, 0, 0, 1, 0x53, 0x59, 0x53, 0x46]] := by
  rw [erased, entries]
  decide

theorem marked_session : session info marked.content true = markedOps := by
  rw [session, marked_fdl2Ops entries, marked_partitionOps entries, marked_erases entries,
    marked_markerOps entries]
  rfl

end Marked

theorem marked_format : ∃ t,
    nativeFlash marked ⟨"COM3", 0, true, true⟩ (Port.fresh Acker.mk) = .ok () t ∧
    bslOps t.log = markedOps := by
  obtain ⟨info, accepted, entries⟩ : ∃ info, Accepted marked info ∧ info.entries = markedEntries :=
    (parsePac_image "marked.pac" marked_layable).1
  have loader : ∃ e ∈ info.entries, classify e = .fdl1 := by
    rw [entries]
    decide
  have length : marked.content.length = payloadOffset 7 + 6 :=
    image_length "marked.pac" marked_layable
  have inFile : ∀ e ∈ info.entries, InFile marked.content e := by
    simp only [InFile, entries, length]
    decide
  have slotted : ∀ e ∈ markers info, upper e.fileId = nvId → 2 ≤ e.size := by
    rw [markers, entries]
    decide
  obtain ⟨t, returned, ops, -⟩ :=
    nativeFlash_format accepted loader inFile slotted "COM3" 0 true Acker.mk
  exact ⟨t, returned, ops.trans (marked_session entries)⟩

end Package

end SprdFlash.FormatSession
