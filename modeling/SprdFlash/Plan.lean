import SprdFlash.Native
import SprdFlash.Library.Pieces

/-!
The two flows as scripts. A plan is the list of link-layer operations a flow
attempts, computed from the package alone; an exception that depends only on
the package is a step that always fails. Each flow equals the run of its plan,
so what holds of every step holds of every flow, at every point where it can
stop.
-/

namespace SprdFlash.Plan

open Message Port Pac SpdIO Flasher Native Struct Script

inductive Step
  | request (cmd : Pdl.Command) (arg1 arg2 : ℕ) (extra : Bytes)
  | handOver
  | setChecksum (mode : Checksum)
  | autobaud (attempts : ℕ)
  | command (cmd : ℕ) (data : Bytes) (what : String)
  | lenient (cmd : ℕ) (data : Bytes) (what : String)
  | send (cmd : ℕ) (data : Bytes)
  | fail (e : Exc)

variable {σ : Type} [Device σ]

def Step.exec : Step → Session σ Unit
  | .request cmd arg1 arg2 extra => Pdl.request cmd arg1 arg2 extra
  | .handOver => Native.handOver
  | .setChecksum mode => Port.setChecksum mode
  | .autobaud attempts => do let _ ← SpdIO.autobaud attempts
  | .command cmd data what => do let _ ← SpdIO.command cmd data bslRepAck what
  | .lenient cmd data what => tolerating do let _ ← SpdIO.command cmd data bslRepAck what
  | .send cmd data => SpdIO.send cmd data
  | .fail e => throw e

/-- A computation on the package in front of the steps that use its value. -/
def given {α : Type} (x : Except Exc α) (steps : α → List Step) : List Step :=
  match x with
  | .ok a => steps a
  | .error e => [.fail e]

theorem raising_bind {α : Type} (x : Except Exc α) (steps : α → List Step) :
    (raising x >>= fun a => perform Step.exec (σ := Port σ) (steps a)) =
      perform Step.exec (given x steps) := by
  funext s
  cases x with
  | ok a => rfl
  | error e => rw [given, perform_singleton]; rfl

theorem request_bind (cmd : Pdl.Command) (arg1 arg2 : ℕ) (extra : Bytes) (rest : List Step) :
    (Pdl.request cmd arg1 arg2 extra >>= fun _ => perform Step.exec (σ := Port σ) rest) =
      perform Step.exec (.request cmd arg1 arg2 extra :: rest) := rfl

theorem command_bind (cmd : ℕ) (data : Bytes) (what : String) (rest : List Step) :
    (command cmd data bslRepAck what >>= fun _ =>
      perform Step.exec (σ := Port σ) rest) =
      perform Step.exec (.command cmd data what :: rest) := by
  rw [perform, Step.exec, bind_assoc]
  rfl

theorem command_last (cmd : ℕ) (data : Bytes) (what : String) :
    (command cmd data bslRepAck what >>= fun _ => (pure () : Session σ Unit)) =
      perform Step.exec [.command cmd data what] := by
  rw [perform_singleton]
  rfl

/-- START_DATA, the pieces of the image, END_DATA. -/
def stage (addr : ℕ) (data : Bytes) (chunk : ℕ+) : List Step :=
  given (pack .big 4 [addr, data.length]) fun start =>
    .command bslCmdStartData start "START_DATA" ::
      ((Pieces.pieces chunk data).map (.command bslCmdMidstData · "MIDST_DATA") ++
        [.command bslCmdEndData [] "END_DATA"])

theorem sendLoop_eq (data : Bytes) (chunk : ℕ+) (sent : ℕ) :
    sendLoop (σ := σ) data chunk sent = perform Step.exec
      ((Pieces.pieces chunk (data.drop sent)).map (.command bslCmdMidstData · "MIDST_DATA")) := by
  induction sent using SerialLike.sendLoop.induct data chunk with
  | case1 sent more piece ih =>
    have some : data.drop sent ≠ [] := by
      rw [ne_eq, List.drop_eq_nil_iff]
      omega
    have next : data.drop (sent + piece.length) = (data.drop sent).drop chunk :=
      Pieces.drop_piece chunk data sent
    rw [sendLoop_def, if_pos more, Pieces.pieces_of_ne_nil chunk some, List.map_cons,
      ← command_bind, ← next, ← ih]
  | case2 sent done =>
    rw [sendLoop_def, if_neg done, List.drop_eq_nil_of_le (by omega), Pieces.pieces]
    rfl

theorem sendStage_eq (addr : ℕ) (data : Bytes) (chunk : ℕ+) :
    sendStage (σ := σ) addr data chunk = perform Step.exec (stage addr data chunk) := by
  rw [stage, ← raising_bind, sendStage_def]
  congr 1
  funext start
  rw [← command_bind]
  congr 1
  funext _
  rw [perform_append, sendLoop_eq, List.drop_zero]
  congr 1
  funext _
  exact command_last _ _ _

/-- The NV transfer: its START_DATA carries a third word, its END_DATA may fail. -/
def nv (addr : ℕ) (template : Bytes) : List Step :=
  given (nvFixCrc template) fun data =>
    given (pack .big 4 [addr, data.length, sum32 data]) fun start =>
      .command bslCmdStartData start "NV START" ::
        ((Pieces.pieces bslChunk data).map (.command bslCmdMidstData · "NV MIDST") ++
          [.lenient bslCmdEndData [] "NV END"])

theorem writeNv_eq (addr : ℕ) (template : Bytes) :
    writeNv (σ := σ) addr template = perform Step.exec (nv addr template) := by
  rw [nv, ← raising_bind, writeNv]
  congr 1
  funext data
  rw [← raising_bind]
  congr 1
  funext start
  rw [← command_bind, perform_append, ← Pieces.range_slices, ← forM_exec, forM_map,
    perform_singleton, offsets, forM_map]
  rfl

/-- What `send_image` asks for. -/
def image (addr : ℕ) (data name : Bytes) (checksum : Option ℕ) : List Step :=
  .request .startData addr data.length name ::
    ((Pdl.blocks data).map (fun (i, chunk) => .request .midstData i chunk.length chunk) ++
      given (pack .little 4 [checksum.getD (Pdl.pdlImageCrc data)]) fun trailer =>
        [.request .endData 0 0 trailer])

theorem sendImage_eq (addr : ℕ) (data name : Bytes) (checksum : Option ℕ) :
    Pdl.sendImage (σ := σ) addr data name checksum =
      perform Step.exec (image addr data name checksum) := by
  rw [image, ← request_bind, perform_append, ← raising_bind, ← forM_exec]
  simp only [perform_singleton]
  rfl

/-- Phase 1 up to the EXEC of FDL1. -/
def loader (fdl1 : PacEntry) (fdl1Data : Bytes) (endChecksum : UInt32) : List Step :=
  .request .connect 0 0 [] ::
    image fdl1.address fdl1Data [0x50, 0x44, 0x4C, 0x31, 0x00] (some endChecksum.toNat)

theorem loadFdl1_eq (fdl1 : PacEntry) (fdl1Data : Bytes) (endChecksum : UInt32) :
    loadFdl1 (σ := σ) fdl1 fdl1Data endChecksum =
      perform Step.exec (loader fdl1 fdl1Data endChecksum) >>= fun _ => handOver := by
  rw [loadFdl1, sendImage_eq, loader, ← request_bind, bind_assoc]
  rfl

/-- FDL2, its EXEC, and the handshake under it. -/
def fdl2Load (fdl2 : Option PacEntry) (fdl2Data : Bytes) : List Step :=
  match fdl2 with
  | none => []
  | some fdl2 => stage fdl2.address fdl2Data bslChunk ++
      [.command bslCmdExecData [] "EXEC FDL2", .command bslCmdConnect [] "CONNECT"]

theorem loadFdl2_eq (fdl2 : Option PacEntry) (fdl2Data : Bytes) :
    loadFdl2 (σ := σ) fdl2 fdl2Data = Port.setChecksum .sprd >>= fun _ =>
      perform Step.exec (.command bslCmdConnect [] "CONNECT" :: fdl2Load fdl2 fdl2Data) := by
  unfold loadFdl2
  congr 1
  funext _
  rw [← command_bind, connect_def, bind_assoc]
  congr 1
  funext _
  cases fdl2 with
  | none => rfl
  | some fdl2 =>
    simp only [fdl2Load, pure_bind]
    rw [perform_append, sendStage_eq, ← command_bind, ← command_last]

def fromDict (dict : List Char → Option Bytes) (write : PacEntry → Bytes → List Step)
    (e : PacEntry) : List Step :=
  given (lookup dict e.fileId) (write e)

def writePartition (e : PacEntry) (data : Bytes) : List Step := stage e.address data bslChunk

theorem writePartitions_eq (partitions : List PacEntry) (partData : List Char → Option Bytes) :
    writePartitions (σ := σ) partitions partData =
      perform Step.exec (partitions.flatMap (fromDict partData writePartition)) := by
  rw [← forM_perform, writePartitions]
  congr 1
  funext e
  rw [fromDict, ← raising_bind]
  congr 1
  funext data
  exact sendStage_eq _ _ _

def eraseStep (op : List Char × ℕ × Bytes) : List Step :=
  given (pack .big 4 [op.2.1]) fun target =>
    let name := String.ofList op.1
    [.command bslCmdEraseFlash (target ++ op.2.2) s!"ERASE {name}"]

theorem erase_eq (op : List Char × ℕ × Bytes) :
    erase (σ := σ) op = perform Step.exec (eraseStep op) := by
  rw [eraseStep, ← raising_bind]
  simp only [← command_last]
  rfl

def writeMarkerSteps (e : PacEntry) (data : Bytes) : List Step :=
  if upper e.fileId = nvId then nv e.address data else stage e.address data bslChunk

theorem writeMarker_eq (markerData : List Char → Option Bytes) (e : PacEntry) :
    writeMarker (σ := σ) markerData e =
      perform Step.exec (fromDict markerData writeMarkerSteps e) := by
  rw [fromDict, ← raising_bind, writeMarker]
  congr 1
  funext data
  rw [writeMarkerSteps]
  split
  · exact writeNv_eq _ _
  · exact sendStage_eq _ _ _

def format (info : PacInfo) (content : Bytes) : List Step :=
  (eraseOps info).flatMap eraseStep ++
    (dataMarkers info).flatMap (fromDict (imageDict content (dataMarkers info)) writeMarkerSteps)

def reset (doReset : Bool) : List Step := if doReset then [.send bslCmdNormalReset []] else []

theorem mem_reset {doReset : Bool} {i : Step} (h : i ∈ reset doReset) :
    i = .send bslCmdNormalReset [] := by
  cases doReset with
  | false => cases h
  | true => exact List.mem_singleton.mp h

theorem reset_eq (doReset : Bool) :
    (if doReset then SpdIO.send bslCmdNormalReset [] else pure () : Session σ Unit) =
      perform Step.exec (reset doReset) := by
  cases doReset
  · rfl
  · exact (perform_singleton _).symm

/-- Phase 2 up to the reset. -/
def bslWrites (info : PacInfo) (content : Bytes) (formatFs : Bool) : List Step :=
  let fdl2 := info.entries.find? fun e => classify e = .fdl2
  (.command bslCmdConnect [] "CONNECT" ::
      fdl2Load fdl2 ((fdl2.map (Native.readEntry content)).getD [])) ++
    ((flashableEntries info).flatMap
        (fromDict (imageDict content (flashableEntries info)) writePartition) ++
      if formatFs then format info content else [])

theorem bslPhase_eq (info : PacInfo) (content : Bytes) (formatFs doReset : Bool) :
    bslPhase (σ := σ) info content formatFs doReset = Port.setChecksum .sprd >>= fun _ =>
      perform Step.exec (bslWrites info content formatFs ++ reset doReset) := by
  rw [bslPhase, bslWrites]
  simp only
  rw [perform_append, perform_append, perform_append, loadFdl2_eq, writePartitions_eq, bind_assoc,
    reset_eq, bind_assoc]
  congr 1
  funext _
  congr 1
  funext _
  rw [bind_assoc]
  congr 1
  funext _
  cases formatFs with
  | false => rfl
  | true =>
    simp only [if_true]
    have erases : erase (σ := σ) = fun op => perform Step.exec (eraseStep op) := funext erase_eq
    have markers : writeMarker (σ := σ) (imageDict content (dataMarkers info)) = fun e =>
        perform Step.exec (fromDict (imageDict content (dataMarkers info)) writeMarkerSteps e) :=
      funext (writeMarker_eq _)
    rw [format, perform_append, ← forM_perform, ← forM_perform, erases, markers,
      bind_assoc]

def handshake : List Step :=
  [.setChecksum .crc, .autobaud 200, .command bslCmdConnect [] "CONNECT"]

theorem connectBootrom_eq (transport : Transport) (device : Option String) (rest : Session σ Unit) :
    (connectBootrom transport device >>= fun _ => rest) =
      openTransport transport device >>= fun _ =>
        perform Step.exec handshake >>= fun _ => rest := by
  simp only [connectBootrom, greet_def, connect_def, handshake, perform, Step.exec, bind_assoc,
    pure_bind]

def fdls (info : PacInfo) (content : Bytes) (chunk : ℕ+) : List Step :=
  given (findStage info content .fdl1) fun fdl1 =>
    given (findStage info content .fdl2) fun fdl2 =>
      match fdl1 with
      | none => [.fail (.flashError "no FDL1 (HOST_FDL) stage found in the PAC file")]
      | some fdl1 =>
        stage fdl1.entry.address fdl1.data chunk ++
          ([.command bslCmdExecData [] "EXEC FDL1", .setChecksum .sprd, .autobaud 10,
            .command bslCmdConnect [] "CONNECT"] ++
            match fdl2 with
            | none => []
            | some fdl2 => stage fdl2.entry.address fdl2.data chunk ++
                [.command bslCmdExecData [] "EXEC FDL2"])

theorem loadFdls_eq (info : PacInfo) (content : Bytes) (chunk : ℕ+) :
    loadFdls (σ := σ) info content chunk = perform Step.exec (fdls info content chunk) := by
  rw [fdls, ← raising_bind]
  change raising _ >>= _ = _
  congr 1
  funext fdl1
  rw [← raising_bind]
  congr 1
  funext fdl2
  cases fdl1 with
  | none => rw [perform_singleton]; rfl
  | some fdl1 =>
    cases fdl2 with
    | none =>
      change (sendStage _ _ _ >>= fun _ => command _ _ _ _ >>= fun _ => setChecksum _ >>= fun _ =>
        autobaud _ >>= fun _ => connect >>= fun _ => pure ()) = _
      simp only [perform_append, sendStage_eq, connect_def, perform, Step.exec, bind_assoc,
        pure_bind]
    | some fdl2 =>
      change (sendStage _ _ _ >>= fun _ => command _ _ _ _ >>= fun _ => setChecksum _ >>= fun _ =>
        autobaud _ >>= fun _ => connect >>= fun _ => sendStage _ _ _ >>= fun _ =>
        command _ _ _ _ >>= fun _ => pure ()) = _
      simp only [perform_append, sendStage_eq, connect_def, perform, Step.exec, bind_assoc,
        pure_bind]

def flash (info : PacInfo) (content : Bytes) (options : FlashOptions) : List Step :=
  (fdls info content options.chunk ++
    (flashableEntries info).flatMap fun e => given (Flasher.readEntry content e) fun data =>
      stage e.address data options.chunk) ++ reset options.doReset

/-- Everything `native_flash` does on the open port. -/
def native (info : PacInfo) (fdl1 : PacEntry) (content : Bytes) (options : NativeOptions) :
    List Step :=
  (loader fdl1 (Native.readEntry content fdl1) options.fdl1EndChecksum ++
    .handOver :: .setChecksum .sprd :: bslWrites info content options.formatFs) ++
      reset options.doReset

/-- A package both flows go on with. -/
structure Accepted (path : PacFile) (info : PacInfo) : Prop where
  parsed : parsePac path true = .ok info
  crcOk : info.crcOk = true

def fdl1Of (info : PacInfo) : Option PacEntry := info.entries.find? fun e => classify e = .fdl1

theorem nativeFlash_eq {path : PacFile} {info : PacInfo} {fdl1 : PacEntry}
    (accepted : Accepted path info) (found : fdl1Of info = some fdl1) (options : NativeOptions) :
    nativeFlash (σ := σ) path options = openSerial options.com 200 >>= fun _ =>
      resetInputBuffer >>= fun _ =>
        closing (perform Step.exec (native info fdl1 path.content options)) := by
  have whole : perform Step.exec (σ := Port σ) (native info fdl1 path.content options) =
      loadFdl1 fdl1 (Native.readEntry path.content fdl1) options.fdl1EndChecksum >>= fun _ =>
        bslPhase info path.content options.formatFs options.doReset := by
    rw [native, List.append_assoc, perform_append, loadFdl1_eq, bslPhase_eq, bind_assoc]
    rfl
  have found' : info.entries.find? (fun e => classify e = .fdl1) = some fdl1 := found
  rw [whole, nativeFlash]
  simp only [accepted.parsed]
  change (if info.crcOk = false then _ else _) = _
  rw [if_neg (by simp [accepted.crcOk]), found']

theorem nativeFlash_mismatch {path : PacFile} {info : PacInfo}
    (parsed : parsePac path true = .ok info)
    (bad : info.crcOk = false) (options : NativeOptions) (s : Port σ) :
    nativeFlash path options s =
      .error (.pdlError "PAC checksum mismatch - refusing to flash") s := by
  simp only [nativeFlash, parsed, bad, bind, EStateM.bind, raising]
  rfl

theorem nativeFlash_loaderless {path : PacFile} {info : PacInfo} (accepted : Accepted path info)
    (missing : fdl1Of info = none) (options : NativeOptions) (s : Port σ) :
    nativeFlash path options s = .error (.pdlError "no FDL1 (HOST_FDL) stage in the PAC") s := by
  have missing' : info.entries.find? (fun e => classify e = .fdl1) = none := missing
  simp only [nativeFlash, accepted.parsed, missing', accepted.crcOk, bind, EStateM.bind, raising]
  rfl

/-- Otherwise nothing happens to the port. -/
theorem nativeFlash_refused {path : PacFile}
    (refused : ∀ info fdl1, Accepted path info → fdl1Of info ≠ some fdl1) (options : NativeOptions)
    (s : Port σ) : ∃ e, nativeFlash path options s = .error e s := by
  cases parsed : parsePac path true with
  | error e => exact ⟨e, by simp [nativeFlash, parsed, raising, bind, EStateM.bind]⟩
  | ok info =>
    cases good : info.crcOk with
    | false => exact ⟨_, nativeFlash_mismatch parsed good options s⟩
    | true =>
      cases found : fdl1Of info with
      | some fdl1 => exact absurd found (refused info fdl1 ⟨parsed, good⟩)
      | none => exact ⟨_, nativeFlash_loaderless ⟨parsed, good⟩ found options s⟩

theorem flashPac_eq {path : PacFile} {info : PacInfo} (accepted : Accepted path info)
    (options : FlashOptions) :
    flashPac (σ := σ) path options = openTransport options.transport options.device >>= fun _ =>
      perform Step.exec handshake >>= fun _ =>
        closing (perform Step.exec (flash info path.content options)) := by
  have partitions : (fun e => do
        let data ← raising (Flasher.readEntry path.content e)
        sendStage (σ := σ) e.address data options.chunk) = fun e => perform Step.exec
      (given (Flasher.readEntry path.content e) fun data =>
        stage e.address data options.chunk) := by
    funext e
    rw [← raising_bind]
    congr 1
    funext data
    exact sendStage_eq _ _ _
  have whole : perform Step.exec (σ := Port σ) (flash info path.content options) =
      writeAll info path.content options.chunk options.doReset := by
    rw [writeAll_def, flash, perform_append, perform_append, loadFdls_eq, partitions, forM_perform,
      reset_eq, bind_assoc]
  rw [whole, ← connectBootrom_eq, flashPac]
  simp only [accepted.parsed]
  change (if info.crcOk = false then _ else _) = _
  rw [if_neg (by simp [accepted.crcOk])]

theorem flashPac_refused {path : PacFile} (refused : ∀ info, ¬ Accepted path info)
    (options : FlashOptions) (s : Port σ) : ∃ e, flashPac path options s = .error e s := by
  cases parsed : parsePac path true with
  | error e => exact ⟨e, by simp [flashPac, parsed, raising, bind, EStateM.bind]⟩
  | ok info =>
    have bad : ¬ info.crcOk = true := fun good => refused info ⟨parsed, good⟩
    refine ⟨.flashError "PAC checksum mismatch - refusing to flash", ?_⟩
    simp only [flashPac, parsed, bad, bind, EStateM.bind, raising]
    rfl

def Exchanged (erasing : Bool) : Step → Prop
  | .command cmd _ _ => cmd ≠ bslCmdNormalReset ∧ (erasing = false → cmd ≠ bslCmdEraseFlash)
  | .lenient cmd _ _ => cmd ≠ bslCmdNormalReset ∧ (erasing = false → cmd ≠ bslCmdEraseFlash)
  | .fail _ => True
  | _ => False

def Answered : Step → Prop
  | .request cmd _ _ _ => cmd ≠ .exec
  | .command cmd _ _ => cmd ≠ bslCmdNormalReset
  | .lenient cmd _ _ => cmd ≠ bslCmdNormalReset
  | .send _ _ => False
  | _ => True

theorem Exchanged.answered {erasing : Bool} {i : Step} (h : Exchanged erasing i) : Answered i := by
  cases i with
  | command cmd data what => exact h.1
  | lenient cmd data what => exact h.1
  | fail e => trivial
  | _ => exact h.elim

theorem forall_given {α : Type} {P : Step → Prop} (fails : ∀ e, P (.fail e)) (x : Except Exc α)
    {steps : α → List Step} (h : ∀ a, ∀ i ∈ steps a, P i) : ∀ i ∈ given x steps, P i := by
  cases x with
  | ok a => exact h a
  | error e => simpa [given] using fails e

section Kinds

variable (erasing : Bool)

theorem exchanged_command {cmd : ℕ} (other : cmd ≠ bslCmdNormalReset ∧ cmd ≠ bslCmdEraseFlash)
    (data : Bytes) (what : String) : Exchanged erasing (.command cmd data what) :=
  ⟨other.1, fun _ => other.2⟩

theorem exchanged_stage (addr : ℕ) (data : Bytes) (chunk : ℕ+) :
    ∀ i ∈ stage addr data chunk, Exchanged erasing i := by
  refine forall_given (fun _ => trivial) _ fun start => ?_
  rw [List.forall_mem_cons, List.forall_mem_append, List.forall_mem_map, List.forall_mem_singleton]
  exact ⟨exchanged_command erasing (by decide) _ _,
    fun piece _ => exchanged_command erasing (by decide) _ _,
    exchanged_command erasing (by decide) _ _⟩

theorem exchanged_nv (addr : ℕ) (template : Bytes) :
    ∀ i ∈ nv addr template, Exchanged erasing i := by
  refine forall_given (fun _ => trivial) _ fun data =>
    forall_given (fun _ => trivial) _ fun start => ?_
  rw [List.forall_mem_cons, List.forall_mem_append, List.forall_mem_map, List.forall_mem_singleton]
  exact ⟨exchanged_command erasing (by decide) _ _,
    fun piece _ => exchanged_command erasing (by decide) _ _,
    show bslCmdEndData ≠ bslCmdNormalReset by decide,
    fun _ => show bslCmdEndData ≠ bslCmdEraseFlash by decide⟩

theorem exchanged_bslWrites (info : PacInfo) (content : Bytes) (formatFs : Bool) :
    ∀ i ∈ bslWrites info content formatFs, Exchanged formatFs i := by
  rw [bslWrites, List.forall_mem_append, List.forall_mem_cons, List.forall_mem_append]
  refine ⟨⟨exchanged_command formatFs (by decide) _ _, ?_⟩, ?_, ?_⟩
  · cases info.entries.find? fun e => classify e = .fdl2 with
    | none => exact fun i hi => absurd hi List.not_mem_nil
    | some fdl2 =>
      rw [fdl2Load, List.forall_mem_append, List.forall_mem_cons, List.forall_mem_singleton]
      exact ⟨exchanged_stage formatFs _ _ _, exchanged_command formatFs (by decide) _ _,
        exchanged_command formatFs (by decide) _ _⟩
  · rw [List.forall_mem_flatMap]
    exact fun e _ => forall_given (fun _ => trivial) _ fun data => exchanged_stage formatFs _ _ _
  · cases formatFs with
    | false => exact fun i hi => absurd hi List.not_mem_nil
    | true =>
      rw [if_pos rfl, format, List.forall_mem_append, List.forall_mem_flatMap,
        List.forall_mem_flatMap]
      refine ⟨fun op _ => forall_given (fun _ => trivial) _ fun target => ?_,
        fun e _ => forall_given (fun _ => trivial) _ fun data => ?_⟩
      · rw [List.forall_mem_singleton]
        exact ⟨show bslCmdEraseFlash ≠ bslCmdNormalReset by decide, by simp⟩
      · unfold writeMarkerSteps
        split
        · exact exchanged_nv true _ _
        · exact exchanged_stage true _ _ _

end Kinds

theorem answered_loader (fdl1 : PacEntry) (data : Bytes) (endChecksum : UInt32) :
    ∀ i ∈ loader fdl1 data endChecksum, Answered i := by
  rw [loader, image, List.forall_mem_cons, List.forall_mem_cons, List.forall_mem_append,
    List.forall_mem_map]
  refine ⟨by simp [Answered], by simp [Answered], fun block _ => by simp [Answered],
    forall_given (fun _ => trivial) _ fun trailer => ?_⟩
  simp [Answered]

/-- A plan whose only unanswered step is a reset at its end. -/
def Orderly (steps : List Step) : Prop :=
  ∃ front last, steps = front ++ reset last ∧ ∀ i ∈ front, Answered i

theorem native_orderly (info : PacInfo) (fdl1 : PacEntry) (content : Bytes)
    (options : NativeOptions) : Orderly (native info fdl1 content options) := by
  refine ⟨_, options.doReset, rfl, ?_⟩
  rw [List.forall_mem_append, List.forall_mem_cons, List.forall_mem_cons]
  exact ⟨answered_loader _ _ _, trivial, trivial,
    fun i hi => (exchanged_bslWrites info content options.formatFs i hi).answered⟩

/-- What holds of all steps of the flow over BSL alone, up to its reset. -/
theorem flash_forall {P : Step → Prop} {chunk : ℕ+}
    (staged : ∀ addr data, ∀ i ∈ stage addr data chunk, P i) (fails : ∀ e, P (.fail e))
    (booted : ∀ i ∈ [.command bslCmdExecData [] "EXEC FDL1", .setChecksum .sprd, .autobaud 10,
      .command bslCmdConnect [] "CONNECT"], P i)
    (started : P (.command bslCmdExecData [] "EXEC FDL2")) (info : PacInfo) (content : Bytes) :
    ∀ i ∈ fdls info content chunk ++ (flashableEntries info).flatMap fun e =>
      given (Flasher.readEntry content e) fun data => stage e.address data chunk, P i := by
  rw [List.forall_mem_append, List.forall_mem_flatMap]
  refine ⟨forall_given fails _ fun fdl1 => forall_given fails _ fun fdl2 => ?_,
    fun e _ => forall_given fails _ fun data => staged _ _⟩
  cases fdl1 with
  | none =>
    rw [List.forall_mem_singleton]
    exact fails _
  | some fdl1 =>
    simp only
    rw [List.forall_mem_append, List.forall_mem_append]
    refine ⟨staged _ _, booted, ?_⟩
    cases fdl2 with
    | none => exact fun i hi => absurd hi List.not_mem_nil
    | some fdl2 =>
      simp only
      rw [List.forall_mem_append, List.forall_mem_singleton]
      exact ⟨staged _ _, started⟩

theorem flash_orderly (info : PacInfo) (content : Bytes) (options : FlashOptions) :
    Orderly (flash info content options) :=
  ⟨_, options.doReset, rfl, flash_forall
    (fun addr data i hi => (exchanged_stage false addr data options.chunk i hi).answered)
    (fun _ => trivial) (by simp [Answered, bslCmdExecData, bslCmdConnect, bslCmdNormalReset])
    (show bslCmdExecData ≠ bslCmdNormalReset by decide) info content⟩

end SprdFlash.Plan
