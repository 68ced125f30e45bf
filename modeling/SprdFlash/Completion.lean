import SprdFlash.Acknowledging
import SprdFlash.PacImage
import SprdFlash.Package

/-!
When a flow started on an acknowledging device runs to completion. `flash_pac`
reads its entries inside the write loop and takes any chunk size, `native_flash`
recomputes the NV checksum in the middle of the format; what is wrong with the
package there stops them after the first START_DATA.
-/

namespace SprdFlash.Completion

open Message Port Pac Flasher Native Struct Script Plan WireLog Runs Transfers Package
open Acknowledging

variable {σ : Type}

/-- A run that returns, or one that raised before any START_DATA. -/
def FinishesOrAbstains (result : EStateM.Result Exc (Port σ) Unit) : Prop :=
  (∃ t, result = .ok () t) ∨ ∀ c ∈ sentCmds (final result).log, startOf c = none

/-- An entry that can be read whole and sent in pieces that can be framed. -/
def Sendable (content : Bytes) (chunk : ℕ+) (e : PacEntry) : Prop :=
  InFile content e ∧ ((chunk : ℕ) < 65536 ∨ e.size < 65536)

/-- Two bytes for the CRC slot of an NV image, in the entry and in the file. The
image of `e` is that of the last data-bearing marker with its id. -/
def HasSlot (info : PacInfo) (content : Bytes) (e : PacEntry) : Prop :=
  let last := standIn (dataMarkers info) e
  2 ≤ last.size ∧ last.offset + 2 ≤ content.length

instance (info : PacInfo) (content : Bytes) (e : PacEntry) : Decidable (HasSlot info content e) :=
  inferInstanceAs (Decidable (_ ∧ _))

/-- Without FDL1 the flow is refused; with it, only a format has something to
stumble over. -/
def NativeCompletes (info : PacInfo) (content : Bytes) (options : NativeOptions) : Prop :=
  fdl1Of info = none ∨ (options.formatFs = true →
    ∀ e ∈ dataMarkers info, upper e.fileId = nvId → HasSlot info content e)

def Loaderless (info : PacInfo) (content : Bytes) : Prop :=
  (∀ e, fdl1Of info = some e → ¬ InFile content e) ∨
    ∃ e, fdl2Of info = some e ∧ ¬ InFile content e

/-- The flow is refused at the port or over a loader, or every entry it sends
can be read and framed. -/
def FlashCompletes (info : PacInfo) (content : Bytes) (options : FlashOptions) : Prop :=
  ¬ Openable options ∨ Loaderless info content ∨
    ((∀ e, fdl1Of info = some e → Sendable content options.chunk e) ∧
      (∀ e, fdl2Of info = some e → Sendable content options.chunk e) ∧
      ∀ e ∈ flashableEntries info, Sendable content options.chunk e)

theorem readEntry_eq {content : Bytes} {e : PacEntry} (payload : e.size ≠ 0) :
    (InFile content e → Flasher.readEntry content e = .ok (Native.readEntry content e)) ∧
      (¬ InFile content e → ∃ err, Flasher.readEntry content e = .error err) := by
  have whole : (Native.readEntry content e).length = e.size ↔ InFile content e :=
    readEntry_length_iff payload
  rw [Native.readEntry] at whole
  constructor
  · intro inside
    rw [Flasher.readEntry]
    simp only [whole.mpr inside, ne_eq, not_true_eq_false, if_false]
    rfl
  · intro outside
    have short : (readAt content e.offset e.size).length ≠ e.size := fun same =>
      outside (whole.mp same)
    rw [Flasher.readEntry]
    simp only [ne_eq, short, not_false_eq_true, if_true]
    exact ⟨_, rfl⟩

theorem findStage_eq {info : PacInfo} (content : Bytes) {role : Role} (payload : role ≠ .marker) :
    findStage info content role =
      match info.entries.find? fun e => classify e = role with
      | none => .ok none
      | some e => (Flasher.readEntry content e).map fun data => some ⟨e, data⟩ := by
  have same : (fun e : PacEntry => e.size ≠ 0 && classify e = role) =
      fun e => decide (classify e = role) := by
    funext e
    by_cases h : classify e = role
    · simp [h, role_size h payload]
    · simp [h]
  rw [findStage, same]
  cases info.entries.find? fun e => classify e = role with
  | none => rfl
  | some e => cases Flasher.readEntry content e <;> rfl

theorem entry_sound_iff {content : Bytes} {chunk : ℕ+} {e : PacEntry} (payload : e.size ≠ 0)
    (narrow : e.size < 2 ^ 32 ∧ e.address < 2 ^ 32) :
    Sound (given (Flasher.readEntry content e) fun data => stage e.address data chunk) ↔
      Sendable content chunk e := by
  have length := readEntry_length_le content e
  by_cases inside : InFile content e
  · have whole := (readEntry_length_iff payload).mpr inside
    rw [(readEntry_eq payload).1 inside, given, stage_sound_iff narrow.2 (by omega), Fits, whole]
    exact ⟨fun fits => ⟨inside, fits⟩, fun sendable => sendable.2⟩
  · obtain ⟨err, refused⟩ : ∃ err, Flasher.readEntry content e = .error err :=
      (readEntry_eq payload).2 inside
    rw [refused, given]
    constructor
    · intro sound
      exact absurd (sound _ List.mem_cons_self) (by simp [halts])
    · intro sendable
      exact absurd sendable.1 inside

theorem findStage_inFile {info : PacInfo} {content : Bytes} {role : Role} (payload : role ≠ .marker)
    {e : PacEntry} (found : info.entries.find? (fun e => classify e = role) = some e)
    (inside : InFile content e) :
    findStage info content role = .ok (some ⟨e, Native.readEntry content e⟩) := by
  rw [findStage_eq content payload, found]
  simp only [(readEntry_eq (role_size (find_role found).2 payload)).1 inside]
  rfl

theorem findStage_outside {info : PacInfo} {content : Bytes} {role : Role}
    (payload : role ≠ .marker)
    {e : PacEntry} (found : info.entries.find? (fun e => classify e = role) = some e)
    (outside : ¬ InFile content e) : ∃ err, findStage info content role = .error err := by
  obtain ⟨err, refused⟩ := (readEntry_eq (role_size (find_role found).2 payload)).2 outside
  refine ⟨err, ?_⟩
  rw [findStage_eq content payload, found]
  simp only [refused]
  rfl

theorem fdls_loaderless {info : PacInfo} {content : Bytes} (h : Loaderless info content)
    (chunk : ℕ+) : ∃ err, fdls info content chunk = [.fail err] := by
  have fdl1NotMarker : Role.fdl1 ≠ .marker := by decide
  have fdl2NotMarker : Role.fdl2 ≠ .marker := by decide
  unfold fdls
  cases first : findStage info content .fdl1 with
  | error err => exact ⟨err, rfl⟩
  | ok fdl1 =>
    cases second : findStage info content .fdl2 with
    | error err => exact ⟨err, rfl⟩
    | ok fdl2 =>
      rcases h with missing | ⟨e, found, outside⟩
      · cases found : fdl1Of info with
        | some e =>
          obtain ⟨err, refused⟩ := findStage_outside fdl1NotMarker found (missing e found)
          rw [first] at refused
          cases refused
        | none =>
          rw [fdl1Of] at found
          rw [findStage_eq content fdl1NotMarker, found] at first
          cases first
          exact ⟨_, rfl⟩
      · obtain ⟨err, refused⟩ := findStage_outside fdl2NotMarker found outside
        rw [second] at refused
        cases refused

theorem loaders_inFile {info : PacInfo} {content : Bytes} (h : ¬ Loaderless info content) :
    (∃ e, fdl1Of info = some e ∧ InFile content e) ∧
      ∀ e, fdl2Of info = some e → InFile content e := by
  simpa [Loaderless] using h

theorem fdls_loaded {info : PacInfo} {content : Bytes} {fdl1 : PacEntry}
    (found : fdl1Of info = some fdl1) (h : ¬ Loaderless info content) (chunk : ℕ+) :
    fdls info content chunk = stage fdl1.address (Native.readEntry content fdl1) chunk ++
      ([.command bslCmdExecData [] "EXEC FDL1", .setChecksum .sprd, .autobaud 10,
          .command bslCmdConnect [] "CONNECT"] ++
        (fdl2Of info).toList.flatMap fun e =>
          stage e.address (Native.readEntry content e) chunk ++
            [.command bslCmdExecData [] "EXEC FDL2"]) := by
  obtain ⟨⟨e, again, inside⟩, inside2⟩ := loaders_inFile h
  cases found.symm.trans again
  have first := findStage_inFile (by decide) found inside
  cases second : fdl2Of info with
  | none =>
    have absent : findStage info content .fdl2 = _ := findStage_eq content (by decide)
    rw [fdl2Of] at second
    rw [second] at absent
    rw [fdls, first, absent]
    rfl
  | some fdl2 =>
    rw [fdls, first, findStage_inFile (by decide) second (inside2 fdl2 second)]
    simp [given]

theorem sound_append_iff {xs ys : List Step} : Sound (xs ++ ys) ↔ Sound xs ∧ Sound ys :=
  List.forall_mem_append

theorem sound_flatMap_iff {α : Type} {items : List α} {f : α → List Step} :
    Sound (items.flatMap f) ↔ ∀ a ∈ items, Sound (f a) :=
  List.forall_mem_flatMap

section Flash

variable {info : PacInfo} (narrow : Narrow info.entries) {content : Bytes}
include narrow

theorem loaderStage_sound_iff {role : Role} {e : PacEntry} (payload : role ≠ .marker)
    (found : info.entries.find? (fun e => classify e = role) = some e) (inside : InFile content e)
    (chunk : ℕ+) :
    Sound (stage e.address (Native.readEntry content e) chunk) ↔ Sendable content chunk e := by
  have bounds := narrow e (find_role found).1
  have size := role_size (find_role found).2 payload
  rw [← entry_sound_iff size bounds, (readEntry_eq size).1 inside]
  rfl

theorem flash_sound_iff {fdl1 : PacEntry} (found : fdl1Of info = some fdl1)
    (h : ¬ Loaderless info content) (options : FlashOptions) :
    Sound (flash info content options) ↔
      (∀ e, fdl1Of info = some e → Sendable content options.chunk e) ∧
        (∀ e, fdl2Of info = some e → Sendable content options.chunk e) ∧
        ∀ e ∈ flashableEntries info, Sendable content options.chunk e := by
  obtain ⟨⟨e, again, inside1⟩, inside2⟩ := loaders_inFile h
  cases found.symm.trans again
  have loader : Sound (stage fdl1.address (Native.readEntry content fdl1) options.chunk) ↔
      ∀ e, fdl1Of info = some e → Sendable content options.chunk e := by
    rw [loaderStage_sound_iff narrow (by decide) found inside1, found]
    simp
  have between : Sound [.command bslCmdExecData [] "EXEC FDL1", .setChecksum .sprd, .autobaud 10,
      .command bslCmdConnect [] "CONNECT"] := by
    simp [Sound, halts, Exchange.Framable, bslCmdExecData, bslCmdConnect]
  have second : Sound ((fdl2Of info).toList.flatMap fun e =>
      stage e.address (Native.readEntry content e) options.chunk ++
        [.command bslCmdExecData [] "EXEC FDL2"]) ↔
      ∀ e, fdl2Of info = some e → Sendable content options.chunk e := by
    have exec : Sound [.command bslCmdExecData [] "EXEC FDL2"] := by
      simp [Sound, halts, Exchange.Framable, bslCmdExecData]
    rw [sound_flatMap_iff]
    refine forall_congr' fun e => ?_
    rw [Option.mem_toList]
    refine forall_congr' fun fdl2 => ?_
    rw [sound_append_iff, loaderStage_sound_iff narrow (by decide) fdl2 (inside2 e fdl2)]
    exact and_iff_left exec
  have partitions : Sound ((flashableEntries info).flatMap fun e =>
      given (Flasher.readEntry content e) fun data => stage e.address data options.chunk) ↔
      ∀ e ∈ flashableEntries info, Sendable content options.chunk e := by
    rw [sound_flatMap_iff]
    refine forall_congr' fun e => forall_congr' fun he => ?_
    have role : classify e = .flash := by simpa using List.of_mem_filter he
    exact entry_sound_iff (role_size role (by decide)) (narrow e (flashable_mem he))
  rw [flash, sound_append_iff, sound_append_iff, fdls_loaded found h, sound_append_iff,
    sound_append_iff, loader, second, partitions]
  simp only [between, reset_sound, true_and, and_true, and_assoc]

theorem flash_opens {fdl1 : PacEntry} (found : fdl1Of info = some fdl1)
    (h : ¬ Loaderless info content) (options : FlashOptions) :
    transfers (commands (flash info content options)) ≠ [] := by
  have bounds := narrow fdl1 (find_role found).1
  have length := (readEntry_length_le content fdl1).trans_lt bounds.1
  rw [flash, fdls_loaded found h, stage_eq bounds.2 length, List.append_assoc, List.append_assoc,
    List.cons_append, ← List.singleton_append, commands_append]
  · rw [List.flatMap_singleton, emits, List.singleton_append, transfers,
      startOf_words bounds.2 length []]
    simp
  · simp [Sound, halts, Exchange.Framable, fields_length, bslCmdStartData]

end Flash

theorem roomy_iff {info : PacInfo} {content : Bytes} {e : PacEntry} :
    Roomy info content e ↔ (upper e.fileId = nvId → HasSlot info content e) := by
  have slot : 2 ≤ (imageOf content (dataMarkers info) e).length ↔ HasSlot info content e := by
    simp only [HasSlot, imageOf, Native.readEntry, readAt, List.length_take, List.length_drop]
    omega
  rw [Roomy, slot]

section Runs

variable [Device σ] [AckDevice σ] (d : σ) {path : PacFile} {info : PacInfo}

omit [Device σ] [AckDevice σ] in
theorem finishes_iff {result : EStateM.Result Exc (Port σ) Unit} {t : Port σ} {steps : List Step}
    (outcome : (∀ i ∈ steps, halts i = false) ∧ result = .ok () t ∨
      (∃ i ∈ steps, halts i = true) ∧ ∃ e, result = .error e t) :
    FinishesOrAbstains result ↔ Sound steps ∨ transfers (sentCmds t.log) = [] := by
  rcases outcome with ⟨sound, rfl⟩ | ⟨⟨i, hi, stop⟩, e, rfl⟩
  · exact iff_of_true (.inl ⟨t, rfl⟩) (.inl sound)
  · have unsound : ¬ Sound steps := fun sound => by simp [sound i hi] at stop
    have raised : ¬ ∃ t', (.error e t : EStateM.Result Exc (Port σ) Unit) = .ok () t' := by simp
    rw [FinishesOrAbstains, or_iff_right raised, or_iff_right unsound, transfers_eq_nil_iff]
    rfl

theorem nativeFlash_finishes_iff (accepted : Accepted path info) (options : NativeOptions) :
    FinishesOrAbstains (nativeFlash path options (Port.fresh d)) ↔
      NativeCompletes info path.content options := by
  cases found : fdl1Of info with
  | none =>
    refine iff_of_true (.inr ?_) (.inl found)
    rw [nativeFlash_loaderless accepted found options (Port.fresh d)]
    exact fun c hc => absurd hc List.not_mem_nil
  | some fdl1 =>
    have narrow := accepted_narrow accepted
    obtain ⟨t, written, outcome⟩ := nativeFlash_acknowledged accepted found options d
    have begun : transfers (sentCmds t.log) ≠ [] := by
      rw [written, native_transfers narrow found, planned]
      simp
    have present : fdl1Of info ≠ none := by simp [found]
    rw [finishes_iff outcome, or_iff_left begun, native_sound_iff narrow found, NativeCompletes,
      or_iff_right present]
    simp only [roomy_iff]

theorem flashPac_finishes_iff (accepted : Accepted path info) (options : FlashOptions) :
    FinishesOrAbstains (flashPac path options (Port.fresh d)) ↔
      FlashCompletes info path.content options := by
  by_cases openable : Openable options
  · have narrow := accepted_narrow accepted
    obtain ⟨t, written, outcome⟩ := flashPac_acknowledged accepted openable d
    have connect : transfers (sentCmds t.log) =
        transfers (commands (flash info path.content options)) := by
      rw [written, transfers_cons_of_none rfl]
    rw [finishes_iff outcome, connect, FlashCompletes, or_iff_right (not_not.mpr openable)]
    by_cases loaderless : Loaderless info path.content
    · obtain ⟨err, refused⟩ := fdls_loaderless loaderless options.chunk
      refine iff_of_true (.inr ?_) (.inl loaderless)
      rw [flash, refused, List.append_assoc, List.cons_append, commands, live_cons_of_halts _ rfl]
      rfl
    · obtain ⟨⟨fdl1, found, -⟩, -⟩ := loaders_inFile loaderless
      rw [or_iff_left (flash_opens narrow found loaderless options), or_iff_right loaderless,
        flash_sound_iff narrow found loaderless]
  · refine iff_of_true (.inr ?_) (.inl openable)
    simp only [Openable, not_or, not_not] at openable
    have serial : options.transport = .serial := by
      cases transport : options.transport with
      | usb => exact absurd transport openable.1
      | serial => rfl
    have refused : openTransport options.transport options.device (Port.fresh d) =
        .error (.flashError "serial transport requires --port COMx") (Port.fresh d) := by
      rw [serial, openTransport, if_pos openable.2]
      rfl
    rw [flashPac_eq accepted, bind_error refused]
    exact fun c hc => absurd hc List.not_mem_nil

/-- On an acknowledging device both flows run to completion or raise before any
START_DATA exactly when the package gives them nothing to stumble over later. -/
theorem flows_finish_iff (accepted : Accepted path info) (native : NativeOptions)
    (flash : FlashOptions) :
    FinishesOrAbstains (nativeFlash path native (Port.fresh d)) ∧
        FinishesOrAbstains (flashPac path flash (Port.fresh d)) ↔
      NativeCompletes info path.content native ∧ FlashCompletes info path.content flash :=
  and_congr (nativeFlash_finishes_iff d accepted native) (flashPac_finishes_iff d accepted flash)

end Runs

section Package

open PacImage

theorem package_flows_finish :
    FinishesOrAbstains (nativeFlash (package 2) ⟨"COM3", 0, true, true⟩ (Port.fresh Acker.mk)) ∧
      FinishesOrAbstains
        (flashPac (package 2) ⟨.usb, none, defaultChunk, true⟩ (Port.fresh Acker.mk)) := by
  obtain ⟨info, accepted, entries⟩ := package_accepted (show 2 < 2 ^ 32 by decide)
  have length := package_length (show 2 < 2 ^ 32 by decide)
  have sendable : ∀ e ∈ packageEntries 2, Sendable (package 2).content defaultChunk e := by
    unfold Sendable InFile
    rw [length]
    decide
  refine (flows_finish_iff Acker.mk accepted _ _).mpr ⟨.inr fun _ e he _ => ?_, .inr (.inr ?_)⟩
  · have markers := package_markers entries (by decide)
    rw [markers, List.mem_singleton] at he
    rw [HasSlot, markers, he, length]
    decide
  · rw [← entries] at sendable
    exact ⟨fun e found => sendable e (find_role found).1, fun e found =>
      sendable e (find_role found).1,
      fun e he => sendable e (flashable_mem he)⟩

theorem nativeFlash_stumbles :
    (∃ info, Accepted (package 1) info) ∧
      ¬ FinishesOrAbstains
        (nativeFlash (package 1) ⟨"COM3", 0, true, true⟩ (Port.fresh Acker.mk)) := by
  obtain ⟨info, accepted, entries⟩ := package_accepted (show 1 < 2 ^ 32 by decide)
  refine ⟨⟨info, accepted⟩, ?_⟩
  have markers := package_markers entries (by decide)
  have loader : fdl1Of info ≠ none := by simp [package_fdl1 entries]
  rw [nativeFlash_finishes_iff Acker.mk accepted, NativeCompletes, or_iff_right loader]
  intro completes
  have slot := (completes rfl (entry nvId 0xFE000003 (payloadOffset 3 + 5) 1) (by simp [markers])
    (by decide)).1
  rw [markers] at slot
  exact absurd slot (by decide)

end Package

end SprdFlash.Completion
