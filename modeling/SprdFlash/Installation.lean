import SprdFlash.Interruption
import SprdFlash.ModemLink
import SprdFlash.Truncation
import Mathlib.Data.List.Pairwise

/-!
Both flows against the strict modem. It takes every command of a sound plan, so the flow
returns and leaves it with the images in its memory, the markers erased in their order
and nothing refused; and where no two images overlap, every byte of an entry in the file
is the byte at its address.
-/

namespace SprdFlash.Installation

open Message Port Pac SpdIO Flasher Native Struct Script Plan Exchange WireLog Acknowledging Package
open Completion Overlay Modem

def Requested : Step → Prop
  | .request cmd _ _ _ => cmd ≠ .exec
  | _ => False

def Spoken : Step → Prop
  | .request _ _ _ _ => False
  | .handOver => False
  | .setChecksum mode => mode = .sprd
  | .send _ _ => False
  | _ => True

theorem exchanged_spoken {erasing : Bool} {i : Step} (h : Exchanged erasing i) : Spoken i := by
  cases i with
  | command cmd data what => trivial
  | lenient cmd data what => trivial
  | fail e => trivial
  | _ => exact h.elim

theorem stage_spoken (addr : ℕ) (data : Bytes) (chunk : ℕ+) :
    ∀ i ∈ stage addr data chunk, Spoken i :=
  fun i hi => exchanged_spoken (exchanged_stage false addr data chunk i hi)

theorem loader_requested (fdl1 : PacEntry) (data : Bytes) (endChecksum : UInt32) :
    ∀ i ∈ loader fdl1 data endChecksum, Requested i := by
  rw [loader_eq, List.forall_mem_cons, List.forall_mem_cons, List.forall_mem_append,
    List.forall_mem_map, List.forall_mem_singleton]
  exact ⟨by simp [Requested], by simp [Requested], fun block _ => by simp [Requested],
    by simp [Requested]⟩

theorem flash_spoken (info : PacInfo) (content : Bytes) (options : FlashOptions) :
    ∀ i ∈ fdls info content options.chunk ++ (flashableEntries info).flatMap fun e =>
      given (Flasher.readEntry content e) fun data => stage e.address data options.chunk,
      Spoken i :=
  flash_forall (fun addr data => stage_spoken addr data options.chunk) (fun _ => trivial)
    (by simp [Spoken]) trivial info content

section Runs

variable {version : { text : Bytes // text.length < 65536 }}

section Speaking

variable {σ : Type} [Device σ] [Speaker σ]

structure Tuned (core : Core) (version : { text : Bytes // text.length < 65536 }) (s : Port σ) :
    Prop where
  ready : Ready .bsl core version s
  mode : s.checksum = .sprd

theorem exec_spoken {i : Step} (kind : Spoken i) (sound : halts i = false)
    {core : Core} {s : Port σ} (tuned : Tuned core version s) (content : core.Content (emits i)) :
    ∃ t, i.exec s = .ok () t ∧ Tuned (core.hears (emits i)) version t := by
  obtain ⟨ready, mode⟩ := tuned
  cases i with
  | request cmd arg1 arg2 extra => exact kind.elim
  | handOver => exact kind.elim
  | send cmd data => exact kind.elim
  | fail e => cases sound
  | setChecksum mode' =>
    cases kind
    exact ⟨_, rfl, ⟨ready.idle, ready.here, ready.sound⟩, rfl⟩
  | autobaud attempts =>
    obtain ⟨t, run, ready', mode'⟩ := autobaud_obeyed ready (by simpa [halts] using sound)
    exact ⟨t, bind_ok run, ready', mode'⟩
  | command cmd data what =>
    obtain ⟨rdata, t, run, ready', mode'⟩ :=
      command_obeyed ready mode (by simpa [halts] using sound)
      (Core.Content.cons_iff.mp content).1 what
    exact ⟨t, bind_ok run, ready', mode'⟩
  | lenient cmd data what =>
    obtain ⟨rdata, t, run, ready', mode'⟩ :=
      command_obeyed ready mode (by simpa [halts] using sound)
      (Core.Content.cons_iff.mp content).1 what
    refine ⟨t, ?_, ready', mode'⟩
    rw [Step.exec, tolerating, bind_ok run]
    rfl

theorem perform_spoken {steps : List Step} (kinds : ∀ i ∈ steps, Spoken i) (sound : Sound steps)
    {core : Core} {s : Port σ} (tuned : Tuned core version s)
    (content : core.Content (steps.flatMap emits)) :
    ∃ t, perform Step.exec steps s = .ok () t ∧
      Tuned (core.hears (steps.flatMap emits)) version t := by
  induction steps generalizing core s with
  | nil => exact ⟨s, rfl, tuned⟩
  | cons i steps ih =>
    rw [List.forall_mem_cons] at kinds
    rw [List.flatMap_cons, Core.Content.append_iff] at content
    obtain ⟨s', run, tuned'⟩ := exec_spoken kinds.1 (sound i List.mem_cons_self) tuned content.1
    obtain ⟨t, runs, done⟩ :=
      ih kinds.2 (fun j hj => sound j (List.mem_cons_of_mem _ hj)) tuned' content.2
    refine ⟨t, (bind_ok run).trans runs, ?_⟩
    rwa [List.flatMap_cons, Core.hears_append]

theorem perform_reset (doReset : Bool) {core : Core} {s : Port σ} (tuned : Tuned core version s) :
    ∃ t, perform Step.exec (reset doReset) s = .ok () t ∧
      (Speaker.modem t.device).core = core.hears ((reset doReset).flatMap emits) := by
  cases doReset with
  | false =>
    exact ⟨s, rfl, by rw [tuned.ready.here]; rfl⟩
  | true =>
    obtain ⟨t, sent, -, here, -⟩ :=
      send_obeyed tuned.ready tuned.mode (show Framable bslCmdNormalReset [] by decide)
    refine ⟨t, ?_, by rw [here]; rfl⟩
    rw [reset, if_pos rfl, perform_singleton, Step.exec, sent]

theorem perform_session {steps : List Step} (kinds : ∀ i ∈ steps, Spoken i) (sound : Sound steps)
    (doReset : Bool) {core : Core} {s : Port σ} (tuned : Tuned core version s)
    (content : core.Content (steps.flatMap emits)) :
    ∃ t, perform Step.exec (steps ++ reset doReset) s = .ok () t ∧
      (Speaker.modem t.device).core = core.hears ((steps ++ reset doReset).flatMap emits) := by
  obtain ⟨s', run, tuned'⟩ := perform_spoken kinds sound tuned content
  obtain ⟨t, last, done⟩ := perform_reset doReset tuned'
  refine ⟨t, by rw [perform_append, bind_ok run, last], ?_⟩
  rw [done, List.flatMap_append, Core.hears_append]

theorem attach_speaker (refused : Exc) {s : Port σ} {m : Modem} (here : Speaker.modem s.device = m)
    (sound : Speaker.sound s.device) :
    ∃ t, attach refused s = .ok () t ∧ Idle t ∧ Speaker.modem t.device = m ∧
      Speaker.sound t.device := by
  obtain ⟨d', events, attached, quiet, same, sound'⟩ := Speaker.attach s.device sound
  refine ⟨{ s with device := d', pending := events, log := s.log ++ [.opened] }, ?_, quiet,
    same.trans here, sound'⟩
  simp [attach, attached]

theorem openTransport_speaker {options : FlashOptions} (openable : Openable options) {s : Port σ}
    {m : Modem} (here : Speaker.modem s.device = m) (sound : Speaker.sound s.device) :
    ∃ t, openTransport options.transport options.device s = .ok () t ∧ Idle t ∧
      Speaker.modem t.device = m ∧ Speaker.sound t.device := by
  cases transport : options.transport with
  | usb => exact attach_speaker _ here sound
  | serial =>
    have named : options.device.getD "" ≠ "" := by
      rcases openable with usb | named
      · rw [transport] at usb
        cases usb
      · exact named
    simp only [openTransport, if_neg named]
    exact attach_speaker _ here sound

/-- Whatever mode the session starts in, the VER frame of the handshake corrects it. -/
theorem greeting_obeyed {core : Core} {s : Port σ} (ready : Ready .bsl core version s)
    (idle : core.job = none) :
    ∃ (s₁ t : Port σ) (rdata : Bytes), autobaud 200 { s with checksum := .crc } =
      .ok version.val s₁ ∧
      command bslCmdConnect [] bslRepAck "CONNECT" s₁ = .ok rdata t ∧ Tuned core version t := by
  obtain ⟨s₁, heard, ready₁, mode⟩ := autobaud_obeyed
    (s := ({ s with checksum := .crc } : Port σ)) ⟨ready.idle, ready.here, ready.sound⟩
    (show 200 ≠ 0 by decide)
  have greeted : core.hear (.bsl bslCmdConnect []) = (core, bslRepAck) := by
    change core.between core = _
    rw [Core.between, idle]
  obtain ⟨rdata, t, connected, ready₂, mode'⟩ := command_obeyed ready₁ mode
    (show Framable bslCmdConnect [] by decide) (by rw [greeted]) "CONNECT"
  rw [greeted] at ready₂
  exact ⟨s₁, t, rdata, heard, connected, ready₂, mode'⟩

theorem handshake_obeyed {core : Core} {s : Port σ} (ready : Ready .bsl core version s)
    (idle : core.job = none) :
    ∃ t, perform Step.exec handshake s = .ok () t ∧ Tuned core version t := by
  obtain ⟨s₁, t, rdata, heard, connected, tuned⟩ := greeting_obeyed ready idle
  refine ⟨t, ?_, tuned⟩
  rw [handshake, perform,
    bind_ok (show Step.exec (.setChecksum .crc) s = .ok () _ from rfl), perform,
    bind_ok (show Step.exec (.autobaud 200) _ = .ok () s₁ from bind_ok heard), perform_singleton]
  exact bind_ok connected

end Speaking

variable {σ : Type} [Device σ] [Hosted σ]

theorem perform_requested {steps : List Step} (kinds : ∀ i ∈ steps, Requested i)
    (sound : Sound steps) {core : Core} {s : Port σ} (ready : Ready .pdl core version s)
    (content : core.Content (steps.flatMap emits)) :
    ∃ t, perform Step.exec steps s = .ok () t ∧
      Ready .pdl (core.hears (steps.flatMap emits)) version t := by
  induction steps generalizing core s with
  | nil => exact ⟨s, rfl, ready⟩
  | cons i steps ih =>
    rw [List.forall_mem_cons] at kinds
    cases i with
    | request cmd arg1 arg2 extra =>
      have fits : Packable arg1 arg2 extra := by simpa [halts] using sound _ List.mem_cons_self
      obtain ⟨taken, rest⟩ := Core.Content.cons_iff.mp content
      obtain ⟨s', run, ready'⟩ := request_obeyed ready kinds.1 fits taken
      obtain ⟨t, runs, done⟩ := ih kinds.2 (fun j hj =>
        sound j (List.mem_cons_of_mem _ hj)) ready' rest
      exact ⟨t, (bind_ok run).trans runs, done⟩
    | _ => exact kinds.1.elim

theorem perform_native {info : PacInfo} {fdl1 : PacEntry} {content : Bytes}
    {options : NativeOptions}
    (sound : Sound (native info fdl1 content options)) {core : Core} {s : Port σ}
    (ready : Ready .pdl core version s)
    (taken : core.Content ((native info fdl1 content options).flatMap emits)) :
    ∃ t, perform Step.exec (native info fdl1 content options) s = .ok () t ∧
      (Hosted.modem t.device).core =
        core.hears ((native info fdl1 content options).flatMap emits) := by
  have split : native info fdl1 content options =
      loader fdl1 (Native.readEntry content fdl1) options.fdl1EndChecksum ++ .handOver ::
        .setChecksum .sprd :: (bslWrites info content options.formatFs ++
          reset options.doReset) := by
    simp [native]
  rw [split, List.flatMap_append, Core.Content.append_iff, List.flatMap_cons,
    Core.Content.append_iff, List.flatMap_cons, List.flatMap_append] at taken
  rw [split] at sound ⊢
  obtain ⟨loading, starting, writing⟩ := taken
  obtain ⟨loads, rest⟩ := sound_append_iff.mp sound
  have writes : Sound (bslWrites info content options.formatFs) := fun i hi =>
    rest i (List.mem_cons_of_mem _ (List.mem_cons_of_mem _ (List.mem_append_left _ hi)))
  obtain ⟨s₁, loaded, ready₁⟩ := perform_requested (loader_requested _ _ _) loads ready loading
  obtain ⟨s₂, handed, ready₂⟩ := handOver_obeyed ready₁ (Core.Content.cons_iff.mp starting).1
  have tuned : Tuned _ version ({ s₂ with checksum := .sprd } : Port σ) :=
    ⟨⟨ready₂.idle, ready₂.here, ready₂.sound⟩, rfl⟩
  obtain ⟨t, run, done⟩ := perform_session
    (fun i hi => exchanged_spoken (exchanged_bslWrites info content options.formatFs i hi)) writes
    options.doReset tuned (Core.Content.append_iff.mp writing).2.of_append
  refine ⟨t, ?_, done.trans ?_⟩
  · rw [perform_append, bind_ok loaded, perform, Step.exec, bind_ok handed, perform, Step.exec,
      ← run]
    exact bind_ok rfl
  · rw [@List.flatMap_append _ _ (loader _ _ _), Core.hears_append, List.flatMap_cons,
      Core.hears_append, List.flatMap_cons]
    rfl

end Runs

/-- The flow over BSL alone installs it on a modem that answers the checkbaud. -/
theorem flashPac_installs {σ : Type} [Device σ] [Speaker σ] {path : PacFile} {info : PacInfo}
    {fdl1 : PacEntry} (accepted : Accepted path info) (found : fdl1Of info = some fdl1) {d : σ}
    {core : Core} {version : { text : Bytes // text.length < 65536 }} (idle : core.job = none)
    (here : Speaker.modem d = ⟨.bsl, core, [], version⟩) (sound : Speaker.sound d)
    {options : FlashOptions} (openable : Openable options)
    (sendable : ∀ e ∈ loaders info ++ flashableEntries info,
      Sendable path.content options.chunk e) :
    ∃ t, flashPac path options (Port.fresh d) = .ok () t ∧ (Speaker.modem t.device).core =
      core.installed info (ownBlocks info path.content) [] options.doReset := by
  have narrow := accepted_narrow accepted
  have does := flash_does narrow path.content found (fun e he => (sendable e he).1) options
  obtain ⟨whole, -, -⟩ := does core idle
  obtain ⟨s₁, opened, quiet, here₁, sound₁⟩ := openTransport_speaker openable
    (show Speaker.modem (Port.fresh d).device = _ from here) sound
  obtain ⟨s₂, greeted, tuned⟩ := handshake_obeyed ⟨quiet, here₁, sound₁⟩ idle
  obtain ⟨t, run, done⟩ := perform_session (flash_spoken info path.content options)
    (fun i hi => flash_sound narrow path.content found sendable i (List.mem_append_left _ hi))
    options.doReset tuned
    (by
      have content := does.content idle
      rw [flash, List.flatMap_append] at content
      exact content.of_append)
  rw [← flash] at run done
  refine ⟨{ t with log := t.log ++ [.closed] }, ?_, done.trans whole⟩
  rw [flashPac_eq accepted, bind_ok opened, bind_ok greeted, closing_eq.1 run]

section Flows

variable {σ : Type} [Device σ] [Hosted σ]
variable {path : PacFile} {info : PacInfo} {fdl1 : PacEntry} (accepted : Accepted path info)
variable (found : fdl1Of info = some fdl1) {d : σ} {core : Core}
variable {version : { text : Bytes // text.length < 65536 }} (idle : core.job = none)
include accepted found idle

/-- The native flow installs the package on a modem in its download agent. -/
theorem nativeFlash_installs (here : Hosted.modem d = ⟨.pdl, core, [], version⟩)
    (options : NativeOptions)
    (roomy : options.formatFs = true → ∀ e ∈ dataMarkers info, Roomy info path.content e) :
    ∃ t, nativeFlash path options (Port.fresh d) = .ok () t ∧ (Hosted.modem t.device).core =
      core.installed info (nativeBlocks info fdl1 path.content options.formatFs)
        (nativeErases info options.formatFs) options.doReset := by
  have narrow := accepted_narrow accepted
  have does := native_does narrow path.content fdl1 options
  obtain ⟨whole, -, -⟩ := does core idle
  obtain ⟨s₁, opened, quiet, here₁, -⟩ := attach_speaker (.osError "could not open port")
    (show Speaker.modem (Port.fresh d).device = _ from here) trivial
  have serial : openSerial options.com 200 (Port.fresh d) = .ok () s₁ := by
    simp only [openSerial, opened]
  obtain ⟨s₂, cleared, quiet₂, -⟩ := resetInputBuffer_idle quiet
  have ready : Ready .pdl core version s₂ := by
    cases cleared
    exact ⟨quiet₂, here₁, trivial⟩
  obtain ⟨t, run, done⟩ := perform_native
    ((native_sound_iff narrow found path.content options).mpr roomy) ready (does.content idle)
  refine ⟨{ t with log := t.log ++ [.closed] }, ?_, done.trans whole⟩
  rw [nativeFlash_eq accepted found, bind_ok serial, bind_ok cleared, closing_eq.1 run]

omit [Device σ] [Hosted σ] accepted found in
theorem attempts_covered {allowed : (∀ (σ : Type) [Device σ], Session σ Unit) → Prop} {after : Core}
    {blocks : List (Block UInt8)}
    (keeps : ∀ flow, allowed flow → ∀ (σ : Type) [Device σ],
      ∃ some, (∀ b ∈ some, b ∈ blocks) ∧ Keeps (flow σ) some)
    (attempts : Attempts allowed core after) :
    after.job = none ∧ after.refused = core.refused ∧
      puts after.memory blocks = puts core.memory blocks := by
  have keep : after.job = none ∧ after.refused = core.refused ∧
      ∀ a, ¬ (∃ b ∈ blocks, b.Covers a) → after.memory a = core.memory a := by
    refine attempts.keep (fun flow mayRun σ _ => ?_) idle
    obtain ⟨some, inside, keeps⟩ := keeps flow mayRun σ
    exact ⟨some, fun b mem a covers => ⟨b, inside b mem, covers⟩, keeps⟩
  exact ⟨keep.1, keep.2.1, puts_over fun a bare => keep.2.2 a fun ⟨b, mem, covers⟩ =>
    bare b mem covers⟩

/-- Runs of the native flow on a package, with a format only if that is allowed. -/
inductive NativeRuns (path : PacFile) (formatFs : Bool) :
    (∀ (σ : Type) [Device σ], Session σ Unit) → Prop
  | run (options : NativeOptions) (formats : options.formatFs = true → formatFs = true) :
      NativeRuns path formatFs fun _ => nativeFlash path options

/-- However many runs broke off before, and wherever, a complete one leaves the memory
that it would have left without them. -/
theorem nativeFlash_after_attempts (options : NativeOptions) {after : Core}
    (attempts : Attempts (NativeRuns path options.formatFs) core after)
    (here : Hosted.modem d = ⟨.pdl, after, [], version⟩)
    (roomy : options.formatFs = true → ∀ e ∈ dataMarkers info, Roomy info path.content e) :
    ∃ t, nativeFlash path options (Port.fresh d) = .ok () t ∧
      (Hosted.modem t.device).core.memory =
        puts core.memory (nativeBlocks info fdl1 path.content options.formatFs) ∧
      (Hosted.modem t.device).core.refused = core.refused := by
  have keeps : ∀ flow, NativeRuns path options.formatFs flow → ∀ (σ : Type) [Device σ], ∃ some,
      (∀ b ∈ some, b ∈ nativeBlocks info fdl1 path.content options.formatFs) ∧
        Keeps (flow σ) some := by
    rintro flow ⟨earlier, formats⟩ σ _
    exact ⟨_, nativeBlocks_subset formats, nativeFlash_keeps accepted found earlier⟩
  obtain ⟨between, clean, same⟩ := attempts_covered idle keeps attempts
  obtain ⟨t, run, done⟩ := nativeFlash_installs accepted found between here options roomy
  refine ⟨t, run, ?_, ?_⟩
  · rw [done]
    exact same
  · rw [done]
    exact clean

/-- With ids of their own and addresses apart, all bytes of all entries of a package land
at their addresses. -/
theorem nativeFlash_lands (here : Hosted.modem d = ⟨.pdl, core, [], version⟩)
    (options : NativeOptions)
    (roomy : options.formatFs = true → ∀ e ∈ dataMarkers info, Roomy info path.content e)
    (placed : Placed info fdl1 path.content options.formatFs) :
    ∃ t, nativeFlash path options (Port.fresh d) = .ok () t ∧
      ∀ e ∈ loaders info ++ flashableEntries info,
        Lies path.content (Hosted.modem t.device).core.memory e := by
  obtain ⟨t, run, done⟩ := nativeFlash_installs accepted found idle here options roomy
  refine ⟨t, run, fun e he => ?_⟩
  rw [done]
  exact placed.lies path.content found core.memory e he

/-- With ids of their own the partitions come out of both flows alike. -/
theorem flows_agree {σ' : Type} [Device σ'] [Hosted σ'] {d' : σ'}
    (here : Hosted.modem d = ⟨.pdl, core, [], version⟩)
    (here' : Hosted.modem d' = ⟨.bsl, core, [], version⟩)
    (distinct : ((flashableEntries info).map PacEntry.fileId).Nodup)
    (options : NativeOptions) (plain : options.formatFs = false) {options' : FlashOptions}
    (openable : Openable options') (same : options'.doReset = options.doReset)
    (sendable : ∀ e ∈ loaders info ++ flashableEntries info,
      Sendable path.content options'.chunk e) :
    ∃ t t', nativeFlash path options (Port.fresh d) = .ok () t ∧
      flashPac path options' (Port.fresh d') = .ok () t' ∧
      (Hosted.modem t.device).core = (Hosted.modem t'.device).core := by
  obtain ⟨t, run, done⟩ := nativeFlash_installs accepted found idle here options
    fun format => by simp [plain] at format
  obtain ⟨t', run', done'⟩ := flashPac_installs
    (d := d') accepted found idle here' trivial openable sendable
  rw [speaker_hosted] at done'
  refine ⟨t, t', run, run', ?_⟩
  have blocks : nativeBlocks info fdl1 path.content false = ownBlocks info path.content := by
    have partitions : (flashableEntries info).map (fun e => (⟨e.address,
        imageOf path.content (flashableEntries info) e⟩ : Block UInt8)) =
        (flashableEntries info).map (ownBlock path.content) :=
      List.map_congr_left fun e he => by
        rw [imageOf, standIn_of_nodup distinct he]
        rfl
    simp only [nativeBlocks, imageBlocks, ownBlocks, loaders, found, partitions]
    simp [ownBlock]
  rw [done, done', plain, same, blocks]
  rfl

end Flows

/-- Address ranges of two entries without a common cell. -/
def Clear (e f : PacEntry) : Prop :=
  e.address + e.size ≤ f.address ∨ f.address + f.size ≤ e.address

instance (e f : PacEntry) : Decidable (Clear e f) := inferInstanceAs (Decidable (_ ∨ _))

theorem ownBlocks_apart {info : PacInfo} (clear : info.entries.Pairwise Clear) (content : Bytes) :
    Apart (ownBlocks info content) := by
  have : Std.Symm Clear := ⟨fun _ _ => Or.symm⟩
  have between {e f : PacEntry} (he : e ∈ info.entries) (hf : f ∈ info.entries)
      (roles : classify e ≠ classify f) : Clear e f :=
    clear.forall he hf fun same => roles (congrArg classify same)
  have loader {e : PacEntry} (he : e ∈ loaders info) : classify e ≠ .flash := by
    rcases List.mem_append.mp he with first | second
    · rw [(find_role (Option.mem_toList.mp first)).2]
      decide
    · rw [(find_role (Option.mem_toList.mp second)).2]
      decide
  have entries : (loaders info ++ flashableEntries info).Pairwise Clear := by
    refine List.pairwise_append.mpr ⟨?_, clear.filter _, fun e he f hf => ?_⟩
    · rw [loaders]
      cases first : fdl1Of info with
      | none => cases fdl2Of info <;> simp
      | some e =>
        cases second : fdl2Of info with
        | none => simp
        | some f =>
          have roles := find_role first
          have roles' := find_role second
          have far := between roles.1 roles'.1 (by rw [roles.2, roles'.2]; decide)
          simpa using far
    · have flash : classify f = .flash := by simpa using List.of_mem_filter hf
      exact between (loader_mem he) (flashable_mem hf) (by rw [flash]; exact loader he)
  rw [Apart, ownBlocks, List.pairwise_map]
  refine entries.imp fun {e f} clear a inE inF => ?_
  have first := readEntry_length_le content e
  have second := readEntry_length_le content f
  simp only [ownBlock, Block.Covers] at inE inF
  rcases clear with below | above
  · omega
  · omega

/-- A package laid out from a table and a payload, read back and flashed over BSL: each
partition's part of the payload lies at its address. -/
theorem image_lands {σ : Type} [Device σ] [Hosted σ] {d : σ} {core : Core}
    {version : { text : Bytes // text.length < 65536 }} (idle : core.job = none)
    (here : Hosted.modem d = ⟨.bsl, core, [], version⟩) (name : String) {entries : List PacEntry}
    {payload : Bytes} (layable : PacImage.Layable entries payload)
    (loader : ∃ e ∈ entries, classify e = .fdl1)
    (placed : ∀ e ∈ entries, e.size ≠ 0 → PacImage.payloadOffset entries.length ≤ e.offset ∧
      e.offset + e.size ≤ PacImage.payloadOffset entries.length + payload.length)
    (clear : entries.Pairwise Clear)
    {options : FlashOptions} (openable : Openable options) (small : (options.chunk : ℕ) < 65536) :
    ∃ t, flashPac (PacImage.image name entries payload) options (Port.fresh d) = .ok () t ∧
      ∀ e ∈ entries, classify e = .flash → ∀ i < e.size,
        (Hosted.modem t.device).core.memory (e.address + i) =
          payload[e.offset - PacImage.payloadOffset entries.length + i]? := by
  have length := PacImage.image_length name layable
  obtain ⟨⟨info, accepted, rfl⟩, behind⟩ := PacImage.parsePac_image name layable
  have found : fdl1Of info ≠ none := by simpa [fdl1Of] using loader
  obtain ⟨fdl1, found⟩ := Option.ne_none_iff_exists'.mp found
  generalize PacImage.image name info.entries payload = path at *
  have sendable : ∀ e ∈ loaders info ++ flashableEntries info,
      Sendable path.content options.chunk e := by
    intro e he
    have payload : e ∈ info.entries ∧ e.size ≠ 0 := by
      rcases List.mem_append.mp he with loader | partition
      · exact ⟨loader_mem loader, Truncation.loaders_payload loader⟩
      · exact ⟨flashable_mem partition, Truncation.flashable_payload partition⟩
    refine ⟨?_, .inl small⟩
    rw [InFile, length]
    exact (placed e payload.1 payload.2).2
  obtain ⟨t, run, done⟩ := flashPac_installs
    (d := d) accepted found idle here trivial openable sendable
  rw [speaker_hosted] at done
  refine ⟨t, run, fun e he role i within => ?_⟩
  have partition : e ∈ flashableEntries info := List.mem_filter.mpr ⟨he, by simpa using role⟩
  have some : e.size ≠ 0 := by omega
  have offset := (placed e he some).1
  have cell : path.content[e.offset + i]? =
      payload[e.offset - PacImage.payloadOffset info.entries.length + i]? := by
    conv_rhs => rw [← behind]
    rw [List.getElem?_drop]
    congr 1
    omega
  rw [done, ← cell]
  exact ownBlock_lies path.content (ownBlocks_apart clear _)
    (List.mem_map_of_mem (List.mem_append_right _ partition))
    (sendable e (List.mem_append_right _ partition)).1 core.memory i within

section Example

open PacImage

theorem silence_short : ([] : Bytes).length < 65536 := by decide

def listening (core : Core) : Modem := ⟨.pdl, core, [], ⟨[], silence_short⟩⟩

def greeting (core : Core) : Modem := ⟨.bsl, core, [], ⟨[], silence_short⟩⟩

theorem package_nativeFlash_retried : ∃ after,
    Attempts (NativeRuns (package 2) true) Core.blank after ∧
      ∃ t, nativeFlash (package 2) ⟨"COM3", 0, true, true⟩
        (Port.fresh (listening after)) = .ok () t ∧
        t.device.core.memory 0x60010001 = some 0x22 ∧ t.device.core.refused = [] := by
  obtain ⟨info, accepted, entries⟩ := package_accepted (show 2 < 2 ^ 32 by decide)
  have attempts : Attempts (NativeRuns (package 2) true) Core.blank _ :=
    .again Acker Acker.mk (.run ⟨"COM4", 7, false, false⟩ fun _ => rfl) (.never _)
  obtain ⟨t, run, memory, clean⟩ := nativeFlash_after_attempts accepted (package_fdl1 entries)
    (d := listening _) rfl ⟨"COM3", 0, true, true⟩ attempts rfl fun _ => package_roomy entries
  refine ⟨_, attempts, t, run, ?_, clean⟩
  refine (congrFun memory _).trans ?_
  rw [(package_blocks entries).1]
  rfl

theorem package_lands : ∃ t, nativeFlash (package 2) ⟨"COM3", 0, true, true⟩
      (Port.fresh (listening Core.blank)) = .ok () t ∧
    t.device.core.memory (0x60010000 + 2) = (package 2).content[payloadOffset 3 + 2 + 2]? := by
  obtain ⟨info, accepted, entries⟩ := package_accepted (show 2 < 2 ^ 32 by decide)
  obtain ⟨t, run, lands⟩ := nativeFlash_lands accepted (package_fdl1 entries)
    (d := listening Core.blank) rfl rfl ⟨"COM3", 0, true, true⟩ (fun _ => package_roomy entries)
    (package_placed entries)
  have partition : entry ['A', 'P'] 0x60010000 (payloadOffset 3 + 2) 3 ∈
      loaders info ++ flashableEntries info := by
    rw [package_flashable entries (by decide)]
    simp
  exact ⟨t, run, lands _ partition 2 (by decide)⟩

theorem package_flows_agree : ∃ t t',
    nativeFlash (package 2) ⟨"COM3", 0, false, true⟩
      (Port.fresh (listening Core.blank)) = .ok () t ∧
      flashPac (package 2) ⟨.usb, none, defaultChunk, true⟩ (Port.fresh (greeting Core.blank)) =
        .ok () t' ∧
      t.device.core = t'.device.core := by
  obtain ⟨info, accepted, entries⟩ := package_accepted (show 2 < 2 ^ 32 by decide)
  exact flows_agree accepted (package_fdl1 entries) (d := listening Core.blank) rfl rfl rfl
    (package_distinct entries) ⟨"COM3", 0, false, true⟩ rfl (.inl rfl) rfl
    (package_sendable entries)

theorem package_image_lands : ∃ t,
    flashPac (package 2) ⟨.usb, none, defaultChunk, true⟩ (Port.fresh (greeting Core.blank)) =
        .ok () t ∧
      t.device.core.memory (0x60010000 + 2) = some 0x23 := by
  obtain ⟨t, run, lands⟩ := image_lands (d := greeting Core.blank) rfl rfl "package.pac"
    (package_layable (show 2 < 2 ^ 32 by decide))
    ⟨entry hostFdl 0x00838000 (payloadOffset 3) 2, by simp [packageEntries], rfl⟩
    (by rw [packageEntries, List.forall_mem_cons, List.forall_mem_cons, List.forall_mem_singleton]
        decide)
    (by decide) (show Openable ⟨.usb, none, defaultChunk, true⟩ from .inl rfl) (by decide)
  have cell := lands (entry ['A', 'P'] 0x60010000 (payloadOffset 3 + 2) 3)
    (by simp [packageEntries])
    rfl 2 (by decide)
  exact ⟨t, run, cell.trans (by decide)⟩

end Example

end SprdFlash.Installation
