import SprdFlash.Commands

/-!
The command line over the life of a modem. A `flash` that exits with 0 has sent what makes
a strict modem hold its package; and whatever commands were run on the package before, a
`flash` on a line that loses nothing exits with 0 and leaves the memory that it would have
left without them.
-/

namespace SprdFlash.Cli

open Message Port Pac Flasher Native Script Struct Plan Exchange WireLog Acknowledging Package
open Completion Overlay Modem Installation Gates

section Exit

theorem exitCode_ne_zero {e : Exc} {code : ℕ} (h : exitCode e = some code) : code ≠ 0 := by
  cases e <;> simp only [exitCode, Option.some.injEq, reduceCtorEq] at h <;> omega

variable {σ : Type} [Device σ]

theorem run_zero (path : PacFile) (comports : List ComPort) (command : Command) {s t : Port σ} :
    command.run path comports s = .ok 0 t ↔ command.fn path comports s = .ok 0 t := by
  rw [Command.run]
  cases command.fn path comports s with
  | ok code u => exact Iff.rfl
  | error e u =>
    simp only
    cases code : exitCode e with
    | none => simp
    | some code' =>
      have other : code' ≠ 0 := exitCode_ne_zero code
      simp [other]

/-- Whatever the device, behind an exit with 0 a strict modem that heard the commands holds
what `native_flash` put together for the package, erased and rebooted as the options say,
which is every byte of its loaders and partitions where the table keeps them apart. -/
theorem flash_exits_zero {path : PacFile} {args : FlashArgs} {comports : List ComPort} {d : σ}
    {t : Port σ} (h : Command.run path comports (.flash args) (Port.fresh d) = .ok 0 t) :
    ∃ info fdl1, Accepted path info ∧ fdl1Of info = some fdl1 ∧
      ∀ core : Core, core.job = none →
        core.hears (sentCmds t.log) =
          core.installed info (nativeBlocks info fdl1 path.content args.format)
            (nativeErases info args.format) (!args.noReset) ∧
        (Placed info fdl1 path.content args.format →
          ∀ e ∈ loaders info ++ flashableEntries info,
            Lies path.content (core.hears (sentCmds t.log)).memory e) := by
  rw [run_zero] at h
  rcases flash_cases path args comports (Port.fresh d) with ⟨-, never, -⟩ | ⟨port, -, -, exits⟩
  · exact absurd h (never t)
  · obtain ⟨info, fdl1, accepted, found, hears⟩ := nativeFlash_hears ((exits t).mp h)
    refine ⟨info, fdl1, accepted, found, fun core idle => ⟨hears core idle, fun placed => ?_⟩⟩
    rw [hears core idle]
    exact placed.lies path.content found core.memory

end Exit

section History

def Command.formats : Command → Bool
  | .flash args => args.format
  | _ => false

/-- Commands on a package, with a format only if that is allowed. -/
inductive CommandRuns (path : PacFile) (formatFs : Bool) :
    (∀ (σ : Type) [Device σ], Session σ Unit) → Prop
  | run (command : Command) (comports : List ComPort)
      (formats : command.formats = true → formatFs = true) :
      CommandRuns path formatFs fun _ => do let _ ← command.run path comports

variable {σ : Type} [Device σ]

omit [Device σ] in
theorem final_discard (x : Session σ ℕ) (s : Port σ) :
    final ((do let _ ← x : Session σ Unit) s) = final (x s) := by
  cases run : x s with
  | ok code t => rw [bind_ok run]; rfl
  | error e t => rw [bind_error run]; rfl

variable {path : PacFile} {info : PacInfo} {fdl1 : PacEntry} (accepted : Accepted path info)
variable (found : fdl1Of info = some fdl1)
include accepted found

theorem run_keeps (command : Command) (comports : List ComPort) :
    Keeps (σ := σ) (do let _ ← command.run path comports)
      (nativeBlocks info fdl1 path.content command.formats) := by
  cases command with
  | info noVerify =>
    refine quiet_keeps (fun d core idle => ?_) _
    have same : final (cmdInfo path noVerify (Port.fresh d)) = Port.fresh d := by
      rw [cmdInfo]
      cases parsePac path (!noVerify) <;> rfl
    rw [final_discard, final_run, Command.fn, same]
    rfl
  | identify transport port =>
    refine quiet_keeps (fun d core idle => ?_) _
    obtain ⟨acts, kinds, log⟩ :=
      identify_run_harmless path comports transport port (Port.fresh d)
    rw [final_discard, log]
    exact hears_connects idle (sentCmds_harmless kinds)
  | flash args =>
    intro d core idle
    rw [final_discard, final_run]
    rcases flash_cases path args comports (Port.fresh d) with ⟨same, -⟩ | ⟨port, -, same, -⟩
    · rw [Command.fn, same]
      exact ⟨rfl, [], Part.nil _, rfl⟩
    · rw [Command.fn, same]
      exact nativeFlash_keeps accepted found (nativeOptions args port) d core idle

omit found in
/-- A package that `native_flash` takes passes the gate in front of it. -/
theorem letsThrough (args : FlashArgs) : LetsThrough path args := by
  rw [letsThrough_iff accepted.parsed]
  have good := accepted.crcOk
  rw [PacInfo.crcOk, Bool.and_eq_true] at good
  exact .inr ⟨good.1, .inr (by simpa using good.2)⟩

variable [Hosted σ] {d : σ} {core : Core} (idle : core.job = none)
variable {version : { text : Bytes // text.length < 65536 }} {args : FlashArgs}
variable {comports : List ComPort} {port : String}
    (named : resolvePort args.port comports = .ok port)
variable (roomy : args.format = true → ∀ e ∈ dataMarkers info, Roomy info path.content e)
include idle named roomy

theorem flash_installs (here : Hosted.modem d = ⟨.pdl, core, [], version⟩) :
    ∃ t, Command.run path comports (.flash args) (Port.fresh d) = .ok 0 t ∧
      (Hosted.modem t.device).core =
        core.installed info (nativeBlocks info fdl1 path.content args.format)
          (nativeErases info args.format) (!args.noReset) := by
  obtain ⟨t, run, done⟩ := nativeFlash_installs accepted found idle here
    (nativeOptions args port) roomy
  refine ⟨t, (run_zero path comports (.flash args)).mpr ?_, done⟩
  rcases flash_cases path args comports (Port.fresh d) with ⟨-, -, stops⟩ |
    ⟨port', named', -, exits⟩
  · obtain ⟨e, unnamed⟩ := stops (letsThrough accepted args)
    rw [named] at unnamed
    cases unnamed
  · cases named.symm.trans named'
    exact (exits t).mpr run

/-- However the commands before it went, and against whatever devices, `flash` on a line
that loses nothing exits with 0 and leaves the memory it would have left without them. -/
theorem flash_after_commands {after : Core}
    (attempts : Attempts (CommandRuns path args.format) core after)
    (here : Hosted.modem d = ⟨.pdl, after, [], version⟩) :
    ∃ t, Command.run path comports (.flash args) (Port.fresh d) = .ok 0 t ∧
      (Hosted.modem t.device).core.memory =
        puts core.memory (nativeBlocks info fdl1 path.content args.format) ∧
      (Hosted.modem t.device).core.refused = core.refused := by
  have keeps : ∀ flow, CommandRuns path args.format flow → ∀ (σ : Type) [Device σ], ∃ some,
      (∀ b ∈ some, b ∈ nativeBlocks info fdl1 path.content args.format) ∧ Keeps (flow σ) some := by
    rintro flow ⟨command, ports, formats⟩ σ _
    exact ⟨_, nativeBlocks_subset formats, run_keeps accepted found command ports⟩
  obtain ⟨between, clean, same⟩ := attempts_covered idle keeps attempts
  obtain ⟨t, run, done⟩ := flash_installs accepted found between named roomy here
  refine ⟨t, run, ?_, ?_⟩
  · rw [done]
    exact same
  · rw [done]
    exact clean

end History

section Example

open PacImage

def formatting : FlashArgs := ⟨some "COM3", false, false, true, false⟩

theorem package_flash_after_commands : ∃ after,
    Attempts (CommandRuns (package 2) true) Core.blank after ∧
      ∃ t, Command.run (package 2) [] (.flash formatting) (Port.fresh (listening after)) = .ok 0 t ∧
        t.device.core.memory 0x60010001 = some 0x22 ∧ t.device.core.refused = [] := by
  obtain ⟨info, accepted, entries⟩ := package_accepted (show 2 < 2 ^ 32 by decide)
  have attempts : Attempts (CommandRuns (package 2) true) Core.blank _ :=
    .again Acker Acker.mk (.run (.flash formatting) [] fun _ => rfl)
      (.again Acker Acker.mk (.run (.identify .usb none) [] (by simp [Command.formats])) (.never _))
  obtain ⟨t, run, memory, clean⟩ := flash_after_commands accepted (package_fdl1 entries)
    (d := listening _) rfl (show resolvePort formatting.port [] = .ok "COM3" from rfl)
    (fun _ => package_roomy entries) attempts rfl
  refine ⟨_, attempts, t, run, ?_, clean⟩
  refine (congrFun memory _).trans ?_
  rw [show formatting.format = true from rfl, (package_blocks entries).1]
  rfl

theorem package_flash_exits_zero : ∃ t,
    Command.run (package 2) [] (.flash formatting) (Port.fresh (listening Core.blank)) = .ok 0 t ∧
      (Core.blank.hears (sentCmds t.log)).memory 0x60010001 = some 0x22 ∧
      (Core.blank.hears (sentCmds t.log)).memory (0x60010000 + 2) =
        (package 2).content[payloadOffset 3 + 2 + 2]? := by
  obtain ⟨info, accepted, entries⟩ := package_accepted (show 2 < 2 ^ 32 by decide)
  obtain ⟨t, run, -⟩ := flash_installs accepted (package_fdl1 entries)
    (d := listening Core.blank) rfl
    (show resolvePort formatting.port [] = .ok "COM3" from rfl) (fun _ => package_roomy entries) rfl
  obtain ⟨info', fdl1, accepted', found, hears⟩ := flash_exits_zero run
  cases accepted.parsed.symm.trans accepted'.parsed
  cases (package_fdl1 entries).symm.trans found
  obtain ⟨installed, lies⟩ := hears Core.blank rfl
  have partition : entry ['A', 'P'] 0x60010000 (payloadOffset 3 + 2) 3 ∈
      loaders info ++ flashableEntries info := by
    rw [package_flashable entries (by decide)]
    simp
  refine ⟨t, run, ?_, lies (package_placed entries) _ partition 2 (by decide)⟩
  rw [installed, Core.installed, show formatting.format = true from rfl, (package_blocks entries).1]
  rfl

end Example

end SprdFlash.Cli
