import SprdFlash.Gates
import SprdFlash.Installation
import SprdFlash.PortRelease
import SprdFlash.Refusal

/-!
The whole command line: `identify`, `info` and `flash` under the handlers of `main`. A
command opens its port at most once, talks on it only while it is open and closes it at
most once; `identify` changes nothing on the modem; and no option lets a package reach a
port that `info` does not pass.
-/

namespace SprdFlash.Cli

open Message Port Pac Flasher Native SpdIO Struct Script Exchange Plan WireLog PortRelease Runs
open Gates

inductive Command
  | info (noVerify : Bool)
  | identify (transport : Transport) (port : Option String)
  | flash (args : FlashArgs)
  deriving DecidableEq, Repr

def latin1 (bs : Bytes) : List Char := bs.map fun b => Char.ofNat b.toNat

/-- `str.isspace` of a character below U+0100. -/
def isSpace (c : Char) : Bool :=
  (9 ≤ c.toNat && c.toNat ≤ 13) || (28 ≤ c.toNat && c.toNat ≤ 32) || c.toNat = 0x85 ||
    c.toNat = 0xA0

def strip (text : List Char) : List Char :=
  ((text.dropWhile isSpace).reverse.dropWhile isSpace).reverse

section Handlers

variable {σ : Type} [Device σ]

def identifyPort (transport : Transport) (port : Option String) (comports : List ComPort) :
    Except Exc (Option String) :=
  match transport with
  | .usb => .ok none
  | .serial => (resolvePort port comports).map some

/-- What `_cmd_identify` prints for the version. -/
def identify (transport : Transport) (port : Option String) (comports : List ComPort) :
    Session σ (List Char) := do
  let port ← raising (identifyPort transport port comports)
  let version ← connectBootrom transport port
  closing (pure (strip (latin1 version)))

def cmdIdentify (transport : Transport) (port : Option String) (comports : List ComPort) :
    Session σ ℕ := do
  let _ ← identify transport port comports
  return 0

def cmdInfo (path : PacFile) (noVerify : Bool) : Session σ ℕ := do
  let info ← raising (parsePac path (!noVerify))
  return if info.crcOk then 0 else 2

def Command.fn (path : PacFile) (comports : List ComPort) : Command → Session σ ℕ
  | .info noVerify => cmdInfo path noVerify
  | .identify transport port => cmdIdentify transport port comports
  | .flash args => cmdFlash path args comports

/-- `main` behind the parser of the arguments. -/
def Command.run (path : PacFile) (comports : List ComPort) (command : Command) : Session σ ℕ :=
  fun s => match command.fn path comports s with
    | .ok code t => .ok code t
    | .error e t => match exitCode e with
      | some code => .ok code t
      | none => .error e t

theorem final_run (path : PacFile) (comports : List ComPort) (command : Command) (s : Port σ) :
    final (command.run path comports s) = final (command.fn path comports s) := by
  rw [Command.run]
  cases command.fn path comports s with
  | ok code t => rfl
  | error e t =>
    simp only
    cases exitCode e <;> rfl

/-- `flash` is stopped by its gate or by the search for the port and leaves all as it was,
or it is `native_flash`, and exits with 0 where that returns. -/
theorem flash_cases (path : PacFile) (args : FlashArgs) (comports : List ComPort) (s : Port σ) :
    (final (cmdFlash path args comports s) = s ∧ (∀ t, cmdFlash path args comports s ≠ .ok 0 t) ∧
        (LetsThrough path args → ∃ e, resolvePort args.port comports = .error e)) ∨
      ∃ port, resolvePort args.port comports = .ok port ∧
        final (cmdFlash path args comports s) =
          final (nativeFlash path (nativeOptions args port) s) ∧
        ∀ t, cmdFlash path args comports s = .ok 0 t ↔
          nativeFlash path (nativeOptions args port) s = .ok () t := by
  cases parsed : parsePac path (!args.noVerify) with
  | error e =>
    refine .inl ?_
    rw [cmdFlash, parsed]
    refine ⟨rfl, fun t h => (by cases h), fun through => ?_⟩
    obtain ⟨info, passed, -⟩ := through
    rw [parsed] at passed
    cases passed
  | ok info =>
    rw [cmdFlash_parsed args parsed]
    by_cases refused : info.crcOk = false ∧ args.force = false
    · rw [if_pos refused]
      refine .inl ⟨rfl, fun t h => (by cases h), fun through => ?_⟩
      obtain ⟨info', passed, passes⟩ := through
      cases parsed.symm.trans passed
      simp [refused] at passes
    · rw [if_neg refused]
      cases named : resolvePort args.port comports with
      | error e => exact .inl ⟨rfl, fun t h => (by cases h), fun _ => ⟨e, rfl⟩⟩
      | ok port =>
        refine .inr ⟨port, rfl, ?_⟩
        simp only
        cases nativeFlash path (nativeOptions args port) s with
        | ok u t => exact ⟨rfl, fun t' => by simp⟩
        | error e t => cases e <;> exact ⟨rfl, fun t' => by simp⟩

end Handlers

section Lifecycle

/-- What one command adds to a log: nothing, or the opening of a port, the talk on it and
its close, which is missing where the port stays open. -/
inductive Lifecycle (stays : Prop) : List Act → Prop
  | untouched : ¬ stays → Lifecycle stays []
  | closed {talk : List Act} : ¬ stays → (∀ act ∈ talk, Talk act) →
      Lifecycle stays (.opened :: (talk ++ [.closed]))
  | left {talk : List Act} : stays → (∀ act ∈ talk, Talk act) → Lifecycle stays (.opened :: talk)

variable {σ : Type} [Device σ]

theorem exec_talks (i : Step) : Appends (σ := Port σ) Port.log Talk i.exec :=
  exec_appends (by simp [Talk]) (by simp [Talk]) (by simp [Talk]) (by simp [Talk])

/-- The port is left open: `identify` has opened it and the handshake on it fails. -/
def LeavesOpen (comports : List ComPort) (device : σ) : Command → Prop
  | .identify transport port => ∃ name last events,
      identifyPort transport port comports = .ok name ∧
      opening transport name device = some (last, events) ∧ ¬ Greets last events
  | _ => False

theorem native_lifecycle (path : PacFile) (options : NativeOptions) (s : Port σ) :
    ∃ acts, (final (nativeFlash path options s)).log = s.log ++ acts ∧ Lifecycle False acts := by
  rcases nativeFlash_run path options s with ⟨e, t, run, same⟩ | ⟨info, fdl1, -, -, t, opened, run⟩
  · rw [run]
    exact ⟨[], same.trans (List.append_nil _).symm, .untouched not_false⟩
  · obtain ⟨acts, talk, log⟩ :=
      (perform_appends fun i (_ : i ∈ native info fdl1 path.content options) => exec_talks i) t
    refine ⟨.opened :: (acts ++ [.closed]), ?_, .closed not_false talk⟩
    rw [run, closing_log, log, opened]
    simp

theorem greet_closing_log {α : Type} (s : Port σ) (f : Bytes → α) :
    ∃ acts, (∀ act ∈ acts, Talk act) ∧
      (Greets s.device s.pending →
        (final ((greet >>= fun version => closing (pure (f version))) s)).log =
          s.log ++ (acts ++ [.closed])) ∧
      (¬ Greets s.device s.pending →
        (final ((greet >>= fun version => closing (pure (f version))) s)).log = s.log ++ acts) := by
  have outcome := greet_outcome s
  obtain ⟨acts, talk, log⟩ := greet_talks s
  refine ⟨acts, talk, fun greets => ?_, fun fails => ?_⟩
  · obtain ⟨version, t, run⟩ := outcome.1 greets
    have written : t.log = s.log ++ acts := by rw [run] at log; exact log
    rw [bind_ok run]
    change t.log ++ [.closed] = _
    rw [written, List.append_assoc]
  · obtain ⟨e, t, run⟩ := outcome.2 fails
    rw [run] at log
    rw [bind_error run]
    exact log

theorem identify_lifecycle (transport : Transport) (port : Option String)
    (comports : List ComPort) (s : Port σ) :
    ∃ acts, (final (identify transport port comports s)).log = s.log ++ acts ∧
      Lifecycle (LeavesOpen comports s.device (.identify transport port)) acts := by
  cases named : identifyPort transport port comports with
  | error e =>
    refine ⟨[], ?_, .untouched (by simp [LeavesOpen, named])⟩
    rw [identify, named]
    exact (List.append_nil _).symm
  | ok name =>
    have start : identify (σ := σ) transport port comports = connectBootrom transport name >>=
        fun version => closing (pure (strip (latin1 version))) := by
      rw [identify, named]
      rfl
    have opens := openTransport_opening transport name s
    rw [start, connectBootrom_greet]
    cases opened : opening transport name s.device with
    | none =>
      rw [opened] at opens
      obtain ⟨e, t, run, same⟩ := opens
      refine ⟨[], ?_, .untouched (by simp [LeavesOpen, named, opened])⟩
      rw [bind_error (bind_error run)]
      exact same.trans (List.append_nil _).symm
    | some found =>
      obtain ⟨device, events⟩ := found
      rw [opened] at opens
      have leaves : LeavesOpen comports s.device (.identify transport port) ↔
          ¬ Greets device events := by
        simp [LeavesOpen, named, opened]
      obtain ⟨acts, talk, shut, left⟩ :=
        greet_closing_log ⟨device, events, s.log ++ [.opened], s.checksum⟩ fun version =>
          strip (latin1 version)
      rw [leaves, Script.bind_assoc, bind_ok opens]
      by_cases greets : Greets device events
      · exact ⟨.opened :: (acts ++ [.closed]), (shut greets).trans (List.append_assoc _ _ _),
          .closed (not_not_intro greets) talk⟩
      · exact ⟨.opened :: acts, (left greets).trans (List.append_assoc _ _ _),
          .left greets talk⟩

/-- Whatever the device, a command opens its port at most once, talks only while it is
open and closes it once, except that `identify` leaves it open behind a failed handshake. -/
theorem run_lifecycle (path : PacFile) (comports : List ComPort) (command : Command) (s : Port σ) :
    ∃ acts, (final (command.run path comports s)).log = s.log ++ acts ∧
      Lifecycle (LeavesOpen comports s.device command) acts := by
  rw [final_run]
  cases command with
  | info noVerify =>
    refine ⟨[], ?_, .untouched not_false⟩
    rw [Command.fn, cmdInfo]
    cases parsePac path (!noVerify) <;> exact (List.append_nil _).symm
  | identify transport port =>
    have same : (final (cmdIdentify transport port comports s)).log =
        (final (identify transport port comports s)).log := by
      rw [cmdIdentify]
      cases run : identify transport port comports s with
      | ok text t => rw [bind_ok run]; rfl
      | error e t => rw [bind_error run]; rfl
    rw [Command.fn, same]
    exact identify_lifecycle transport port comports s
  | flash args =>
    rw [Command.fn]
    rcases flash_cases path args comports s with ⟨same, -⟩ | ⟨port, -, same, -⟩
    · refine ⟨[], ?_, .untouched not_false⟩
      rw [same, List.append_nil]
    · obtain ⟨acts, log, once⟩ := native_lifecycle path (nativeOptions args port) s
      exact ⟨acts, by rw [same, log], once⟩

end Lifecycle

section Identify

def Harmless : Act → Prop
  | .wrote bs => bs = [hdlcFlag] ∨ ∃ mode, bs = wireMessage bslCmdConnect [] mode
  | _ => True

variable {σ : Type} [Device σ]

theorem greet_harmless : Appends (σ := Port σ) Port.log Harmless greet :=
  greet_appends (.inl rfl) (fun _ => .inr ⟨_, rfl⟩) (fun _ => trivial) fun _ => trivial

theorem identify_appends (transport : Transport) (port : Option String) (comports : List ComPort) :
    Appends (σ := Port σ) Port.log Harmless (identify transport port comports) := by
  have opens (name : Option String) :
      Appends (σ := Port σ) Port.log Harmless (openTransport transport name) := by
    intro s
    rcases Modem.openTransport_log transport name s with ⟨t, run, log⟩ | ⟨e, t, run, log⟩
    · rw [run]
      exact ⟨[.opened], by simp [Harmless], log⟩
    · rw [run]
      exact ⟨[], by simp, log.trans (List.append_nil _).symm⟩
  have read : Appends (σ := Port σ) Port.log Harmless
      (raising (identifyPort transport port comports)) := Appends.of_same fun s => by
    cases identifyPort transport port comports <;> rfl
  refine read.bind fun name => ?_
  rw [connectBootrom_greet]
  refine ((opens name).bind fun _ => greet_harmless).bind fun version s => ?_
  exact ⟨[.closed], by simp [Harmless], rfl⟩

omit [Device σ] in
theorem sentCmds_harmless {acts : List Act} (h : ∀ act ∈ acts, Harmless act) :
    ∀ c ∈ sentCmds acts, c = .bsl bslCmdConnect [] := by
  intro c mem
  obtain ⟨act, hact, sends⟩ := List.mem_filterMap.mp mem
  cases act with
  | wrote bs =>
    rcases h _ hact with rfl | ⟨mode, rfl⟩
    · rw [sent, decodeWrite_flag] at sends
      cases sends
    · rw [sent, decodeWrite_wireMessage (show Framable bslCmdConnect [] by decide)] at sends
      cases sends
      rfl
  | _ => cases sends

theorem hears_connects {core : Modem.Core} (idle : core.job = none) {sents : List Sent}
    (h : ∀ c ∈ sents, c = .bsl bslCmdConnect []) : core.hears sents = core := by
  induction sents with
  | nil => rfl
  | cons c sents ih =>
    rw [List.forall_mem_cons] at h
    have same : (core.hear (.bsl bslCmdConnect [])).1 = core := by
      change (core.between core).1 = core
      rw [Modem.Core.between, idle]
    rw [h.1, Modem.Core.hears_cons, same, ih h.2]

theorem identify_run_harmless (path : PacFile) (comports : List ComPort) (transport : Transport)
    (port : Option String) :
    Appends (σ := Port σ) Port.log Harmless
      (Command.run path comports (.identify transport port)) := by
  have appends := (identify_appends (σ := σ) transport port comports).bind fun _ =>
    (Appends.of_same fun _ => rfl : Appends Port.log Harmless (pure 0 : Session σ ℕ))
  intro s
  rw [final_run]
  exact appends s

/-- Whatever answers it, `identify` writes nothing but checkbauds and CONNECT, and a modem
between two transfers stays as it is. -/
theorem identify_harmless (path : PacFile) (comports : List ComPort) (transport : Transport)
    (port : Option String) (s : Port σ) :
    ∃ acts, (final (Command.run path comports (.identify transport port) s)).log = s.log ++ acts ∧
      (∀ bs, .wrote bs ∈ acts → bs = [hdlcFlag] ∨ ∃ mode, bs = wireMessage bslCmdConnect [] mode) ∧
      ∀ core : Modem.Core, core.job = none → core.hears (sentCmds acts) = core := by
  obtain ⟨acts, kinds, log⟩ := identify_run_harmless path comports transport port s
  exact ⟨acts, log, fun bs mem => kinds _ mem,
    fun core idle => hears_connects idle (sentCmds_harmless kinds)⟩

open Installation Modem in
/-- On a modem that answers as it should, `identify` prints its version, closes the port and
leaves it as it was. -/
theorem identify_reads [Hosted σ] {d : σ} {core : Core} (idle : core.job = none)
    {version : { text : Bytes // text.length < 65536 }}
    (here : Hosted.modem d = ⟨.bsl, core, [], version⟩) {transport : Transport}
    {port name : Option String}
    {comports : List ComPort} (named : identifyPort transport port comports = .ok name) :
    ∃ t, identify transport port comports (Port.fresh d) = .ok (strip (latin1 version.val)) t ∧
      (∀ path, Command.run path comports (.identify transport port) (Port.fresh d) = .ok 0 t) ∧
      Hosted.modem t.device = ⟨.bsl, core, [], version⟩ := by
  have openable : Acknowledging.Openable ⟨transport, name, defaultChunk, true⟩ := by
    cases transport with
    | usb => exact .inl rfl
    | serial =>
      refine .inr ?_
      simp only [identifyPort, resolvePort] at named
      split_ifs at named with explicit found
      · cases named
        exact explicit
      · cases named
        exact found
      · cases named
  obtain ⟨s₁, opened, quiet, here₁, -⟩ := openTransport_speaker openable
    (show Speaker.modem (Port.fresh d).device = _ from here) trivial
  obtain ⟨s₂, t, rdata, heard, connected, tuned⟩ := greeting_obeyed ⟨quiet, here₁, trivial⟩ idle
  have greets : greet s₁ = .ok version.val t := by
    have start : greet s₁ = (autobaud 200 >>= fun version => connect >>= fun _ => pure version)
        { s₁ with checksum := .crc } := rfl
    rw [start, bind_ok heard]
    exact bind_ok (bind_ok connected)
  have run : identify transport port comports (Port.fresh d) =
      .ok (strip (latin1 version.val)) { t with log := t.log ++ [.closed] } := by
    rw [identify, named]
    change (connectBootrom transport name >>= fun version =>
      closing (pure (strip (latin1 version))))
      (Port.fresh d) = _
    rw [connectBootrom_greet, Script.bind_assoc, bind_ok opened, bind_ok greets]
    rfl
  refine ⟨_, run, fun path => ?_, tuned.ready.here⟩
  rw [Command.run, Command.fn, cmdIdentify, bind_ok run]
  rfl

def banner : Bytes := [0x20, 0x53, 0x50, 0x52, 0x44, 0x33, 0x0D, 0x0A]

theorem banner_short : banner.length < 65536 := by decide

open Modem in
def booting : Modem := ⟨.bsl, Core.blank, [], ⟨banner, banner_short⟩⟩

def found : ComPort := ⟨"COM7", some downloadVid, some downloadPid⟩

theorem greeting_identified : ∃ t,
    identify .serial none [found] (Port.fresh booting) = .ok ['S', 'P', 'R', 'D', '3'] t ∧
      Command.run (PacImage.package 2) [found] (.identify .serial none) (Port.fresh booting) =
        .ok 0 t ∧
      t.device = booting := by
  obtain ⟨t, text, run, same⟩ := identify_reads (d := booting) rfl rfl
    (show identifyPort .serial none [found] = .ok (some "COM7") from rfl)
  exact ⟨t, text, run _, same⟩

end Identify

section Gate

variable {σ : Type} [Device σ]

theorem run_info (path : PacFile) (comports : List ComPort) (noVerify : Bool) (s : Port σ) :
    (∃ info, parsePac path (!noVerify) = .ok info ∧ info.crcOk = true) ∧
        Command.run path comports (.info noVerify) s = .ok 0 s ∨
      (¬ ∃ info, parsePac path (!noVerify) = .ok info ∧ info.crcOk = true) ∧
        Command.run path comports (.info noVerify) s = .ok 2 s := by
  rw [Command.run, Command.fn, cmdInfo]
  cases parsed : parsePac path (!noVerify) with
  | error e =>
    obtain ⟨msg, rfl⟩ := parsePac_error parsed
    exact .inr ⟨by simp, rfl⟩
  | ok info =>
    have code : (raising (.ok info) >>= fun info =>
      (pure (if info.crcOk then 0 else 2) : Session σ ℕ)) s =
        .ok (if info.crcOk then 0 else 2) s := rfl
    rw [code]
    cases good : info.crcOk with
    | true => exact .inl ⟨⟨info, rfl, good⟩, rfl⟩
    | false => exact .inr ⟨by simp [good], rfl⟩

/-- `info` exits with 0 or 2 and is right about `flash`: what it rejects is not flashed
without `--force`, and with no option does a package reach the port that the check of
everything does not pass. -/
theorem info_gates_flash (path : PacFile) (args : FlashArgs) (comports : List ComPort)
    (s : Port σ) :
    (Command.run path comports (.info args.noVerify) s = .ok 0 s ∨
      Command.run path comports (.info args.noVerify) s = .ok 2 s ∧
        (args.force = false → Command.run path comports (.flash args) s = .ok 2 s)) ∧
    (final (Command.run path comports (.flash args) s) ≠ s →
      Command.run path comports (.info false) s = .ok 0 s ∧
        ∃ info, Accepted path info ∧ fdl1Of info ≠ none) := by
  constructor
  · rcases run_info path comports args.noVerify s with ⟨-, run⟩ | ⟨passes, run⟩
    · exact .inl run
    · refine .inr ⟨run, fun noForce => ?_⟩
      rw [Command.run, Command.fn]
      cases parsed : parsePac path (!args.noVerify) with
      | error e =>
        obtain ⟨msg, rfl⟩ := parsePac_error parsed
        rw [cmdFlash, parsed]
        rfl
      | ok info =>
        have bad : info.crcOk = false := by simpa [parsed] using passes
        rw [cmdFlash_parsed args parsed, if_pos ⟨bad, noForce⟩]
  · intro touched
    by_contra none
    have missing : ∀ info fdl1, Accepted path info → fdl1Of info ≠ some fdl1 := by
      intro info fdl1 accepted found
      refine none ⟨?_, info, accepted, by simp [found]⟩
      rcases run_info path comports false s with ⟨-, run⟩ | ⟨rejected, -⟩
      · exact run
      · exact absurd ⟨info, accepted.parsed, accepted.crcOk⟩ rejected
    refine touched ?_
    rw [final_run, Command.fn]
    rcases flash_cases path args comports s with ⟨same, -⟩ | ⟨port, -, same, -⟩
    · exact same
    · obtain ⟨e, run⟩ := nativeFlash_refused missing (nativeOptions args port) s
      rw [same, run]
      rfl

end Gate

end SprdFlash.Cli
