import SprdFlash.Native

/-!
The command line around `native_flash`: the gate of `_cmd_flash`, the port, and the two
handlers that turn exceptions into exit codes. What is printed is left out; the package
file is there, so no `FileNotFoundError` arises.
-/

namespace SprdFlash.Cli

open Message Port Pac Native Script

def downloadVid : ℕ := 0x0525
def downloadPid : ℕ := 0xA4A7

structure ComPort where
  device : String
  vid : Option ℕ
  pid : Option ℕ
  deriving DecidableEq, Repr

def findDownloadPort (comports : List ComPort) : Option String :=
  (comports.find? fun pinfo =>
    pinfo.vid = some downloadVid && pinfo.pid = some downloadPid).map ComPort.device

def resolvePort (explicit : Option String) (comports : List ComPort) : Except Exc String :=
  if explicit.getD "" ≠ "" then .ok (explicit.getD "")
  else if (findDownloadPort comports).getD "" ≠ "" then .ok ((findDownloadPort comports).getD "")
  else .error (.timeoutError ("no BootROM download port (0525:a4a7) found. " ++
    "Put the module in download mode (hold boot key while powering on, or " ++
    "send AT*DOWNLOAD=1), or pass --port."))

structure FlashArgs where
  port : Option String
  noVerify : Bool
  force : Bool
  format : Bool
  noReset : Bool
  deriving DecidableEq, Repr

/-- `['flash', pac, '--port', p]`. -/
def portArgs (port : String) : FlashArgs := ⟨some port, false, false, false, false⟩

/-- What `_cmd_flash` hands on to `native_flash`. -/
def nativeOptions (args : FlashArgs) (com : String) : NativeOptions :=
  ⟨com, 0, args.format, !args.noReset⟩

variable {σ : Type} [Device σ]

def cmdFlash (path : PacFile) (args : FlashArgs) (comports : List ComPort) : Session σ ℕ := do
  let info ← raising (parsePac path (!args.noVerify))
  if info.crcOk = false ∧ args.force = false then return 2
  else do
    let port ← raising (resolvePort args.port comports)
    fun s => match nativeFlash path (nativeOptions args port) s with
      | .ok () t => .ok 0 t
      | .error (.pdlError _) t => .ok 4 t
      | .error e t => .error e t

theorem cmdFlash_parsed {path : PacFile} (args : FlashArgs) {info : PacInfo}
    (parsed : parsePac path (!args.noVerify) = .ok info) (comports : List ComPort) (s : Port σ) :
    cmdFlash path args comports s =
      if info.crcOk = false ∧ args.force = false then .ok 2 s
      else match resolvePort args.port comports with
        | .error e => .error e s
        | .ok port => match nativeFlash path (nativeOptions args port) s with
          | .ok () t => .ok 0 t
          | .error (.pdlError _) t => .ok 4 t
          | .error e t => .error e t := by
  have read : raising (parsePac path (!args.noVerify)) s = .ok info s := by
    rw [parsed]
    rfl
  rw [cmdFlash, bind_ok read]
  split_ifs with refused
  · rfl
  · cases resolvePort args.port comports <;> rfl

/-- The handlers of `main`; what none of them names leaves it. -/
def exitCode : Exc → Option ℕ
  | .usbUnavailable _ => some 5
  | .valueError _ => some 2
  | .timeoutError _ => some 3
  -- RuntimeError
  | .protocolError _ => some 4
  | .pdlError _ => some 4
  | .flashError _ => some 4
  | .structError _ => none
  | .indexError _ => none
  | .keyError _ => none
  | .osError _ => none

def main (path : PacFile) (args : FlashArgs) (comports : List ComPort) : Session σ ℕ := fun s =>
  match cmdFlash path args comports s with
  | .ok code t => .ok code t
  | .error e t => match exitCode e with
    | some code => .ok code t
    | none => .error e t

end SprdFlash.Cli
