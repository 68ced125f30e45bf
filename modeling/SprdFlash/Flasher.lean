import Mathlib.Data.PNat.Basic
import SprdFlash.Pac
import SprdFlash.SpdIO

/-!
The flash flow over BSL alone: connect to the BootROM, load the two loader
stages, write the partitions, reset. `send_stage` and `classify` are shared
with the native flow. Progress callbacks and log lines are left out.
-/

namespace SprdFlash

open Message

namespace Flasher

open Pac

def defaultChunk : ℕ+ := 528

/-- PAC addresses from here on are logical markers, not load addresses. -/
def logicalAddressBase : ℕ := 0xFE000000

/-- The characters whose upper case holds an ASCII letter; every other
character is its own stand-in, since upper-cased names are only compared with
ASCII ones. -/
def upperChar (c : Char) : List Char :=
  if 'a' ≤ c ∧ c ≤ 'z' then [Char.ofNat (c.toNat - 32)]
  else match c.toNat with
    | 0xDF => ['S', 'S']
    | 0x131 => ['I']
    | 0x149 => [Char.ofNat 0x2BC, 'N']
    | 0x17F => ['S']
    | 0x1F0 => ['J', Char.ofNat 0x30C]
    | 0x1E96 => ['H', Char.ofNat 0x331]
    | 0x1E97 => ['T', Char.ofNat 0x308]
    | 0x1E98 => ['W', Char.ofNat 0x30A]
    | 0x1E99 => ['Y', Char.ofNat 0x30A]
    | 0x1E9A => ['A', Char.ofNat 0x2BE]
    | 0xFB00 => ['F', 'F']
    | 0xFB01 => ['F', 'I']
    | 0xFB02 => ['F', 'L']
    | 0xFB03 => ['F', 'F', 'I']
    | 0xFB04 => ['F', 'F', 'L']
    | 0xFB05 => ['S', 'T']
    | 0xFB06 => ['S', 'T']
    | _ => [c]

def upper (name : List Char) : List Char := name.flatMap upperChar

def fdl1Ids : List (List Char) :=
  [['H', 'O', 'S', 'T', '_', 'F', 'D', 'L'], ['F', 'D', 'L'], ['F', 'D', 'L', '1']]

def fdl2Ids : List (List Char) := [['F', 'D', 'L', '2']]

inductive Role
  | fdl1
  | fdl2
  | marker
  | flash
  deriving DecidableEq, Repr

/-- Markers win first, then FDL2 before FDL1 so that FDL2 is not swallowed by
the FDL that spots FDL1. -/
def classify (entry : PacEntry) : Role :=
  let fid := upper entry.fileId
  if entry.size = 0 ∨ entry.address = 0 ∨ logicalAddressBase ≤ entry.address then .marker
  else if fdl2Ids.any fun x => fid == x || x.isPrefixOf fid then .fdl2
  else if fdl1Ids.any fun x => fid == x || x.isPrefixOf fid then .fdl1
  else .flash

theorem classify_ne_marker {entry : PacEntry} (h : classify entry ≠ .marker) :
    entry.size ≠ 0 ∧ entry.address ≠ 0 ∧ entry.address < logicalAddressBase := by
  by_contra other
  apply h
  rw [classify, if_pos (by omega)]

def readEntry (content : Bytes) (entry : PacEntry) : Except Exc Bytes :=
  let data := readAt content entry.offset entry.size
  let got := data.length
  if got ≠ entry.size then
    let fileId := String.ofList entry.fileId
    let size := entry.size
    .error (.flashError s!"{fileId}: short read ({got}/{size} bytes)")
  else .ok data

structure Stage where
  entry : PacEntry
  data : Bytes

def findStage (info : PacInfo) (content : Bytes) (role : Role) : Except Exc (Option Stage) :=
  match info.entries.find? fun e => e.size ≠ 0 && classify e = role with
  | none => .ok none
  | some entry => do
    let data ← readEntry content entry
    return some ⟨entry, data⟩

def flashableEntries (info : PacInfo) : List PacEntry :=
  info.entries.filter fun e => classify e = .flash

inductive Transport
  | usb
  | serial
  deriving DecidableEq, Repr

end Flasher

namespace SerialLike

open Flasher Pac Struct

variable {ε s : Type} (io : SerialLike ε s)

/-- The MIDST_DATA loop of `send_stage`, from the number of bytes sent. It makes
progress for a positive chunk, and every caller passes 528. -/
def sendLoop (data : Bytes) (chunk : ℕ+) (sent : ℕ) : EStateM ε s Unit :=
  if sent < data.length then do
    let piece := (data.drop sent).take chunk
    let _ ← io.command bslCmdMidstData piece bslRepAck "MIDST_DATA"
    sendLoop data chunk (sent + piece.length)
  else pure ()
termination_by data.length - sent
decreasing_by
  have := chunk.pos
  simp only [List.length_take, List.length_drop]
  omega

theorem sendLoop_def (data : Bytes) (chunk : ℕ+) (sent : ℕ) : io.sendLoop data chunk sent =
    if sent < data.length then
      io.command bslCmdMidstData ((data.drop sent).take chunk) bslRepAck "MIDST_DATA" >>= fun _ =>
        io.sendLoop data chunk (sent + ((data.drop sent).take chunk).length)
    else pure () := by
  rw [sendLoop]

def sendStage (addr : ℕ) (data : Bytes) (chunk : ℕ+) : EStateM ε s Unit := do
  let start ← io.raising (pack .big 4 [addr, data.length])
  let _ ← io.command bslCmdStartData start bslRepAck "START_DATA"
  io.sendLoop data chunk 0
  let _ ← io.command bslCmdEndData [] bslRepAck "END_DATA"

/-- `connect_bootrom` behind `_open_transport`. -/
def greet : EStateM ε s Bytes := do
  io.setChecksum .crc
  let version ← io.autobaud 200
  io.connect
  return version

/-- Send FDL1, exec it, re-handshake in sum-checksum mode, send FDL2, exec it. -/
def loadFdls (info : PacInfo) (content : Bytes) (chunk : ℕ+) : EStateM ε s Unit := do
  let fdl1 ← io.raising (findStage info content .fdl1)
  let fdl2 ← io.raising (findStage info content .fdl2)
  match fdl1 with
  | none => throw (io.raised (.flashError "no FDL1 (HOST_FDL) stage found in the PAC file"))
  | some fdl1 =>
    io.sendStage fdl1.entry.address fdl1.data chunk
    let _ ← io.command bslCmdExecData [] bslRepAck "EXEC FDL1"
    io.setChecksum .sprd
    let _ ← io.autobaud 10
    io.connect
    match fdl2 with
    | none => pure ()
    | some fdl2 =>
      io.sendStage fdl2.entry.address fdl2.data chunk
      let _ ← io.command bslCmdExecData [] bslRepAck "EXEC FDL2"

/-- The body of the `try` in `flash_pac`. -/
def writeAll (info : PacInfo) (content : Bytes) (chunk : ℕ+) (doReset : Bool) :
    EStateM ε s Unit := do
  io.loadFdls info content chunk
  (flashableEntries info).forM fun e => do
    let data ← io.raising (readEntry content e)
    io.sendStage e.address data chunk
  if doReset then io.send bslCmdNormalReset [] else pure ()

end SerialLike

namespace Flasher

open Port Pac SpdIO Struct

variable {σ : Type} [Device σ]

def sendLoop (data : Bytes) (chunk : ℕ+) (sent : ℕ) : Session σ Unit :=
  serial.sendLoop data chunk sent

theorem sendLoop_def (data : Bytes) (chunk : ℕ+) (sent : ℕ) :
    sendLoop (σ := σ) data chunk sent =
      if sent < data.length then
        command bslCmdMidstData ((data.drop sent).take chunk) bslRepAck "MIDST_DATA" >>= fun _ =>
          sendLoop data chunk (sent + ((data.drop sent).take chunk).length)
      else pure () :=
  serial.sendLoop_def data chunk sent

def sendStage (addr : ℕ) (data : Bytes) (chunk : ℕ+) : Session σ Unit :=
  serial.sendStage addr data chunk

theorem sendStage_def (addr : ℕ) (data : Bytes) (chunk : ℕ+) :
    sendStage (σ := σ) addr data chunk = raising (pack .big 4 [addr, data.length]) >>= fun start =>
      command bslCmdStartData start bslRepAck "START_DATA" >>= fun _ =>
        sendLoop data chunk 0 >>= fun _ =>
          command bslCmdEndData [] bslRepAck "END_DATA" >>= fun _ => pure () := rfl

def attach (refused : Exc) : Session σ Unit := fun s =>
  match Device.attach s.device with
  | (device, some events) =>
    .ok () { s with device, pending := events, log := s.log ++ [.opened] }
  | (device, none) => .error refused { s with device }

def openTransport (transport : Transport) (device : Option String) : Session σ Unit :=
  match transport with
  | .usb => attach (.usbUnavailable "could not open the BootROM USB device")
  | .serial =>
    if device.getD "" = "" then throw (.flashError "serial transport requires --port COMx")
    else attach (.osError "could not open port")

def greet : Session σ Bytes := serial.greet

theorem greet_def : greet (σ := σ) = setChecksum .crc >>= fun _ => autobaud 200 >>= fun version =>
    connect >>= fun _ => pure version := rfl

def connectBootrom (transport : Transport) (device : Option String) : Session σ Bytes := do
  openTransport transport device
  greet

def loadFdls (info : PacInfo) (content : Bytes) (chunk : ℕ+) : Session σ Unit :=
  serial.loadFdls info content chunk

def writeAll (info : PacInfo) (content : Bytes) (chunk : ℕ+) (doReset : Bool) : Session σ Unit :=
  serial.writeAll info content chunk doReset

theorem writeAll_def (info : PacInfo) (content : Bytes) (chunk : ℕ+) (doReset : Bool) :
    writeAll (σ := σ) info content chunk doReset = loadFdls info content chunk >>= fun _ =>
      ((flashableEntries info).forM fun e =>
        raising (readEntry content e) >>= fun data => sendStage e.address data chunk) >>= fun _ =>
      if doReset then send bslCmdNormalReset [] else pure () := rfl

structure FlashOptions where
  transport : Transport
  device : Option String
  chunk : ℕ+
  doReset : Bool

def flashPac (path : PacFile) (options : FlashOptions) : Session σ Unit := do
  let info ← raising (parsePac path true)
  if info.crcOk = false then throw (.flashError "PAC checksum mismatch - refusing to flash")
  else do
    let _ ← connectBootrom options.transport options.device
    closing (writeAll info path.content options.chunk options.doReset)

end Flasher
end SprdFlash
