import SprdFlash.Flasher
import SprdFlash.Pdl
import SprdFlash.Library.LastWins

/-!
The native flow: PDL loads and starts FDL1, BSL loads FDL2 and writes the
partitions, and with `format_fs` the erase markers and the data-bearing markers
follow. The images are read before the port is opened and kept in dictionaries
keyed by file id. Progress callbacks, log lines and sleeps are left out.
-/

namespace SprdFlash.Native

open Message Port Pac SpdIO Flasher Struct

def bslChunk : ℕ+ := defaultChunk

def eraseParams : List (List Char × Bytes) :=
  [(['F', 'M', 'T', '_', 'F', 'S', 'S', 'Y', 'S'], [0x53, 0x59, 0x53, 0x46]),
   (['F', 'L', 'A', 'S', 'H'], [0, 0, 0, 0])]

def nvId : List Char := ['N', 'V']

def sum32 (data : Bytes) : ℕ := (data.map UInt8.toNat).sum &&& 0xFFFFFFFF

/-- CRC-16-ARC, bit by bit. -/
def nvCrc16 (data : Bytes) : ℕ :=
  (data.foldl (fun crc x =>
    (fun crc => if crc &&& 1 ≠ 0 then (crc >>> 1) ^^^ 0xA001 else crc >>> 1)^[8]
      (crc ^^^ x.toNat)) 0) &&& 0xFFFF

/-- Patch the leading big-endian CRC slot of an NV image; an image without room
for it fails on the assignment. -/
def nvFixCrc : Bytes → Except Exc Bytes
  | _ :: _ :: rest =>
    let crc := nvCrc16 rest
    .ok (UInt8.ofNat ((crc >>> 8) &&& 0xFF) :: UInt8.ofNat (crc &&& 0xFF) :: rest)
  | _ => .error (.indexError "bytearray index out of range")

def eraseParam (fileId : List Char) : Option Bytes :=
  eraseParams.lookup (upper fileId) <|> eraseParams.lookup fileId

def eraseOpsFrom (seen : List ℕ) : List PacEntry → List (List Char × ℕ × Bytes)
  | [] => []
  | e :: rest =>
    if classify e ≠ .marker ∨ e.size ≠ 0 ∨ e.address < 0xFE000000 then eraseOpsFrom seen rest
    else match eraseParam e.fileId with
      | none => eraseOpsFrom seen rest
      | some param =>
        if e.address ∈ seen then eraseOpsFrom seen rest
        else (e.fileId, e.address, param) :: eraseOpsFrom (e.address :: seen) rest

def eraseOps (info : PacInfo) : List (List Char × ℕ × Bytes) := eraseOpsFrom [] info.entries

def dataMarkers (info : PacInfo) : List PacEntry :=
  info.entries.filter fun e => classify e = .marker && e.size ≠ 0 && 0xFE000000 ≤ e.address

def readEntry (content : Bytes) (entry : PacEntry) : Bytes :=
  readAt content entry.offset entry.size

def imageDict (content : Bytes) (entries : List PacEntry) : List Char → Option Bytes :=
  LastWins.comprehension PacEntry.fileId (readEntry content) entries

def lookup (dict : List Char → Option Bytes) (fileId : List Char) : Except Exc Bytes :=
  match dict fileId with
  | some data => .ok data
  | none => .error (.keyError (String.ofList fileId))

variable {σ : Type} [Device σ]

def openSerial (com : String) : (attempts : ℕ) → Session σ Unit
  | 0 => throw (.pdlError s!"could not open {com}")
  | attempts + 1 => fun s =>
    match attach (.osError "could not open port") s with
    | .ok () t => .ok () t
    | .error _ t => openSerial com attempts t

/-- `reset_input_buffer`; if it raises, what is pending stays. -/
def resetInputBuffer : Session σ Unit := fun s =>
  .ok () { s with pending := if Device.discards s.device then [] else s.pending }

/-- A command whose `ProtocolError` is only logged. -/
def tolerating (body : Session σ Unit) : Session σ Unit := fun s =>
  match body s with
  | .ok () t => .ok () t
  | .error (.protocolError _) t => .ok () t
  | .error e t => .error e t

def offsets (total step : ℕ) : List ℕ :=
  (List.range ((total + step - 1) / step)).map (· * step)

/-- Write the NV region from the package's template. -/
def writeNv (addr : ℕ) (template : Bytes) : Session σ Unit := do
  let data ← raising (nvFixCrc template)
  let start ← raising (pack .big 4 [addr, data.length, sum32 data])
  let _ ← command bslCmdStartData start bslRepAck "NV START"
  (offsets data.length bslChunk).forM fun off => do
    let _ ← command bslCmdMidstData ((data.drop off).take bslChunk) bslRepAck "NV MIDST"
  tolerating do
    let _ ← command bslCmdEndData [] bslRepAck "NV END"

def handOver : Session σ Unit := do
  let ver ← Pdl.execAndGetVer 5000
  -- strip(b'\x7e')
  let stripped := ((ver.dropWhile (· = hdlcFlag)).reverse.dropWhile (· = hdlcFlag)).reverse
  let (_, vdata) ← raising (parseMessage (hdlcUnescape stripped))
  note (.version vdata)

/-- Phase 1: PDL loads and starts FDL1; the VER frame ends it. -/
def loadFdl1 (fdl1 : PacEntry) (fdl1Data : Bytes) (endChecksum : UInt32) : Session σ Unit := do
  Pdl.connect
  Pdl.sendImage fdl1.address fdl1Data [0x50, 0x44, 0x4C, 0x31, 0x00] (some endChecksum.toNat)
  handOver

def loadFdl2 (fdl2 : Option PacEntry) (fdl2Data : Bytes) : Session σ Unit := do
  setChecksum .sprd
  connect
  match fdl2 with
  | none => pure ()
  | some fdl2 =>
    sendStage fdl2.address fdl2Data bslChunk
    let _ ← command bslCmdExecData [] bslRepAck "EXEC FDL2"
    connect

def writePartitions (partitions : List PacEntry) (partData : List Char → Option Bytes) :
    Session σ Unit :=
  partitions.forM fun e => do
    let data ← raising (lookup partData e.fileId)
    sendStage e.address data bslChunk

def erase (op : List Char × ℕ × Bytes) : Session σ Unit := do
  let (fid, addr, param) := op
  let target ← raising (pack .big 4 [addr])
  let name := String.ofList fid
  let _ ← command bslCmdEraseFlash (target ++ param) bslRepAck s!"ERASE {name}"

def writeMarker (markerData : List Char → Option Bytes) (e : PacEntry) : Session σ Unit := do
  let data ← raising (lookup markerData e.fileId)
  if upper e.fileId = nvId then writeNv e.address data
  else sendStage e.address data bslChunk

/-- `fdl1_end_checksum` is the four-byte word of the PDL END, which no caller
sets. -/
structure NativeOptions where
  com : String
  fdl1EndChecksum : UInt32
  formatFs : Bool
  doReset : Bool

/-- Phase 2: BSL loads FDL2, writes every partition and the markers, resets. -/
def bslPhase (info : PacInfo) (content : Bytes) (formatFs doReset : Bool) : Session σ Unit := do
  let fdl2 := info.entries.find? fun e => classify e = .fdl2
  let fdl2Data := (fdl2.map (readEntry content)).getD []
  let partitions := flashableEntries info
  let markers := dataMarkers info
  loadFdl2 fdl2 fdl2Data
  writePartitions partitions (imageDict content partitions)
  if formatFs then do
    (eraseOps info).forM erase
    markers.forM (writeMarker (imageDict content markers))
  else pure ()
  if doReset then send bslCmdNormalReset [] else pure ()

/-- Flash a package to the module on a serial port, entirely natively. -/
def nativeFlash (path : PacFile) (options : NativeOptions) : Session σ Unit := do
  let info ← raising (parsePac path true)
  if info.crcOk = false then throw (.pdlError "PAC checksum mismatch - refusing to flash")
  else match info.entries.find? fun e => classify e = .fdl1 with
    | none => throw (.pdlError "no FDL1 (HOST_FDL) stage in the PAC")
    | some fdl1 => do
      let fdl1Data := readEntry path.content fdl1
      openSerial options.com 200
      resetInputBuffer
      closing do
        loadFdl1 fdl1 fdl1Data options.fdl1EndChecksum
        bslPhase info path.content options.formatFs options.doReset

end SprdFlash.Native
