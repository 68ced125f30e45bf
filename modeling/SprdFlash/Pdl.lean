import SprdFlash.SpdIO

/-!
The PDL link layer that loads and starts the first-stage loader. Header and
payload of a message are separate writes. The status of a response is read and
handed on, and the commands ignore it. `exec_and_get_ver` repeats a lone flag
every 50 ms until the deadline, which bounds the number of flags it can send.
-/

namespace SprdFlash.Pdl

open Message Port Struct

def pdlMagic : UInt8 := 0xAE

inductive Command
  | connect
  | startData
  | midstData
  | endData
  | exec
  deriving DecidableEq, Repr

def Command.code : Command → ℕ
  | .connect => 0
  | .startData => 4
  | .midstData => 5
  | .endData => 6
  | .exec => 7

def pdlChunk : ℕ := 2048

def build (payload : Bytes) : Except Exc (Bytes × Bytes) := do
  let length ← pack .little 2 [payload.length]
  return ([pdlMagic] ++ length ++ [0x00, 0x00, 0xFF, 0x00, 0x00], payload)

def params (cmd : Command) (arg1 arg2 : ℕ) (extra : Bytes) : Except Exc Bytes := do
  let words ← pack .little 4 [cmd.code, arg1, arg2]
  return words ++ extra

/-- The loop of `recv`, from the buffer it has collected. -/
def recvLoop (buf : Bytes) : List Event → Except Exc (ℕ × Bytes) × List Event
  | [] => (.error (.pdlError "no PDL response (timeout)"), [])
  | .expired :: rest => (.error (.pdlError "no PDL response (timeout)"), rest)
  | .fault :: rest => (.error (.osError "read failed"), rest)
  | .late :: rest => recvLoop buf rest
  | .idle :: rest => recvLoop buf rest
  | .byte b :: rest =>
    match readUpTo 64 (.byte b :: rest), readUpTo_byte_length 63 b rest with
    | (none, unread), _ => (.error (.osError "read failed"), unread)
    | (some bytes, unread), _ =>
      -- resync to magic
      let buf := (buf ++ bytes).dropWhile (· ≠ pdlMagic)
      let rlen := unpack .little ((buf.drop 1).take 2)
      if 8 ≤ buf.length ∧ 8 + rlen ≤ buf.length then
        let payload := (buf.drop 8).take rlen
        let status := if 4 ≤ payload.length then unpack .little (payload.take 4) else 0
        (.ok (status, payload), unread)
      else recvLoop buf unread
termination_by events => events.length
decreasing_by all_goals simp only [List.length_cons] at *; omega

/-- `zlib.crc32`, the hypothesis for the END checksum when none is given. -/
def pdlImageCrc (data : Bytes) : ℕ :=
  let shift := fun crc => if crc &&& 1 ≠ 0 then (crc >>> 1) ^^^ 0xEDB88320 else crc >>> 1
  data.foldl (fun crc b => shift^[8] (crc ^^^ b.toNat)) 0xFFFFFFFF ^^^ 0xFFFFFFFF

def blocks (data : Bytes) : List (ℕ × Bytes) :=
  (List.range ((data.length + pdlChunk - 1) / pdlChunk)).map fun i =>
    (i, (data.drop (i * pdlChunk)).take pdlChunk)

/-- What `exec_and_get_ver` takes for the VER frame: everything from the first
flag to the next one. -/
def verFrame (buf : Bytes) : Option Bytes :=
  match buf.dropWhile (· ≠ hdlcFlag) with
  | [] => none
  | flag :: rest =>
    if hdlcFlag ∈ rest then some (flag :: rest.takeWhile (· ≠ hdlcFlag) ++ [hdlcFlag]) else none

/-- Read until a frame is complete (`inl`) or the next flag is due (`inr`, with
the buffer so far). -/
def listen (buf : Bytes) : List Event → Except Exc (Bytes ⊕ Bytes) × List Event
  | [] => (.error (.pdlError "no BSL VER after EXEC"), [])
  | .expired :: rest => (.error (.pdlError "no BSL VER after EXEC"), rest)
  | .fault :: rest => (.error (.osError "read failed"), rest)
  | .late :: rest => (.ok (.inr buf), rest)
  | .idle :: rest => listen buf rest
  | .byte b :: rest =>
    match readUpTo 64 (.byte b :: rest), readUpTo_byte_length 63 b rest with
    | (none, unread), _ => (.error (.osError "read failed"), unread)
    | (some bytes, unread), _ =>
      match verFrame (buf ++ bytes) with
      | some ver => (.ok (.inl ver), unread)
      | none => listen (buf ++ bytes) unread
termination_by events => events.length
decreasing_by all_goals simp only [List.length_cons] at *; omega

variable {σ : Type}

def recv : Session σ (ℕ × Bytes) := fun s =>
  match recvLoop [] s.pending with
  | (.ok (status, payload), rest) =>
    .ok (status, payload) { s with pending := rest, log := s.log ++ [.response payload] }
  | (.error e, rest) => .error e { s with pending := rest }

def hear (buf : Bytes) : Session σ (Bytes ⊕ Bytes) := fun s =>
  match listen buf s.pending with
  | (.ok heard, rest) => .ok heard { s with pending := rest }
  | (.error e, rest) => .error e { s with pending := rest }

theorem recv_of_ok {s : Port σ} {status : ℕ} {payload : Bytes} {unread : List Event}
    (read : recvLoop [] s.pending = (.ok (status, payload), unread)) :
    recv s = .ok (status, payload) ⟨s.device, unread, s.log ++ [.response payload],
      s.checksum⟩ := by
  rw [recv, read]

theorem recv_of_error {s : Port σ} {e : Exc} {unread : List Event}
    (read : recvLoop [] s.pending = (.error e, unread)) :
    recv s = .error e ⟨s.device, unread, s.log, s.checksum⟩ := by
  rw [recv, read]

theorem hear_of_ok {buf : Bytes} {s : Port σ} {heard : Bytes ⊕ Bytes} {unread : List Event}
    (read : listen buf s.pending = (.ok heard, unread)) :
    hear buf s = .ok heard ⟨s.device, unread, s.log, s.checksum⟩ := by
  rw [hear, read]

theorem hear_of_error {buf : Bytes} {s : Port σ} {e : Exc} {unread : List Event}
    (read : listen buf s.pending = (.error e, unread)) :
    hear buf s = .error e ⟨s.device, unread, s.log, s.checksum⟩ := by
  rw [hear, read]

variable [Device σ]

def send (payload : Bytes) : Session σ Unit := do
  let (header, body) ← raising (build payload)
  write header
  write body

/-- A status other than 0 is logged for debugging and otherwise ignored. -/
def command (payload : Bytes) : Session σ Bytes := do
  send payload
  let (_, extra) ← recv
  return extra

def request (cmd : Command) (arg1 arg2 : ℕ) (extra : Bytes) : Session σ Unit := do
  let payload ← raising (params cmd arg1 arg2 extra)
  let _ ← command payload

def connect : Session σ Unit := request .connect 0 0 []

def sendImage (addr : ℕ) (data name : Bytes) (checksum : Option ℕ) : Session σ Unit := do
  request .startData addr data.length name
  (blocks data).forM fun (i, chunk) => request .midstData i chunk.length chunk
  let crc := checksum.getD (pdlImageCrc data)
  let trailer ← raising (pack .little 4 [crc])
  request .endData 0 0 trailer

/-- The loop after EXEC, with the number of flags that fit before the deadline. -/
def kickLoop : (kicks : ℕ) → Bytes → Session σ Bytes
  | 0, _ => throw (.pdlError "no BSL VER after EXEC")
  | kicks + 1, buf => do
    write [hdlcFlag]
    match ← hear buf with
    | .inl ver => return ver
    | .inr buf => kickLoop kicks buf

def execAndGetVer (timeoutMs : ℕ) : Session σ Bytes := do
  let payload ← raising (params .exec 0 0 [])
  send payload
  kickLoop (timeoutMs / 50) []

end SprdFlash.Pdl
