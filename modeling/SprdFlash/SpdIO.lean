import SprdFlash.Port

/-!
`SpdIO`: the framed BSL transport, over any port that reads frames and writes
messages; on the serial one the two loops of `_read_frame` are two recursions
over the queue of events. `autobaud` is a recursion over its attempts.
Everything that can raise raises here too, in the order of the source.
-/

namespace SprdFlash

open Message

/-- A port that frames are read from. What is raised on it may be more than the
exceptions of the program. -/
structure FrameSource (ε s : Type) where
  raised : Exc → ε
  readFrame : EStateM ε s Bytes

/-- A serial-port-like object and the `SpdIO` on it, with what its `autobaud`
catches and what it notes of a version. -/
structure SerialLike (ε s : Type) extends FrameSource ε s where
  write : Bytes → EStateM ε s Unit
  checksum : s → Checksum
  setChecksum : Checksum → EStateM ε s Unit
  isTimeoutOrValue : ε → Bool
  note : Bytes → EStateM ε s Unit

/-- An expression of the source, with what it raises put into the exceptions on a port. -/
def raisingAs {ε s α : Type} (raised : Exc → ε) (x : Except Exc α) : EStateM ε s α := fun t =>
  match x with
  | .ok a => .ok a t
  | .error e => .error (raised e) t

namespace FrameSource

variable {ε s : Type} (io : FrameSource ε s)

def raising {α : Type} (x : Except Exc α) : EStateM ε s α := raisingAs io.raised x

def recv : EStateM ε s (ℕ × Bytes) := do
  let body ← io.readFrame
  io.raising (parseMessage body)

end FrameSource

namespace SerialLike

variable {ε s : Type} (io : SerialLike ε s)

def send (cmd : ℕ) (data : Bytes) : EStateM ε s Unit := do
  let t ← get
  let msg ← io.raising (buildMessage cmd data (io.checksum t))
  io.write msg

def command (cmd : ℕ) (data : Bytes) (expect : ℕ) (what : String) : EStateM ε s Bytes := do
  io.send cmd data
  let (rtype, rdata) ← io.recv
  if rtype ≠ expect then
    let wanted := repName expect
    let got := repName rtype
    throw (io.raised (.protocolError s!"{what}: expected {wanted}, got {got}"))
  return rdata

def connect : EStateM ε s Unit := do
  let _ ← io.command bslCmdConnect [] bslRepAck "CONNECT"

/-- `_read_frame` in the `try` of `autobaud`. -/
def tryFrame : EStateM ε s (Option Bytes) := fun t =>
  match io.readFrame t with
  | .ok raw t => .ok (some raw) t
  | .error e t => if io.isTimeoutOrValue e then .ok none t else .error e t

section

variable {t u : s}

theorem tryFrame_ok {raw : Bytes} (read : io.readFrame t = .ok raw u) :
    io.tryFrame t = .ok (some raw) u := by
  rw [tryFrame, read]

theorem tryFrame_caught {e : ε} (read : io.readFrame t = .error e u)
    (caught : io.isTimeoutOrValue e = true) : io.tryFrame t = .ok none u := by
  simp only [tryFrame, read, if_pos caught]

theorem tryFrame_raised {e : ε} (read : io.readFrame t = .error e u)
    (other : io.isTimeoutOrValue e = false) : io.tryFrame t = .error e u := by
  simp [tryFrame, read, other]

end

/-- What an attempt makes of the frame it read, `again` being the next one. -/
def settle (again : EStateM ε s Bytes) : Option Bytes → EStateM ε s Bytes
  | none => again
  | some raw =>
    match parseMessage raw with
    | .error _ => again
    | .ok (cmd, data) =>
      if cmd = bslRepVer then do
        match detectChecksum raw with
        | some mode => io.setChecksum mode
        | none => pure ()
        io.note data
        return data
      else again

/-- `autobaud`, with the number of attempts it was first called with for its
message. -/
def autobaudFrom (total : ℕ) : ℕ → EStateM ε s Bytes
  | 0 => throw (io.raised (.protocolError s!"no VER response after {total} autobaud attempts"))
  | attempts + 1 => do
    io.write [hdlcFlag]
    let raw ← io.tryFrame
    io.settle (autobaudFrom total attempts) raw

theorem autobaudFrom_step (total attempts : ℕ) : io.autobaudFrom total (attempts + 1) =
    io.write [hdlcFlag] >>= fun _ => io.tryFrame >>=
      io.settle (io.autobaudFrom total attempts) := rfl

def autobaud (attempts : ℕ) : EStateM ε s Bytes := io.autobaudFrom attempts attempts

end SerialLike

namespace SpdIO

open Port

/-- The second loop of `_read_frame`: collect until the closing flag. -/
def readBody (body : Bytes) : List Event → Except Exc Bytes × List Event
  | [] => (.error (.timeoutError "no response frame (closing flag not seen)"), [])
  | .expired :: rest =>
    (.error (.timeoutError "no response frame (closing flag not seen)"), rest)
  | .fault :: rest => (.error (.osError "read failed"), rest)
  | .idle :: rest => readBody body rest
  | .late :: rest => readBody body rest
  | .byte b :: rest =>
    if b = hdlcFlag then
      -- back-to-back flags; treat this as the real opener
      if body = [] then readBody [] rest else (.ok (hdlcUnescape body), rest)
    else readBody (body ++ [b]) rest

def seekFlag : List Event → Except Exc Bytes × List Event
  | [] => (.error (.timeoutError "no response frame (opening flag not seen)"), [])
  | .expired :: rest =>
    (.error (.timeoutError "no response frame (opening flag not seen)"), rest)
  | .fault :: rest => (.error (.osError "read failed"), rest)
  | .idle :: rest => seekFlag rest
  | .late :: rest => seekFlag rest
  | .byte b :: rest => if b = hdlcFlag then readBody [] rest else seekFlag rest

variable {σ : Type}

def readFrame : Session σ Bytes := fun s =>
  match seekFlag s.pending with
  | (.ok body, rest) => .ok body { s with pending := rest, log := s.log ++ [.reply body] }
  | (.error e, rest) => .error e { s with pending := rest }

theorem readFrame_of_ok {s : Port σ} {body : Bytes} {unread : List Event}
    (found : seekFlag s.pending = (.ok body, unread)) :
    readFrame s = .ok body ⟨s.device, unread, s.log ++ [.reply body], s.checksum⟩ := by
  rw [readFrame, found]

theorem readFrame_of_error {s : Port σ} {e : Exc} {unread : List Event}
    (found : seekFlag s.pending = (.error e, unread)) :
    readFrame s = .error e ⟨s.device, unread, s.log, s.checksum⟩ := by
  rw [readFrame, found]

def isTimeoutOrValue : Exc → Bool
  | .timeoutError _ => true
  | .valueError _ => true
  | _ => false

abbrev source : FrameSource Exc (Port σ) := ⟨id, readFrame⟩

def recv : Session σ (ℕ × Bytes) := source.recv

theorem recv_def :
    recv (σ := σ) = (readFrame >>= fun body => raising (parseMessage body)) := rfl

variable [Device σ]

abbrev serial : SerialLike Exc (Port σ) where
  toFrameSource := source
  write := Port.write
  checksum := Port.checksum
  setChecksum := Port.setChecksum
  isTimeoutOrValue := isTimeoutOrValue
  note data := Port.note (.version data)

def send (cmd : ℕ) (data : Bytes) : Session σ Unit := serial.send cmd data

def command (cmd : ℕ) (data : Bytes) (expect : ℕ) (what : String) : Session σ Bytes :=
  serial.command cmd data expect what

theorem command_def (cmd : ℕ) (data : Bytes) (expect : ℕ) (what : String) :
    command (σ := σ) cmd data expect what = send cmd data >>= fun _ => recv >>= fun m =>
      if m.1 ≠ expect then
        let wanted := repName expect
        let got := repName m.1
        throw (.protocolError s!"{what}: expected {wanted}, got {got}")
      else pure m.2 := rfl

def connect : Session σ Unit := serial.connect

theorem connect_def : connect (σ := σ) =
    (command bslCmdConnect [] bslRepAck "CONNECT" >>= fun _ => pure ()) := rfl

def autobaudFrom (total attempts : ℕ) : Session σ Bytes := serial.autobaudFrom total attempts

theorem autobaudFrom_step (total attempts : ℕ) : autobaudFrom (σ := σ) total (attempts + 1) =
    write [hdlcFlag] >>= fun _ =>
      serial.tryFrame >>= serial.settle (autobaudFrom total attempts) := rfl

def autobaud (attempts : ℕ) : Session σ Bytes := serial.autobaud attempts

theorem autobaud_def (attempts : ℕ) :
    autobaud (σ := σ) attempts = autobaudFrom attempts attempts := rfl

end SpdIO
end SprdFlash
