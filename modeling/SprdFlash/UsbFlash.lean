import SprdFlash.UsbSession
import SprdFlash.FailStop
import SprdFlash.PortRelease
import SprdFlash.Library.Simulation

/-!
The flash flow over the USB port, its default transport. The port stands in for a serial
one: the flow over it does what the flow does on a serial device that answers each write
with what the reads of the next frame bring. So what holds of the flow on every serial
device holds of it on every USB device.
-/

namespace SprdFlash.UsbFraming

open Message Port SpdIO Pac Flasher Struct Exchange Script Simulation UsbTransport FailStop

namespace UsbSpd

variable {τ : Type} [UsbDevice τ] (clock : UsbPort τ → ℕ)

/-- `flash_pac` with the transport `usb`: what it comes to, with the port once one was
opened. The `finally` clause stands behind the handshake. -/
def flashPac {κ : Type} [UsbControl τ] (lib : Libusb κ τ) (path : PacFile) (chunk : ℕ+)
    (doReset : Bool) : Except Failure Unit × Option (Handle τ × UsbSpd τ) :=
  match parsePac path true with
  | .error e => (.error (.raised e), none)
  | .ok info =>
    if info.crcOk = false then
      (.error (.raised (.flashError "PAC checksum mismatch - refusing to flash")), none)
    else match openUsbPort lib with
      | .error e => (.error (.raised e), none)
      | .ok port =>
        match (usb clock).greet ⟨.fresh port.dev, .sprd⟩ with
        | .error e io => (.error e, some ({ port with dev := io.port.dev }, io))
        | .ok _ io =>
          match (usb clock).writeAll info path.content chunk doReset io with
          | .ok () io => (.ok (), some ({ port with dev := io.port.dev }.closePort, io))
          | .error e io => (.error e, some ({ port with dev := io.port.dev }.closePort, io))

end UsbSpd

section Ports

variable {ε ε' s s' : Type}

def Framed (bs : Bytes) : Prop :=
  bs = [hdlcFlag] ∨ ∃ cmd data mode, Framable cmd data ∧ bs = wireMessage cmd data mode

/-- Two ports on which the framed layer fares the same: `Level` holds between two messages,
`Ahead` where a frame is to be read, `Failed` where a program ends on both. -/
structure Alike (io : SerialLike ε s) (io' : SerialLike ε' s') (Level Ahead : s → s' → Prop)
    (Failed : ε → s → ε' → s' → Prop) : Prop where
  raised : ∀ e t u, Level t u → Failed (io.raised e) t (io'.raised e) u
  checksum : ∀ t u, Level t u → io.checksum t = io'.checksum u
  setChecksum : ∀ mode, Alongside Level (io.setChecksum mode) (io'.setChecksum mode) Level Failed
  note : ∀ data, Alongside Level (io.note data) (io'.note data) Level Failed
  write : ∀ bs, Framed bs → Alongside Level (io.write bs) (io'.write bs) Ahead Failed
  readFrame : Alongside Ahead io.readFrame io'.readFrame Level Failed
  tryFrame : Alongside Ahead io.tryFrame io'.tryFrame Level Failed

variable {io : SerialLike ε s} {io' : SerialLike ε' s'} {Level Ahead : s → s' → Prop}
variable {Failed : ε → s → ε' → s' → Prop} (alike : Alike io io' Level Ahead Failed)
include alike

theorem Alike.raising {α : Type} (x : Except Exc α) :
    Alongside Level (io.raising x) (io'.raising x) Level Failed := by
  intro t u level
  cases x with
  | ok a => exact .ok level
  | error e => exact .error (alike.raised e t u level)

theorem Alike.throw {α : Type} (e : Exc) : Alongside Level (throw (io.raised e) : EStateM ε s α)
    (throw (io'.raised e)) Level Failed :=
  Alongside.throw fun t u level => alike.raised e t u level

theorem Alike.recv : Alongside Ahead io.recv io'.recv Level Failed :=
  alike.readFrame.bind fun body => alike.raising (parseMessage body)

theorem Alike.send (cmd : ℕ) (data : Bytes) :
    Alongside Level (io.send cmd data) (io'.send cmd data) Ahead Failed := by
  intro t u level
  have left : io.send cmd data t =
      (io.raising (buildMessage cmd data (io.checksum t)) >>= io.write) t := rfl
  have right : io'.send cmd data u =
      (io'.raising (buildMessage cmd data (io'.checksum u)) >>= io'.write) u := rfl
  rw [left, right, alike.checksum t u level]
  cases built : buildMessage cmd data (io'.checksum u) with
  | error e => exact .error (alike.raised e t u level)
  | ok msg =>
    obtain ⟨fits, fits', rfl⟩ := buildMessage_eq_ok built
    exact alike.write _ (.inr ⟨cmd, data, _, ⟨fits, fits'⟩, rfl⟩) t u level

theorem Alike.command (cmd : ℕ) (data : Bytes) (expect : ℕ) (what : String) :
    Alongside Level (io.command cmd data expect what) (io'.command cmd data expect what) Level
      Failed := by
  refine (alike.send cmd data).bind fun _ => alike.recv.bind fun reply => ?_
  by_cases other : reply.1 ≠ expect
  · simp only [if_pos other]
    exact alike.throw _
  · simp only [if_neg other]
    exact .pure _

theorem Alike.connect : Alongside Level io.connect io'.connect Level Failed :=
  (alike.command _ _ _ _).bind fun _ => .pure _

theorem Alike.settle {again : EStateM ε s Bytes} {again' : EStateM ε' s' Bytes}
    (next : Alongside Level again again' Level Failed) (raw : Option Bytes) :
    Alongside Level (io.settle again raw) (io'.settle again' raw) Level Failed := by
  cases raw with
  | none => exact next
  | some raw =>
    simp only [SerialLike.settle]
    cases parseMessage raw with
    | error e => exact next
    | ok message =>
      have noted := (alike.note message.2).bind fun _ => Alongside.pure message.2
      by_cases ver : message.1 = bslRepVer
      · simp only [if_pos ver]
        cases detectChecksum raw with
        | none => exact noted
        | some mode => exact (alike.setChecksum mode).bind fun _ => noted
      · simp only [if_neg ver]
        exact next

theorem Alike.autobaudFrom (total attempts : ℕ) : Alongside Level (io.autobaudFrom total attempts)
    (io'.autobaudFrom total attempts) Level Failed := by
  induction attempts with
  | zero => exact alike.throw _
  | succ attempts ih =>
    rw [SerialLike.autobaudFrom_step, SerialLike.autobaudFrom_step]
    exact (alike.write _ (.inl rfl)).bind fun _ => alike.tryFrame.bind fun raw =>
      alike.settle ih raw

theorem Alike.greet : Alongside Level io.greet io'.greet Level Failed :=
  (alike.setChecksum .crc).bind fun _ => (alike.autobaudFrom 200 200).bind fun version =>
    alike.connect.bind fun _ => .pure version

theorem Alike.sendLoop (data : Bytes) (chunk : ℕ+) (sent : ℕ) :
    Alongside Level (io.sendLoop data chunk sent) (io'.sendLoop data chunk sent) Level Failed := by
  induction sent using SerialLike.sendLoop.induct data chunk with
  | case1 sent more piece ih =>
    rw [io.sendLoop_def, io'.sendLoop_def, if_pos more, if_pos more]
    exact (alike.command _ _ _ _).bind fun _ => ih
  | case2 sent done =>
    rw [io.sendLoop_def, io'.sendLoop_def, if_neg done, if_neg done]
    exact .pure ()

theorem Alike.sendStage (addr : ℕ) (data : Bytes) (chunk : ℕ+) :
    Alongside Level (io.sendStage addr data chunk) (io'.sendStage addr data chunk) Level Failed :=
  (alike.raising _).bind fun start => (alike.command _ start _ _).bind fun _ =>
    (alike.sendLoop data chunk 0).bind fun _ => (alike.command _ _ _ _).bind fun _ => .pure ()

theorem Alike.loadFdls (info : PacInfo) (content : Bytes) (chunk : ℕ+) :
    Alongside Level (io.loadFdls info content chunk) (io'.loadFdls info content chunk) Level
      Failed := by
  refine (alike.raising _).bind fun fdl1 => (alike.raising _).bind fun fdl2 => ?_
  cases fdl1 with
  | none => exact alike.throw _
  | some fdl1 =>
    refine (alike.sendStage _ _ _).bind fun _ => (alike.command _ _ _ _).bind fun _ =>
      (alike.setChecksum _).bind fun _ => (alike.autobaudFrom 10 10).bind fun _ =>
      alike.connect.bind fun _ => ?_
    cases fdl2 with
    | none => exact .pure ()
    | some fdl2 =>
      exact (alike.sendStage _ _ _).bind fun _ => (alike.command _ _ _ _).bind fun _ => .pure ()

theorem Alike.writeAll {Done : s → s' → Prop} (level : ∀ t u, Level t u → Done t u)
    (ahead : ∀ t u, Ahead t u → Done t u) (info : PacInfo) (content : Bytes) (chunk : ℕ+)
    (doReset : Bool) :
    Alongside Level (io.writeAll info content chunk doReset)
      (io'.writeAll info content chunk doReset) Done Failed := by
  refine (alike.loadFdls info content chunk).bind fun _ => Alongside.bind (R := Level)
    (Alongside.forM _ fun e _ => (alike.raising _).bind fun data => alike.sendStage _ _ _)
    fun _ => ?_
  cases doReset with
  | true => exact (alike.send _ _).weaken ahead
  | false => exact (Alongside.pure ()).weaken level

end Ports

section Spans

theorem readBody_used (body : Bytes) (events : List Event) : ∃ used,
    events = used ++ (readBody body events).2 ∧
      SpdIO.readBody body used = ((readBody body events).1, []) := by
  fun_induction SpdIO.readBody body events with
  | case1 => exact ⟨[], rfl, rfl⟩
  | case2 => exact ⟨[.expired], rfl, rfl⟩
  | case3 => exact ⟨[.fault], rfl, rfl⟩
  | case4 body events ih =>
    obtain ⟨used, split, same⟩ := ih
    exact ⟨.idle :: used, congrArg (_ :: ·) split, same⟩
  | case5 body events ih =>
    obtain ⟨used, split, same⟩ := ih
    exact ⟨.late :: used, congrArg (_ :: ·) split, same⟩
  | case6 events ih =>
    obtain ⟨used, split, same⟩ := ih
    refine ⟨.byte hdlcFlag :: used, congrArg (_ :: ·) split, ?_⟩
    rw [readBody, if_pos rfl, if_pos rfl, same]
  | case7 body events filled =>
    refine ⟨[.byte hdlcFlag], rfl, ?_⟩
    rw [readBody, if_pos rfl, if_neg filled]
  | case8 body b events other ih =>
    obtain ⟨used, split, same⟩ := ih
    refine ⟨.byte b :: used, congrArg (_ :: ·) split, ?_⟩
    rw [readBody, if_neg other, same]

theorem seekFlag_used (events : List Event) : ∃ used,
    events = used ++ (seekFlag events).2 ∧
      SpdIO.seekFlag used = ((seekFlag events).1, []) := by
  fun_induction SpdIO.seekFlag events with
  | case1 => exact ⟨[], rfl, rfl⟩
  | case2 => exact ⟨[.expired], rfl, rfl⟩
  | case3 => exact ⟨[.fault], rfl, rfl⟩
  | case4 events ih =>
    obtain ⟨used, split, same⟩ := ih
    exact ⟨.idle :: used, congrArg (_ :: ·) split, same⟩
  | case5 events ih =>
    obtain ⟨used, split, same⟩ := ih
    exact ⟨.late :: used, congrArg (_ :: ·) split, same⟩
  | case6 events =>
    obtain ⟨used, split, same⟩ := readBody_used [] events
    refine ⟨.byte hdlcFlag :: used, congrArg (_ :: ·) split, ?_⟩
    rw [seekFlag, if_pos rfl, same]
  | case7 b events other ih =>
    obtain ⟨used, split, same⟩ := ih
    refine ⟨.byte b :: used, congrArg (_ :: ·) split, ?_⟩
    rw [seekFlag, if_neg other, same]

variable {τ : Type} [UsbDevice τ]

theorem transcript_length (n : ℕ) (s : UsbPort τ) :
    transcript (transcript n s).length s = transcript n s := by
  induction n generalizing s with
  | zero => rfl
  | succ n ih =>
    rcases read_turn 0 s with ⟨b, t, -, read, -⟩ | ⟨t, read, -⟩ | ⟨e, t, read, -, -⟩
    · rw [(transcript_byte read n).1, List.length_cons, (transcript_byte read _).1, ih]
    · rw [(transcript_idle read n).1, List.length_cons, (transcript_idle read _).1, ih]
    · rw [transcript_fault read]
      exact transcript_fault read 0

def span (clock : UsbPort τ → ℕ) (port : UsbPort τ) : ℕ :=
  (transcript (clock port) port).length -
    (seekFlag (transcript (clock port) port)).2.length

theorem nextFrame_span (clock : UsbPort τ → ℕ) (u : UsbSpd τ) :
    (∃ result, SpdIO.seekFlag (transcript (span clock u.port) u.port) = (result, []) ∧
      UsbSpd.nextFrame clock u = raising result ⟨reads (span clock u.port) u.port, u.checksum⟩) ∨
    ∃ e t, UsbSpd.nextFrame clock u = .error (.transfer e) t ∧ t.port.sent = u.port.sent ∧
      SpdIO.seekFlag (transcript (span clock u.port) u.port) =
        (.error (.osError "read failed"), []) := by
  have follows := seekFlag_follows (clock u.port) u
  obtain ⟨used, split, same⟩ := seekFlag_used (transcript (clock u.port) u.port)
  rcases follows with ⟨n, run, parts, -, count⟩ | ⟨e, t, run, -, result, sent⟩
  · have here : used = transcript n u.port := List.append_cancel_right (split.symm.trans parts)
    have lengths := congrArg List.length parts
    rw [List.length_append, count] at lengths
    have taken : span clock u.port = n := by
      rw [span]
      omega
    rw [taken, ← here]
    exact .inl ⟨_, same, run⟩
  · have all : span clock u.port = (transcript (clock u.port) u.port).length := by
      rw [span, result]
      rfl
    rw [all, transcript_length]
    exact .inr ⟨e, t, run, sent, result⟩

end Spans

section Adapter

variable {τ : Type} [UsbDevice τ]

/-- The USB port as a serial device. It answers each write with what the reads of the next
frame bring. -/
structure Adapted (clock : UsbPort τ → ℕ) where
  port : UsbPort τ

variable {clock : UsbPort τ → ℕ}

instance : Device (Adapted clock) where
  attach a := (a, some [])
  discards _ := true
  onWrite a bs :=
    match UsbPort.write bs a.port with
    | .ok _ port => some (⟨reads (span clock port) port⟩, transcript (span clock port) port)
    | .error _ _ => none

def Plain : Act → Prop
  | .wrote bs => Framed bs
  | .closed => False
  | _ => True

def pieces (log : List Act) : List Bytes := (frames log).flatMap (Pieces.pieces maxEpChunk)

structure Kept (s : Port (Adapted clock)) (u : UsbSpd τ) : Prop where
  checksum : s.checksum = u.checksum
  sent : u.port.sent = pieces s.log
  plain : ∀ act ∈ s.log, Plain act

structure Level (s : Port (Adapted clock)) (u : UsbSpd τ) : Prop extends Kept s u where
  port : s.device.port = u.port
  pending : s.pending = []

/-- Behind a write the serial side has in its queue what the USB side has still to read. -/
structure Ahead (s : Port (Adapted clock)) (u : UsbSpd τ) : Prop extends Kept s u where
  port : s.device.port = reads (span clock u.port) u.port
  pending : s.pending = transcript (span clock u.port) u.port

structure Done (s : Port (Adapted clock)) (u : UsbSpd τ) : Prop extends Kept s u where
  port : ∃ n, s.device.port = reads n u.port

/-- The same exception, or one of a transfer for one of the serial port. -/
def Same : Exc → Failure → Prop
  | e, .raised f => e = f
  | e, .transfer _ => ∃ msg, e = .osError msg

/-- The transfers are the pieces of the messages up to the last one, and a first part of it. -/
def Cut (log : List Act) (sent : List Bytes) : Prop :=
  ∃ earlier last part, frames log = earlier ++ [last] ∧ part ≠ [] ∧
    part <+: Pieces.pieces maxEpChunk last ∧
    sent = earlier.flatMap (Pieces.pieces maxEpChunk) ++ part

/-- Two runs that fail. A write whose transfer raised may have stopped short. -/
structure Failed (e : Exc) (s : Port (Adapted clock)) (f : Failure) (u : UsbSpd τ) : Prop where
  same : Same e f
  plain : ∀ act ∈ s.log, Plain act
  sent : u.port.sent = pieces s.log ∨
    ∃ exc, f = .transfer exc ∧ e = .osError "write failed" ∧ Cut s.log u.port.sent

omit [UsbDevice τ] in
theorem pieces_append (xs ys : List Act) : pieces (xs ++ ys) = pieces xs ++ pieces ys := by
  rw [pieces, frames, List.filterMap_append, List.flatMap_append]
  rfl

omit [UsbDevice τ] in
theorem Kept.failed {s : Port (Adapted clock)} {u : UsbSpd τ} (kept : Kept s u) {e : Exc}
    {f : Failure} (same : Same e f) : Failed e s f u :=
  ⟨same, kept.plain, .inl kept.sent⟩

theorem write_adapts {bs : Bytes} (framed : Framed bs) :
    Alongside (@Level τ clock) (Port.write bs) (UsbSpd.write bs) Ahead Failed := by
  intro s u level
  have plain : ∀ act ∈ s.log ++ [.wrote bs], Plain act := by
    rw [List.forall_mem_append, List.forall_mem_singleton]
    exact ⟨level.plain, framed⟩
  obtain ⟨-, went⟩ := writeLoop_pieces bs 0 u.port
  rw [List.drop_zero] at went
  cases run : UsbPort.write bs u.port with
  | ok n port =>
    rw [show UsbPort.writeLoop bs 0 u.port = .ok n port from run] at went
    have reaction : Device.onWrite s.device bs =
        some (⟨reads (span clock port) port⟩, transcript (span clock port) port) := by
      simp only [Device.onWrite, level.port, run]
    have grown : port.sent = pieces (s.log ++ [.wrote bs]) := by
      rw [went.1, pieces_append, level.sent]
      exact congrArg _ (List.append_nil _).symm
    rw [Port.write_of_some reaction, UsbSpd.write_ok run, level.pending]
    exact .ok ⟨⟨level.checksum, grown, plain⟩, rfl, rfl⟩
  | error e port =>
    rw [show UsbPort.writeLoop bs 0 u.port = .error e port from run] at went
    have reaction : Device.onWrite s.device bs = none := by
      simp only [Device.onWrite, level.port, run]
    rw [Port.write_of_none reaction, UsbSpd.write_error run]
    obtain ⟨part, some, first, sent, -⟩ := went
    have last : frames (s.log ++ [.wrote bs]) = frames s.log ++ [bs] := List.filterMap_append
    refine .error ⟨⟨_, rfl⟩, plain, .inr
      ⟨e, rfl, rfl, frames s.log, bs, part, last, some, first, ?_⟩⟩
    rw [sent, level.sent, pieces]

theorem readFrame_outcome {s : Port (Adapted clock)} {u : UsbSpd τ} (ahead : Ahead s u) :
    (∃ body t v, SpdIO.readFrame s = .ok body t ∧
      UsbSpd.nextFrame clock u = .ok body v ∧ Level t v) ∨
    (∃ e t v, SpdIO.readFrame s = .error e t ∧
      UsbSpd.nextFrame clock u = .error (.raised e) v ∧ Level t v) ∨
    ∃ msg e t v, SpdIO.readFrame s = .error (.osError msg) t ∧
      UsbSpd.nextFrame clock u = .error (.transfer e) v ∧
        Failed (.osError msg) t (.transfer e) v := by
  have sent : (reads (span clock u.port) u.port).sent = pieces s.log :=
    (reads_sent _ _).trans ahead.sent
  rcases nextFrame_span clock u with ⟨result, found, run⟩ | ⟨e, v, run, same, found⟩
  · rw [← ahead.pending] at found
    cases result with
    | ok body =>
      have plain : ∀ act ∈ s.log ++ [.reply body], Plain act := by
        rw [List.forall_mem_append, List.forall_mem_singleton]
        exact ⟨ahead.plain, trivial⟩
      have grown : pieces (s.log ++ [.reply body]) = pieces s.log := by
        rw [pieces_append]
        exact List.append_nil _
      refine .inl ⟨body, _, _, SpdIO.readFrame_of_ok found, run, ⟨?_, ?_, plain⟩, ahead.port, rfl⟩
      · exact ahead.checksum
      · exact sent.trans grown.symm
    | error e =>
      exact .inr (.inl ⟨e, _, _, SpdIO.readFrame_of_error found, run,
        ⟨ahead.checksum, sent, ahead.plain⟩, ahead.port, rfl⟩)
  · rw [← ahead.pending] at found
    exact .inr (.inr ⟨_, e, _, v, SpdIO.readFrame_of_error found, run, ⟨_, rfl⟩, ahead.plain,
      .inl (same.trans ahead.sent)⟩)

omit [UsbDevice τ] in
theorem note_adapts (data : Bytes) : Alongside (@Level τ clock) (Port.note (.version data))
    (pure ()) Level Failed := by
  intro s u level
  refine .ok ⟨⟨level.checksum, ?_, ?_⟩, level.port, level.pending⟩
  · have grown : pieces (s.log ++ [.version data]) = pieces s.log := by
      rw [pieces_append]
      exact List.append_nil _
    exact level.sent.trans grown.symm
  · rw [List.forall_mem_append, List.forall_mem_singleton]
    exact ⟨level.plain, trivial⟩

theorem usb_alike : Alike serial (UsbSpd.usb clock) (@Level τ clock) Ahead Failed where
  raised e s u level := level.failed rfl
  checksum s u level := level.checksum
  setChecksum mode s u level := .ok ⟨⟨rfl, level.sent, level.plain⟩, level.port, level.pending⟩
  note := note_adapts
  write bs framed := write_adapts framed
  readFrame s u ahead := by
    change Agree Level Failed (readFrame s) (UsbSpd.nextFrame clock u)
    rcases readFrame_outcome ahead with ⟨body, t, v, run, run', level⟩ |
      ⟨e, t, v, run, run', level⟩ | ⟨msg, e, t, v, run, run', failed⟩
    · rw [run, run']
      exact .ok level
    · rw [run, run']
      exact .error (level.failed rfl)
    · rw [run, run']
      exact .error failed
  tryFrame s u ahead := by
    rcases readFrame_outcome ahead with ⟨body, t, v, run, run', level⟩ |
      ⟨e, t, v, run, run', level⟩ | ⟨msg, e, t, v, run, run', failed⟩
    · rw [SerialLike.tryFrame_ok _ run, SerialLike.tryFrame_ok _ run']
      exact .ok level
    · cases caught : SpdIO.isTimeoutOrValue e with
      | true =>
        rw [SerialLike.tryFrame_caught _ run caught, SerialLike.tryFrame_caught _ run' caught]
        exact .ok level
      | false =>
        rw [SerialLike.tryFrame_raised _ run caught, SerialLike.tryFrame_raised _ run' caught]
        exact .error (level.failed rfl)
    · rw [SerialLike.tryFrame_raised _ run rfl, SerialLike.tryFrame_raised _ run' rfl]
      exact .error failed

end Adapter

section Flow

variable {τ : Type} [UsbDevice τ] {clock : UsbPort τ → ℕ}

/-- How a flow ends on the two sides: with the port never opened, left open behind the
handshake, or closed. -/
inductive Ended : EStateM.Result Exc (Port (Adapted clock)) Unit →
    Except Failure Unit × Option (Handle τ × UsbSpd τ) → Prop
  | refused {e s} : s.log = [] → Ended (.error e s) (.error (.raised e), none)
  | left {e s f handle io} : Failed e s f io → handle.opened = true →
      Ended (.error e s) (.error f, some (handle, io))
  | failed {e s f handle io} : Failed e s f io → handle.opened = false →
      Ended (.error e { s with log := s.log ++ [.closed] }) (.error f, some (handle, io))
  | returned {s handle io} : Done s io → handle.opened = false →
      Ended (.ok () { s with log := s.log ++ [.closed] }) (.ok (), some (handle, io))

/-- Over the USB port the flow does what it does on the serial device. -/
theorem flashPac_adapts {κ : Type} [UsbControl τ] {lib : Libusb κ τ} {port : Handle τ}
    (opened : openUsbPort lib = .ok port) (clock : UsbPort τ → ℕ) (path : PacFile)
    (device : Option String) (chunk : ℕ+) (doReset : Bool) :
    Ended (Flasher.flashPac path ⟨.usb, device, chunk, doReset⟩
        (Port.fresh (⟨.fresh port.dev⟩ : Adapted clock)))
      (UsbSpd.flashPac clock lib path chunk doReset) := by
  have isOpen : port.opened = true := openUsbPort_opened opened
  have start : Level (⟨⟨.fresh port.dev⟩, [], [.opened], .sprd⟩ : Port (Adapted clock))
      ⟨.fresh port.dev, .sprd⟩ := ⟨⟨rfl, rfl, by simp [Plain]⟩, rfl, rfl⟩
  rw [Flasher.flashPac, UsbSpd.flashPac]
  cases parsed : parsePac path true with
  | error e => exact .refused rfl
  | ok info =>
    have read : Port.raising (.ok info) (Port.fresh (⟨.fresh port.dev⟩ : Adapted clock)) =
        .ok info (Port.fresh ⟨.fresh port.dev⟩) := rfl
    rw [bind_ok read]
    simp only [opened]
    by_cases bad : info.crcOk = false
    · rw [if_pos bad, if_pos bad]
      exact .refused rfl
    · rw [if_neg bad, if_neg bad, PortRelease.connectBootrom_greet]
      have attached : Flasher.openTransport .usb device
          (Port.fresh (⟨.fresh port.dev⟩ : Adapted clock)) =
            .ok () ⟨⟨.fresh port.dev⟩, [], [.opened], .sprd⟩ := rfl
      rw [Script.bind_assoc, bind_ok attached]
      have greeted : Agree Level Failed (greet _) ((UsbSpd.usb clock).greet _) :=
        usb_alike.greet _ _ start
      rcases greeted.cases with ⟨version, s, u, run, run', level⟩ |
        ⟨e, s, f, u, run, run', failed⟩
      · rw [bind_ok run, run']
        have written : Agree Done Failed (writeAll info path.content chunk doReset s)
            ((UsbSpd.usb clock).writeAll info path.content chunk doReset u) :=
          usb_alike.writeAll (fun t v level => ⟨level.toKept, 0, level.port⟩)
            (fun t v ahead => ⟨ahead.toKept, _, ahead.port⟩) info path.content chunk
              doReset s u level
        rcases written.cases with
          ⟨_, t, v, ran, ran', kept⟩ | ⟨e, t, f, v, ran, ran', failed⟩
        · rw [Acknowledging.closing_eq.1 ran]
          simp only [ran']
          exact .returned kept (Handle.closePort_shut _)
        · rw [Acknowledging.closing_eq.2 e ran]
          simp only [ran']
          exact .failed failed (Handle.closePort_shut _)
      · rw [bind_error run, run']
        exact .left failed isOpen

theorem frames_framed {log : List Act} (plain : ∀ act ∈ log, Plain act) :
    ∀ bs ∈ frames log, Framed bs := by
  intro bs mem
  obtain ⟨act, hact, wrote⟩ := List.mem_filterMap.mp mem
  cases act with
  | wrote bs' =>
    cases wrote
    exact plain _ hact
  | _ => cases wrote

theorem frames_closed (log : List Act) : frames (log ++ [.closed]) = frames log := by
  rw [frames, List.filterMap_append]
  exact List.append_nil _

theorem pieces_closed (log : List Act) : pieces (log ++ [.closed]) = pieces log := by
  rw [pieces, frames_closed, pieces]

section Outcomes

variable {serial : EStateM.Result Exc (Port (Adapted clock)) Unit}
variable {usb : Except Failure Unit × Option (Handle τ × UsbSpd τ)}

theorem Ended.framed (h : Ended serial usb) : ∀ bs ∈ frames (final serial).log, Framed bs := by
  cases h with
  | @refused e s untouched =>
    rw [final, untouched]
    simp [frames]
  | left failed isOpen => exact frames_framed failed.plain
  | failed failed shut =>
    rw [final, frames_closed]
    exact frames_framed failed.plain
  | returned done shut =>
    rw [final, frames_closed]
    exact frames_framed done.plain

theorem Ended.untouched (h : Ended serial usb) (unopened : usb.2 = none) :
    (final serial).log = [] := by
  cases h with
  | refused untouched => exact untouched
  | _ => cases unopened

theorem Ended.sent {handle : Handle τ} {io : UsbSpd τ} (h : Ended serial usb)
    (left : usb.2 = some (handle, io)) : io.port.sent = pieces (final serial).log ∨
      ∃ exc t, usb.1 = .error (.transfer exc) ∧ serial = .error (.osError "write failed") t ∧
        Cut t.log io.port.sent := by
  cases h with
  | refused untouched => cases left
  | left failed isOpen =>
    cases left
    rcases failed.sent with whole | ⟨exc, rfl, rfl, cut⟩
    · exact .inl whole
    · exact .inr ⟨exc, _, rfl, rfl, cut⟩
  | failed failed shut =>
    cases left
    rcases failed.sent with whole | ⟨exc, rfl, rfl, cut⟩
    · rw [final, pieces_closed]
      exact .inl whole
    · refine .inr ⟨exc, _, rfl, rfl, ?_⟩
      rw [Cut, frames_closed]
      exact cut
  | returned done shut =>
    cases left
    rw [final, pieces_closed, ← done.sent]
    exact .inl rfl

theorem Cut.prefix {log : List Act} {sent : List Bytes} (cut : Cut log sent) :
    sent <+: pieces log := by
  obtain ⟨earlier, last, part, split, -, first, rfl⟩ := cut
  rw [pieces, split, List.flatMap_append, List.flatMap_singleton, List.prefix_append_right_inj]
  exact first

theorem Ended.sent_prefix {handle : Handle τ} {io : UsbSpd τ} (h : Ended serial usb)
    (left : usb.2 = some (handle, io)) : io.port.sent <+: pieces (final serial).log := by
  rcases h.sent left with whole | ⟨exc, t, -, rfl, cut⟩
  · rw [whole]
  · exact cut.prefix

theorem Ended.closed {handle : Handle τ} {io : UsbSpd τ} (h : Ended serial usb)
    (left : usb.2 = some (handle, io)) : handle.opened = false ↔ .closed ∈ (final serial).log := by
  cases h with
  | refused untouched => cases left
  | left failed isOpen =>
    cases left
    rw [isOpen]
    exact ⟨by simp, fun closed => (failed.plain _ closed).elim⟩
  | failed failed shut =>
    cases left
    simp [final, shut]
  | returned done shut =>
    cases left
    simp [final, shut]

theorem Ended.outcome (h : Ended serial usb) :
    (usb.1 = .ok () ∧ (∃ t, serial = .ok () t) ∧ ∃ handle io, usb.2 = some (handle, io) ∧
        io.port.sent = pieces (final serial).log) ∨
      ∃ f e t, usb.1 = .error f ∧ serial = .error e t ∧ Same e f := by
  cases h with
  | refused untouched => exact .inr ⟨_, _, _, rfl, rfl, rfl⟩
  | left failed isOpen => exact .inr ⟨_, _, _, rfl, rfl, failed.same⟩
  | failed failed shut => exact .inr ⟨_, _, _, rfl, rfl, failed.same⟩
  | returned done shut =>
    refine .inl ⟨rfl, ⟨_, rfl⟩, _, _, rfl, ?_⟩
    rw [final, pieces_closed, done.sent]

end Outcomes

/-- `flash_pac` over the USB port and `flash_pac` on the serial device that answers each
write with what the reads of the next frame bring: both return or both fail, with the same
exception or with one of a transfer for one of the port; the transfers are the pieces of
the same messages, where those of the last one may stop short if its write's transfer
raised; and the port is closed where the serial one is. -/
theorem usbFlash_serial {κ : Type} [UsbControl τ] {lib : Libusb κ τ} {port : Handle τ}
    (opened : openUsbPort lib = .ok port) (clock : UsbPort τ → ℕ) (path : PacFile)
    (device : Option String) (chunk : ℕ+) (doReset : Bool) :
    let serial := Flasher.flashPac path ⟨.usb, device, chunk, doReset⟩
      (Port.fresh (⟨.fresh port.dev⟩ : Adapted clock))
    let usb := UsbSpd.flashPac clock lib path chunk doReset
    ((usb.1 = .ok () ∧ (∃ t, serial = .ok () t) ∧ ∃ handle io, usb.2 = some (handle, io) ∧
        io.port.sent = pieces (final serial).log) ∨
      ∃ f e t, usb.1 = .error f ∧ serial = .error e t ∧ Same e f) ∧
    (∀ bs ∈ frames (final serial).log, Framed bs) ∧
    (usb.2 = none → (final serial).log = []) ∧
    ∀ handle io, usb.2 = some (handle, io) →
      (io.port.sent = pieces (final serial).log ∨
        ∃ exc t, usb.1 = .error (.transfer exc) ∧ serial = .error (.osError "write failed") t ∧
          Cut t.log io.port.sent) ∧
      (handle.opened = false ↔ .closed ∈ (final serial).log) := by
  have ended := flashPac_adapts opened clock path device chunk doReset
  exact ⟨ended.outcome, ended.framed, ended.untouched,
    fun handle io left => ⟨ended.sent left, ended.closed left⟩⟩

structure Halted where
  deriving DecidableEq

def pipeError : UsbExc := ⟨false, "[Errno 32] Pipe error"⟩

instance : UsbDevice Halted where
  bulkOut d _ := (.error pipeError, d)
  bulkIn d _ := (.error timedOut, d)

instance : UsbControl Halted := composite Halted

theorem halted_write : UsbPort.write [hdlcFlag] (UsbPort.fresh Halted.mk) =
    .error pipeError ⟨Halted.mk, [], [[hdlcFlag]], []⟩ := by
  simp [UsbPort.write, UsbPort.writeLoop, UsbPort.devWrite, UsbPort.fresh, UsbDevice.bulkOut, bind,
    EStateM.bind, maxEpChunk]

theorem halted_greet : (UsbSpd.usb fun _ => 24).greet ⟨.fresh Halted.mk, .sprd⟩ =
    .error (.transfer pipeError) ⟨⟨Halted.mk, [], [[hdlcFlag]], []⟩, .crc⟩ := by
  have polled : (UsbSpd.usb fun _ => 24).autobaud 200 ⟨.fresh Halted.mk, .crc⟩ =
      .error (.transfer pipeError) ⟨⟨Halted.mk, [], [[hdlcFlag]], []⟩, .crc⟩ := by
    rw [SerialLike.autobaud, SerialLike.autobaudFrom_step]
    exact bind_error (UsbSpd.write_error halted_write)
  exact bind_error (x := (UsbSpd.usb fun _ => 24).autobaud 200) polled

theorem halted_usbFlash : ∃ handle io msg t,
    UsbSpd.flashPac (fun _ => 24) (plugged Halted.mk) (PacImage.package 2) 16 false =
      (.error (.transfer pipeError), some (handle, io)) ∧
    Flasher.flashPac (PacImage.package 2) ⟨.usb, none, 16, false⟩
      (Port.fresh (⟨.fresh Halted.mk⟩ : Adapted fun _ => 24)) = .error (.osError msg) t ∧
    (∀ bs ∈ frames t.log, Framed bs) ∧
    ([[hdlcFlag]] = pieces t.log ∨ Cut t.log [[hdlcFlag]]) ∧ .closed ∉ t.log := by
  obtain ⟨info, accepted, -⟩ := PacImage.package_accepted (show 2 < 2 ^ 32 by decide)
  have opened : openUsbPort (plugged Halted.mk) = .ok ⟨Halted.mk, 1, 0x02, 0x81, true,
      [(.detach 0, false), (.detach 1, true), (.claim 1, true), (.kick, true)]⟩ := rfl
  have ran : UsbSpd.flashPac (fun _ => 24) (plugged Halted.mk) (PacImage.package 2) 16 false =
      (.error (.transfer pipeError), some (⟨Halted.mk, 1, 0x02, 0x81, true,
        [(.detach 0, false), (.detach 1, true), (.claim 1, true), (.kick, true)]⟩,
        ⟨⟨Halted.mk, [], [[hdlcFlag]], []⟩, .crc⟩)) := by
    simp only [UsbSpd.flashPac, accepted.parsed, accepted.crcOk, opened, halted_greet]
    rfl
  obtain ⟨outcome, framed, -, both⟩ :=
    usbFlash_serial opened (fun _ => 24) (PacImage.package 2) none 16 false
  obtain ⟨sent, closed⟩ := both _ _ (congrArg Prod.snd ran)
  rw [ran] at outcome
  rcases outcome with ⟨returned, -⟩ | ⟨f, e, t, failed, serial, same⟩
  · cases returned
  · cases failed
    obtain ⟨msg, rfl⟩ := same
    rw [serial] at framed sent closed
    refine ⟨_, _, msg, t, ran, serial, framed, ?_, fun shut => absurd (closed.mpr shut) (by decide)⟩
    rcases sent with whole | ⟨exc, t', -, same, cut⟩
    · exact .inl whole
    · cases same
      exact .inr cut

end Flow

end SprdFlash.UsbFraming
