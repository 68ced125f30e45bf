import SprdFlash.Acknowledging
import SprdFlash.Package

/-!
A stage transfer against a device that does what the protocol says: it splits
what is written at the flags, undoes the stuffing, verifies the checksum,
executes the command and acknowledges it. `send_stage` takes such a device
through START_DATA, the pieces and END_DATA, and leaves the image in it.
-/

namespace SprdFlash.Delivery

open Message Port SpdIO Flasher Struct Script Plan Exchange WireLog Framing Acknowledging

/-- What a device holds of an image. -/
structure Image where
  address : ℕ
  declared : ℕ
  bytes : Bytes
  finished : Bool
  deriving DecidableEq, Repr

structure Receiver where
  mode : Checksum
  /-- What was written after the last flag. -/
  body : Bytes
  accepted : List (ℕ × Bytes)
  rejected : List Bytes
  image : Option Image
  deriving DecidableEq, Repr

namespace Receiver

def empty (mode : Checksum) : Receiver := ⟨mode, [], [], [], none⟩

def verify (mode : Checksum) (body : Bytes) : Option (ℕ × Bytes) :=
  let size := declaredSize body
  if body.length = size + 6 ∧
      unpack .big (body.drop (size + 4)) = checksumFor mode (body.take (size + 4)) then
    some (unpack .big (body.take 2), (body.drop 4).take size)
  else none

def execute (cmd : ℕ) (data : Bytes) (image : Option Image) : Option Image :=
  if cmd = bslCmdStartData then
    some ⟨unpack .big (data.take 4), unpack .big ((data.drop 4).take 4), [], false⟩
  else if cmd = bslCmdMidstData then
    image.map fun image => { image with bytes := image.bytes ++ data }
  else if cmd = bslCmdEndData then
    image.map fun image => { image with finished := true }
  else image

def accept (r : Receiver) (cmd : ℕ) (data : Bytes) : Receiver :=
  { r with accepted := r.accepted ++ [(cmd, data)], image := execute cmd data r.image }

def frame (r : Receiver) (body : Bytes) : Receiver × Bytes :=
  match verify r.mode body with
  | some (cmd, data) => (r.accept cmd data, wireMessage bslRepAck [] r.mode)
  | none => ({ r with rejected := r.rejected ++ [body] }, [])

def feed (r : Receiver) (b : UInt8) : Receiver × Bytes :=
  if b = hdlcFlag then
    if r.body = [] then (r, []) else { r with body := [] }.frame (hdlcUnescape r.body)
  else ({ r with body := r.body ++ [b] }, [])

def listen (r : Receiver) : Bytes → Receiver × Bytes
  | [] => (r, [])
  | b :: rest => (((r.feed b).1.listen rest).1, (r.feed b).2 ++ ((r.feed b).1.listen rest).2)

instance : Device Receiver where
  attach r := (r, some [])
  discards _ := true
  onWrite r bs := some ((r.listen bs).1, (r.listen bs).2.map .byte)

theorem verify_messageBody {cmd : ℕ} {data : Bytes} (fits : Framable cmd data) (mode : Checksum) :
    verify mode (messageBody cmd data mode) = some (cmd, data) := by
  have size : declaredSize (messageBody cmd data mode) = data.length :=
    declaredSize_messageBody fits.2 mode
  have sound := not_misread_of_documented
    (show Documented mode (messageBody cmd data mode) cmd data from ⟨fits.1, fits.2, rfl⟩)
  have value := parseMessage_ok_iff.mp (parseMessage_messageBody fits.1 fits.2 mode)
  obtain ⟨long, covered, hcmd, hdata⟩ := value
  have checksum : unpack .big ((messageBody cmd data mode).drop (data.length + 4)) =
      checksumFor mode ((messageBody cmd data mode).take (data.length + 4)) := by
    rw [← size]
    by_contra other
    exact sound ⟨long, covered, .inr other⟩
  rw [verify]
  simp only [size, messageBody_length, checksum, and_self, if_true]
  rw [← hcmd, ← size, ← hdata]

theorem listen_append (r : Receiver) (xs ys : Bytes) :
    r.listen (xs ++ ys) =
      (((r.listen xs).1.listen ys).1, (r.listen xs).2 ++ ((r.listen xs).1.listen ys).2) := by
  induction xs generalizing r with
  | nil => rfl
  | cons b xs ih => rw [List.cons_append, listen, listen, ih, List.append_assoc]

theorem listen_noFlag (r : Receiver) {w : Bytes} (noFlag : hdlcFlag ∉ w) :
    r.listen w = ({ r with body := r.body ++ w }, []) := by
  induction w generalizing r with
  | nil => simp [listen]
  | cons b w ih =>
    rw [List.mem_cons, not_or] at noFlag
    have plain : r.feed b = ({ r with body := r.body ++ [b] }, []) := by
      rw [feed, if_neg (Ne.symm noFlag.1)]
    rw [listen, plain, ih _ noFlag.2]
    simp

theorem listen_wireMessage {r : Receiver} (between : r.body = []) {cmd : ℕ} {data : Bytes}
    (fits : Framable cmd data) :
    r.listen (wireMessage cmd data r.mode) =
      (r.accept cmd data, wireMessage bslRepAck [] r.mode) := by
  have clean := clean_escape_messageBody cmd data r.mode
  have wire : wireMessage cmd data r.mode =
      [hdlcFlag] ++ (Stuffing.escape hdlc (messageBody cmd data r.mode) ++ [hdlcFlag]) := rfl
  have opening : r.listen [hdlcFlag] = (r, []) := by
    rw [listen, feed, if_pos rfl, if_pos between]
    rfl
  rw [wire, listen_append, opening, listen_append, listen_noFlag _ clean.2, between,
    List.nil_append, listen, feed, if_pos rfl, if_neg clean.1, hdlcUnescape_escape,
    frame, verify_messageBody fits]
  simp [listen, accept, between]

end Receiver

structure Ready (s : Port Receiver) : Prop where
  idle : Idle s
  between : s.device.body = []
  mode : s.checksum = s.device.mode

theorem command_accepted {cmd : ℕ} {data : Bytes} (fits : Framable cmd data) (what : String)
    {s : Port Receiver} (ready : Ready s) :
    ∃ rdata t, command cmd data bslRepAck what s = .ok rdata t ∧ Ready t ∧
      t.device = s.device.accept cmd data := by
  have reaction : Device.onWrite s.device (wireMessage cmd data s.checksum) =
      some (s.device.accept cmd data, (wireMessage bslRepAck [] s.device.mode).map .byte) := by
    rw [ready.mode, show ∀ bs, Device.onWrite s.device bs =
      some ((s.device.listen bs).1, (s.device.listen bs).2.map .byte) from fun _ => rfl,
      Receiver.listen_wireMessage ready.between fits]
  obtain ⟨s', sent, arrived, device, checksum⟩ :=
    write_answered ready.idle reaction (Acker.delivers_bytes _)
  rw [← send_framable fits] at sent
  obtain ⟨t, received, idle', device', checksum'⟩ := recv_delivers (by decide) arrived
  have same : t.device = s.device.accept cmd data := device'.trans device
  refine ⟨[], t, ?_, ⟨idle', ?_, ?_⟩, same⟩
  · rw [command_def, bind_ok sent, bind_ok received]
    rfl
  · rw [same]
    exact ready.between
  · rw [same, checksum', checksum]
    exact ready.mode

def accepting (r : Receiver) : Step → Receiver
  | .command cmd data _ => r.accept cmd data
  | _ => r

theorem perform_accepted {steps : List Step}
    (commands : ∀ i ∈ steps, ∃ cmd data what, i = .command cmd data what ∧ Framable cmd data)
    {s : Port Receiver} (ready : Ready s) :
    ∃ t, perform Step.exec steps s = .ok () t ∧ Ready t ∧
      t.device = steps.foldl accepting s.device := by
  refine perform_foldl (fun {i s} kind ready => ?_) commands ready
  obtain ⟨cmd, data, what, rfl, fits⟩ := kind
  obtain ⟨rdata, t, run, ready', device⟩ := command_accepted fits what ready
  exact ⟨t, bind_ok run, ready', device⟩

theorem foldl_pieces (pieces : List Bytes) (r : Receiver) :
    (pieces.map (Step.command bslCmdMidstData · "MIDST_DATA")).foldl accepting r =
      { r with
        accepted := r.accepted ++ pieces.map fun piece => (bslCmdMidstData, piece)
        image := r.image.map fun image =>
          { image with bytes := image.bytes ++ pieces.flatten } } := by
  induction pieces generalizing r with
  | nil => simp
  | cons piece pieces ih =>
    have first : accepting r (.command bslCmdMidstData piece "MIDST_DATA") =
        r.accept bslCmdMidstData piece := rfl
    rw [List.map_cons, List.foldl_cons, ih, first, Receiver.accept, Receiver.execute,
      if_neg (by decide), if_pos rfl]
    simp [Function.comp_def, List.append_assoc]

/-- The whole image is in the receiver, and every frame written was accepted. -/
structure Delivered (addr : ℕ) (data : Bytes) (chunk : ℕ+) (t : Port Receiver) : Prop where
  rejected : t.device.rejected = []
  written : sentCmds t.log = t.device.accepted.map fun message => .bsl message.1 message.2
  sequence : ∃ pieces : List Bytes, (∀ piece ∈ pieces, piece ≠ [] ∧ piece.length ≤ chunk) ∧
    t.device.accepted = (bslCmdStartData, fields .big 4 [addr, data.length]) ::
      (pieces.map (fun piece => (bslCmdMidstData, piece)) ++ [(bslCmdEndData, [])])
  image : t.device.image = some ⟨addr, data.length, data, true⟩

def opened (mode : Checksum) : Port Receiver :=
  { Port.fresh (Receiver.empty mode) with checksum := mode }

theorem opened_ready (mode : Checksum) : Ready (opened mode) :=
  ⟨⟨by simp [opened, Port.fresh], rfl⟩, rfl, rfl⟩

theorem stage_commands {addr : ℕ} {data : Bytes} (haddr : addr < 2 ^ 32)
    (hdata : data.length < 2 ^ 32) {chunk : ℕ+} (hchunk : (chunk : ℕ) ≤ 65535) :
    ∀ i ∈ stage addr data chunk,
      ∃ cmd data what, i = .command cmd data what ∧ Framable cmd data := by
  rw [Package.stage_eq haddr hdata, List.forall_mem_cons, List.forall_mem_append,
    List.forall_mem_map, List.forall_mem_singleton]
  refine ⟨⟨_, _, _, rfl, by decide, by simp [fields_length]⟩, fun piece hp => ?_,
    ⟨_, _, _, rfl, by decide⟩⟩
  have bound := (Pieces.mem_pieces hp).2.1
  exact ⟨_, _, _, rfl, by decide, by omega⟩

/-- `send_stage` delivers the image intact, whatever its bytes, the chunk size
and the checksum mode. -/
theorem sendStage_delivers {addr : ℕ} {data : Bytes} {chunk : ℕ+} (haddr : addr < 2 ^ 32)
    (hdata : data.length < 2 ^ 32) (hchunk : (chunk : ℕ) ≤ 65535) (mode : Checksum) :
    ∃ t, sendStage addr data chunk (opened mode) = .ok () t ∧ Delivered addr data chunk t := by
  obtain ⟨t, run, -, device⟩ :=
    perform_accepted (stage_commands haddr hdata hchunk) (opened_ready mode)
  obtain ⟨-, -, written⟩ := sent_traced.perform_ok (fun _ _ => trivial) trivial run
  obtain ⟨address, declared⟩ := unpack_words .big haddr hdata []
  rw [Package.stage_eq haddr hdata, List.foldl_cons, List.foldl_append, foldl_pieces,
    Pieces.pieces_flatten] at device
  have whole : t.device = {
      mode := mode
      body := []
      accepted := (bslCmdStartData, fields .big 4 [addr, data.length]) ::
        ((Pieces.pieces chunk data).map (fun piece => (bslCmdMidstData, piece)) ++
          [(bslCmdEndData, [])])
      rejected := []
      image := some ⟨addr, data.length, data, true⟩ } := by
    rw [device]
    simp [accepting, Receiver.accept, Receiver.execute, opened, Port.fresh, Receiver.empty, address,
      declared, bslCmdStartData, bslCmdMidstData, bslCmdEndData]
  refine ⟨t, by rw [sendStage_eq, run], ⟨by rw [whole], ?_,
    ⟨Pieces.pieces chunk data, ?_, by rw [whole]⟩,
    by rw [whole]⟩⟩
  · rw [written, whole, Package.stage_eq haddr hdata]
    simp [opened, Port.fresh, emits, sentCmds, Package.pieces_sent, Function.comp_def]
  · intro piece hp
    have bound := Pieces.mem_pieces hp
    exact ⟨bound.1, bound.2.1⟩

theorem sendStage_flags : ∃ t,
    sendStage 0x60010000 (List.replicate 600 0x7E) defaultChunk (opened .crc) = .ok () t ∧
      Delivered 0x60010000 (List.replicate 600 0x7E) defaultChunk t :=
  sendStage_delivers (by decide) (by rw [List.length_replicate]; decide) (by decide) .crc

end SprdFlash.Delivery
