import SprdFlash.Obedience
import SprdFlash.PdlTransfer
import SprdFlash.Tracking
import SprdFlash.Library.Mealy

/-!
The modem on the wire. Under PDL it gathers a packet by the length in its header, under
BSL what stands between two flags; it answers every message with the code of the
command in it, and a lone flag between two messages with its version. A device that
hosts the modem may deliver what it sends in any interleaving with empty reads, and
every operation of the host that the modem takes returns.
-/

namespace SprdFlash

open Message Port SpdIO Native Struct Script Plan Exchange WireLog Acknowledging PdlFraming Packets

inductive Modem.Link
  | pdl
  | bsl
  deriving DecidableEq, Repr

structure Modem where
  link : Modem.Link
  core : Modem.Core
  /-- What was written after the last message. -/
  buffer : Bytes
  version : { text : Bytes // text.length < 65536 }

namespace Modem

/-- The response of the download agent: magic, length, a header nobody reads, a status. -/
def response (status : ℕ) : Bytes :=
  Pdl.pdlMagic :: (fields .little 2 [4] ++
    ([0x00, 0x00, 0xFF, 0x00, 0x00] ++ fields .little 4 [status]))

/-- A PDL payload. EXEC leaves the line to the loader it starts. -/
def request (m : Modem) (payload : Bytes) : Modem × Bytes :=
  match PdlTransfer.read payload with
  | none => ({ m with core := (m.core.refuse bslRepUnknownCmd).1 }, response bslRepUnknownCmd)
  | some sent =>
    let (core, code) := m.core.hear sent
    if code ≠ bslRepAck then ({ m with core }, response code)
    else if orderOf sent = Order.exec then ({ m with core, link := .bsl }, [])
    else ({ m with core }, response 0)

def frame (m : Modem) (body : Bytes) : Modem × Bytes :=
  match Delivery.Receiver.verify .sprd body with
  | none => ({ m with core := (m.core.refuse bslRepVerifyError).1 },
      wireMessage bslRepVerifyError [] .sprd)
  | some (cmd, data) =>
    let (core, code) := m.core.hear (.bsl cmd data)
    ({ m with core }, wireMessage code [] .sprd)

def feed (m : Modem) (b : UInt8) : Modem × Bytes :=
  match m.link with
  | .pdl =>
    let buffer := sync agent (m.buffer ++ [b])
    if Complete agent buffer then { m with buffer := [] }.request (payload agent buffer)
    else ({ m with buffer }, [])
  | .bsl =>
    if b = hdlcFlag then
      if m.buffer = [] then (m, []) else { m with buffer := [] }.frame (hdlcUnescape m.buffer)
    else ({ m with buffer := m.buffer ++ [b] }, [])

def listen (m : Modem) (bs : Bytes) : Modem × Bytes :=
  if m.link = .bsl ∧ m.buffer = [] ∧ bs = [hdlcFlag] then (m, wireMessage bslRepVer m.version .sprd)
  else Mealy.run feed m bs

instance : Device Modem where
  attach m := (m, some [])
  discards _ := true
  onWrite m bs := some ((m.listen bs).1, (m.listen bs).2.map .byte)

/-- A device that is this modem and a line that loses nothing. -/
class Hosted (σ : Type) [Device σ] where
  modem : σ → Modem
  attach : ∀ d : σ, ∃ d' events, Device.attach d = (d', some events) ∧ Delivers events [] ∧
    modem d' = modem d
  write : ∀ (d : σ) (bs : Bytes), ∃ d' events, Device.onWrite d bs = some (d', events) ∧
    Delivers events ((modem d).listen bs).2 ∧ modem d' = ((modem d).listen bs).1

instance : Hosted Modem where
  modem m := m
  attach m := ⟨m, [], rfl, ⟨by simp, rfl⟩, rfl⟩
  write m bs := ⟨_, _, rfl, Acker.delivers_bytes _, rfl⟩

/-- What the host writes in a BSL session in the sum-checksum dialect. -/
def Said (bs : Bytes) : Prop :=
  bs = [hdlcFlag] ∨ ∃ cmd data, Framable cmd data ∧ bs = wireMessage cmd data .sprd

/-- A device that is this modem for what is said to it between two messages, as long as it
is sound. -/
class Speaker (σ : Type) [Device σ] where
  modem : σ → Modem
  sound : σ → Prop
  attach : ∀ d : σ, sound d → ∃ d' events, Device.attach d = (d', some events) ∧
    Delivers events [] ∧ modem d' = modem d ∧ sound d'
  speak : ∀ (d : σ) (bs : Bytes), sound d → (modem d).link = .bsl →
    (modem d).buffer = [] → Said bs →
    ∃ d' events, Device.onWrite d bs = some (d', events) ∧
      Delivers events ((modem d).listen bs).2 ∧ modem d' = ((modem d).listen bs).1 ∧ sound d'

theorem hosted_attach {σ : Type} [Device σ] [Hosted σ] (d : σ) : ∃ d' events,
    Device.attach d = (d', some events) ∧ Delivers events [] ∧ Hosted.modem d' = Hosted.modem d ∧
      True := by
  obtain ⟨d', events, attached, quiet, same⟩ := Hosted.attach d
  exact ⟨d', events, attached, quiet, same, trivial⟩

theorem hosted_speak {σ : Type} [Device σ] [Hosted σ] (d : σ) (bs : Bytes) : ∃ d' events,
    Device.onWrite d bs = some (d', events) ∧ Delivers events ((Hosted.modem d).listen bs).2 ∧
      Hosted.modem d' = ((Hosted.modem d).listen bs).1 ∧ True := by
  obtain ⟨d', events, reaction, delivered, became⟩ := Hosted.write d bs
  exact ⟨d', events, reaction, delivered, became, trivial⟩

instance {σ : Type} [Device σ] [Hosted σ] : Speaker σ where
  modem := Hosted.modem
  sound _ := True
  attach d _ := hosted_attach d
  speak d bs _ _ _ _ := hosted_speak d bs

theorem speaker_hosted {σ : Type} [Device σ] [Hosted σ] (d : σ) :
    Speaker.modem d = Hosted.modem d := rfl

/-- By induction on what is still to come of a packet. -/
theorem feed_packet {m : Modem} (link : m.link = .pdl) (p : Packet agent) {buf : Bytes} {b : UInt8}
    {later : Bytes} (split : p.wire = buf ++ b :: later) :
    { m with buffer := buf }.feed b =
      if later = [] then { m with buffer := [] }.request p.body
      else ({ m with buffer := buf ++ [b] }, []) := by
  have whole : p.wire = (buf ++ [b]) ++ later := by
    rw [split, List.append_assoc, List.singleton_append]
  have synced : sync agent (buf ++ [b]) = buf ++ [b] := by
    obtain ⟨rest, opens⟩ := p.wire_cons
    cases buf with
    | nil =>
      rw [opens] at split
      cases split
      exact sync_opened agent []
    | cons a buf =>
      rw [opens] at split
      cases split
      exact sync_opened agent _
  have complete := p.complete_iff whole
  simp only [feed, link, synced, complete]
  by_cases last : later = []
  · subst last
    have body := p.payload_wire []
    rw [List.append_nil, whole, List.append_nil] at body
    rw [if_pos rfl, if_pos rfl, body]
  · rw [if_neg last, if_neg last]

theorem listen_run {m : Modem} {bs : Bytes} (other : bs ≠ [hdlcFlag]) :
    m.listen bs = Mealy.run feed m bs := by
  rw [listen, if_neg fun h => other h.2.2]

theorem listen_part {m : Modem} (link : m.link = .pdl) (between : m.buffer = []) (p : Packet agent)
    {first later : Bytes} (split : p.wire = first ++ later) (more : later ≠ []) :
    Mealy.run feed m first = ({ m with buffer := first }, []) := by
  have start : m = { m with buffer := [] } := by rw [← between]
  rw [start]
  refine @Mealy.run_gathers _ _ _ feed (fun buf => { m with buffer := buf }) [] _ ?_
  intro front b rest cut
  have here : p.wire = front ++ b :: (rest ++ later) := by
    rw [split, cut, List.append_assoc, List.cons_append]
  have open' : rest ++ later ≠ [] := fun none => more (List.append_eq_nil_iff.mp none).2
  rw [List.nil_append, feed_packet link p here, if_neg open']

theorem listen_request {m : Modem} (link : m.link = .pdl) (between : m.buffer = [])
    {body : Bytes} (fits : body.length < 65536) (some : body ≠ []) :
    m.listen (pdlHeader body.length) = ({ m with buffer := pdlHeader body.length }, []) ∧
      { m with buffer := pdlHeader body.length }.listen body = m.request body := by
  have wire : (built body fits).wire = pdlHeader body.length ++ body := built_wire body fits
  have header := listen_part link between (built body fits) wire some
  have whole : Mealy.run feed m (pdlHeader body.length ++ body) = m.request body := by
    obtain ⟨front, b, last⟩ := List.eq_nil_or_concat' body |>.resolve_left some
    have split : (built body fits).wire = (pdlHeader body.length ++ front) ++ b :: [] := by
      rw [wire, List.append_assoc, ← last]
    have part := listen_part link between (built body fits) split (by simp)
    have same : { m with buffer := [] } = m := by rw [← between]
    rw [← wire, split, Mealy.run_append, part, Mealy.run_singleton, feed_packet link _ split,
      if_pos rfl, same]
    rfl
  have plain : { m with buffer := pdlHeader body.length }.listen body =
      Mealy.run feed { m with buffer := pdlHeader body.length } body := by
    rw [listen, if_neg fun h => by simp [link] at h]
  refine ⟨(listen_run (by simp [pdlHeader])).trans header, ?_⟩
  rw [Mealy.run_append, header] at whole
  rw [plain, ← whole]
  rfl

theorem feed_content (core : Core) (version : { text : Bytes // text.length < 65536 })
    {content : Bytes} (plain : hdlcFlag ∉ content) :
    Mealy.run feed ⟨.bsl, core, [], version⟩ content = (⟨.bsl, core, content, version⟩, []) := by
  refine @Mealy.run_gathers _ _ _ feed (fun buf => ⟨.bsl, core, buf, version⟩) [] _ ?_
  intro front b rest split
  have other : b ≠ hdlcFlag := by
    rintro rfl
    refine plain ?_
    rw [split]
    exact List.mem_append_right _ List.mem_cons_self
  simp only [feed, if_neg other, List.nil_append]

theorem listen_frame {m : Modem} (link : m.link = .bsl) (between : m.buffer = []) {cmd : ℕ}
    {data : Bytes} (fits : Framable cmd data) :
    m.listen (wireMessage cmd data .sprd) = ({ m with core := (m.core.hear (.bsl cmd data)).1 },
      wireMessage (m.core.hear (.bsl cmd data)).2 [] .sprd) := by
  obtain ⟨_, core, _, version⟩ := m
  cases link
  cases between
  have clean := clean_escape_messageBody cmd data .sprd
  have wire : wireMessage cmd data .sprd =
      hdlcFlag :: (Stuffing.escape hdlc (messageBody cmd data .sprd) ++ [hdlcFlag]) := rfl
  have inside := feed_content core version clean.2
  have closing : feed ⟨.bsl, core, Stuffing.escape hdlc (messageBody cmd data .sprd),
    version⟩ hdlcFlag =
      frame ⟨.bsl, core, [], version⟩ (messageBody cmd data .sprd) := by
    simp only [feed, if_pos, if_neg clean.1, hdlcUnescape_escape]
  have opening : feed ⟨.bsl, core, [], version⟩ hdlcFlag = (⟨.bsl, core, [], version⟩, []) := rfl
  have long : wireMessage cmd data .sprd ≠ [hdlcFlag] := by
    rw [wire]
    simp
  rw [listen_run long, wire, Mealy.run, opening]
  simp only
  rw [Mealy.run_append, inside, Mealy.run_singleton, closing, frame,
    Delivery.Receiver.verify_messageBody fits]
  simp

section Host

/-- Everything that arrived has been read and the modem stands between two messages. -/
structure Ready {σ : Type} [Device σ] [Speaker σ] (link : Link) (core : Core)
    (version : { text : Bytes // text.length < 65536 }) (s : Port σ) : Prop where
  idle : Idle s
  here : Speaker.modem s.device = ⟨link, core, [], version⟩
  sound : Speaker.sound s.device

variable {version : { text : Bytes // text.length < 65536 }}

section Speaking

variable {σ : Type} [Device σ] [Speaker σ]

theorem write_said {core : Core} {s : Port σ} (ready : Ready .bsl core version s) {bs : Bytes}
    (said : Said bs) :
    let m : Modem := ⟨.bsl, core, [], version⟩
    ∃ t, write bs s = .ok () t ∧ Delivers t.pending (m.listen bs).2 ∧
      Speaker.modem t.device = (m.listen bs).1 ∧ Speaker.sound t.device ∧
        t.checksum = s.checksum := by
  obtain ⟨idle, here, sound⟩ := ready
  obtain ⟨d', events, reaction, delivered, became, sound'⟩ :=
    Speaker.speak s.device bs sound (by rw [here]) (by rw [here]) said
  rw [here] at delivered became
  obtain ⟨t, sent, arrived, device, mode⟩ := write_answered idle reaction delivered
  exact ⟨t, sent, arrived, device ▸ became, device ▸ sound', mode⟩

theorem flag_said {core : Core} {s : Port σ} (ready : Ready .bsl core version s) :
    ∃ t, write [hdlcFlag] s = .ok () t ∧
      Delivers t.pending (wireMessage bslRepVer version.val .sprd) ∧
      Speaker.modem t.device = ⟨.bsl, core, [], version⟩ ∧ Speaker.sound t.device ∧
      t.checksum = s.checksum := by
  obtain ⟨t, sent, arrived, became, sound, mode⟩ := write_said ready (.inl rfl)
  exact ⟨t, sent, arrived, became, sound, mode⟩

theorem send_obeyed {core : Core} {s : Port σ} (ready : Ready .bsl core version s)
    (mode : s.checksum = .sprd) {cmd : ℕ} {data : Bytes} (fits : Framable cmd data) :
    ∃ t, send cmd data s = .ok () t ∧
      Delivers t.pending (wireMessage (core.hear (.bsl cmd data)).2 [] .sprd) ∧
      Speaker.modem t.device = ⟨.bsl, (core.hear (.bsl cmd data)).1, [], version⟩ ∧
      Speaker.sound t.device ∧ t.checksum = .sprd := by
  obtain ⟨t, sent, arrived, became, sound, mode'⟩ := write_said ready (.inr ⟨cmd, data, fits, rfl⟩)
  have answered := listen_frame (m := ⟨.bsl, core, [], version⟩) rfl rfl fits
  rw [answered] at arrived became
  rw [← mode, ← send_framable fits] at sent
  exact ⟨t, sent, arrived, became, sound, mode'.trans mode⟩

theorem command_obeyed {core : Core} {s : Port σ} (ready : Ready .bsl core version s)
    (mode : s.checksum = .sprd) {cmd : ℕ} {data : Bytes} (fits : Framable cmd data)
    (taken : (core.hear (.bsl cmd data)).2 = bslRepAck) (what : String) :
    ∃ rdata t, command cmd data bslRepAck what s = .ok rdata t ∧
      Ready .bsl (core.hear (.bsl cmd data)).1 version t ∧ t.checksum = .sprd := by
  obtain ⟨s', sent, arrived, here, sound, mode'⟩ := send_obeyed ready mode fits
  rw [taken] at arrived
  obtain ⟨t, received, idle, device, checksum⟩ := recv_delivers (by decide) arrived
  refine ⟨[], t, ?_, ⟨idle, device ▸ here, device ▸ sound⟩, checksum.trans mode'⟩
  rw [command_def, bind_ok sent, bind_ok received]
  rfl

theorem autobaud_obeyed {core : Core} {s : Port σ} (ready : Ready .bsl core version s)
    {attempts : ℕ} (tries : attempts ≠ 0) :
    ∃ t, autobaud attempts s = .ok version.val t ∧ Ready .bsl core version t ∧
      t.checksum = .sprd := by
  obtain ⟨s₁, sent, arrived, here, sound, -⟩ := flag_said ready
  obtain ⟨s₂, read, idle, device, -⟩ := readFrame_delivers arrived
  have detected : detectChecksum (messageBody bslRepVer version.val .sprd) = some .sprd := by
    rw [Handshake.detectChecksum_eq, if_pos ((Tracking.verifies_messageBody _ _ _ _).mpr rfl)]
  cases attempts with
  | zero => exact absurd rfl tries
  | succ attempts =>
    rw [autobaud_def, autobaudFrom_step, bind_ok sent]
    simp only [SerialLike.tryFrame, SerialLike.settle, bind, EStateM.bind, read, detected,
      parseMessage_messageBody (show bslRepVer < 65536 by decide) version.property, if_true]
    exact ⟨_, rfl, ⟨idle, device ▸ here, device ▸ sound⟩, rfl⟩

end Speaking

section Loading

variable {σ : Type} [Device σ] [Hosted σ]

theorem write_hosted {s : Port σ} (idle : Idle s) {m : Modem} (here : Hosted.modem s.device = m)
    (bs : Bytes) : ∃ t, write bs s = .ok () t ∧ Delivers t.pending (m.listen bs).2 ∧
      Hosted.modem t.device = (m.listen bs).1 ∧ t.checksum = s.checksum := by
  obtain ⟨d', events, reaction, delivered, became⟩ := Hosted.write s.device bs
  rw [here] at delivered became
  obtain ⟨t, sent, arrived, device, mode⟩ := write_answered idle reaction delivered
  exact ⟨t, sent, arrived, device ▸ became, mode⟩

omit [Device σ] [Hosted σ] in
theorem read_pdlPayload (cmd : Pdl.Command) {arg1 arg2 : ℕ} {extra : Bytes}
    (fits : Packable arg1 arg2 extra) :
    PdlTransfer.read (pdlPayload cmd arg1 arg2 extra) = some (.pdl cmd.code arg1 arg2 extra) := by
  obtain ⟨word0, word4, word8, rest12⟩ := pdlPayload_fields cmd fits
  rw [PdlTransfer.read, if_neg (by rw [pdlPayload_length]; omega), word0, word4, word8, rest12]

theorem pdlSend_obeyed {core : Core} {s : Port σ} (ready : Ready .pdl core version s)
    (cmd : Pdl.Command) {arg1 arg2 : ℕ} {extra : Bytes} (fits : Packable arg1 arg2 extra)
    (taken : (core.hear (.pdl cmd.code arg1 arg2 extra)).2 = bslRepAck) :
    ∃ t, Pdl.send (pdlPayload cmd arg1 arg2 extra) s = .ok () t ∧
      let after := (core.hear (.pdl cmd.code arg1 arg2 extra)).1
      if cmd = .exec then Ready .bsl after version t
      else Delivers t.pending (response 0) ∧
        Hosted.modem t.device = ⟨.pdl, after, [], version⟩ := by
  obtain ⟨idle, here, -⟩ := ready
  have small : (pdlPayload cmd arg1 arg2 extra).length < 65536 := by
    rw [pdlPayload_length]
    exact fits.2.2
  have some : pdlPayload cmd arg1 arg2 extra ≠ [] := by
    rw [← List.length_pos_iff, pdlPayload_length]
    omega
  obtain ⟨header, body⟩ := listen_request (m := ⟨.pdl, core, [], version⟩) rfl rfl small some
  obtain ⟨s₁, sent₁, quiet, held, -⟩ := write_hosted idle here
    (pdlHeader (pdlPayload cmd arg1 arg2 extra).length)
  rw [header] at quiet held
  obtain ⟨t, sent₂, arrived, became, -⟩ := write_hosted quiet held (pdlPayload cmd arg1 arg2 extra)
  have sent : Pdl.send (pdlPayload cmd arg1 arg2 extra) s = .ok () t := by
    rw [pdlSend_eq small, bind_ok sent₁, sent₂]
  have isExec : orderOf (.pdl cmd.code arg1 arg2 extra) = Order.exec ↔ cmd = .exec := by
    cases cmd <;> simp [orderOf, Pdl.Command.code]
  have answered : request ⟨.pdl, core, [], version⟩ (pdlPayload cmd arg1 arg2 extra) =
      if cmd = .exec then (⟨.bsl, (core.hear (.pdl cmd.code arg1 arg2 extra)).1, [], version⟩, [])
      else (⟨.pdl, (core.hear (.pdl cmd.code arg1 arg2 extra)).1, [], version⟩, response 0) := by
    simp only [request, read_pdlPayload cmd fits, taken, ne_eq, not_true_eq_false, if_false, isExec]
  rw [body, answered] at arrived became
  refine ⟨t, sent, ?_⟩
  by_cases exec : cmd = .exec
  · simp only [if_pos exec] at arrived became ⊢
    exact ⟨arrived, became, trivial⟩
  · simp only [if_neg exec] at arrived became ⊢
    exact ⟨arrived, became⟩

theorem request_obeyed {core : Core} {s : Port σ} (ready : Ready .pdl core version s)
    {cmd : Pdl.Command}
    (other : cmd ≠ .exec) {arg1 arg2 : ℕ} {extra : Bytes} (fits : Packable arg1 arg2 extra)
    (taken : (core.hear (.pdl cmd.code arg1 arg2 extra)).2 = bslRepAck) :
    ∃ t, Pdl.request cmd arg1 arg2 extra s = .ok () t ∧
      Ready .pdl (core.hear (.pdl cmd.code arg1 arg2 extra)).1 version t := by
  obtain ⟨s', sent, answered⟩ := pdlSend_obeyed ready cmd fits taken
  simp only [if_neg other] at answered
  have wire : response 0 = pdlResponse [0x00, 0x00, 0xFF, 0x00, 0x00] [] := by
    rw [response, pdlResponse, List.append_nil]
    rfl
  obtain ⟨m, t, read, quiet, same⟩ := pdlRecv_delivers rfl (by decide) (wire ▸ answered.1)
  have command : Pdl.command (pdlPayload cmd arg1 arg2 extra) s = .ok m.2 t := by
    rw [Pdl.command, bind_ok sent, bind_ok read]
    rfl
  refine ⟨t, ?_, quiet, same ▸ answered.2, trivial⟩
  rw [request_packable fits, bind_ok command]
  rfl

theorem handOver_obeyed {core : Core} {s : Port σ} (ready : Ready .pdl core version s)
    (taken : (core.hear (.pdl Pdl.Command.exec.code 0 0 [])).2 = bslRepAck) :
    ∃ t, handOver s = .ok () t ∧ Ready .bsl
      (core.hear (.pdl Pdl.Command.exec.code 0 0 [])).1 version t := by
  obtain ⟨s₁, sent, started⟩ := pdlSend_obeyed ready .exec (by decide) taken
  simp only [if_true] at started
  obtain ⟨s₂, kicked, arrived, here, sound, -⟩ := flag_said started
  obtain ⟨rest, heard, quiet⟩ := listen_delivers (List.nil_append _).symm
    (by simp [wireMessage, Stuffing.enclose]) arrived
  have ver : Pdl.execAndGetVer 5000 s =
      .ok (wireMessage bslRepVer version.val .sprd) { s₂ with pending := rest } := by
    have hear : Pdl.hear [] s₂ =
        .ok (.inl (wireMessage bslRepVer version.val .sprd)) { s₂ with pending := rest } :=
      Pdl.hear_of_ok heard
    rw [execAndGetVer_eq, bind_ok sent, Pdl.kickLoop, bind_ok kicked, bind_ok hear]
    rfl
  refine ⟨{ s₂ with pending := rest, log := s₂.log ++ [.version version.val] }, ?_,
    quiet, here, sound⟩
  rw [handOver, bind_ok ver]
  simp only [strip_wireMessage, hdlcUnescape_escape,
    parseMessage_messageBody (show bslRepVer < 65536 by decide) version.property]
  rfl

end Loading

end Host

end Modem

end SprdFlash
