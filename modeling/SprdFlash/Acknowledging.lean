import SprdFlash.Framing
import SprdFlash.PdlFraming
import SprdFlash.Runs

/-!
Devices that acknowledge every command and never fail. A reply arrives complete
and in order, in any interleaving with empty reads, and before any loop gives
up. Against such a device every step succeeds that can succeed at all, so a run
stops only where the package makes it stop.
-/

namespace SprdFlash.Acknowledging

open Message Port Pac SpdIO Flasher Native Struct Script Plan Exchange WireLog Runs

/-- Bytes in any interleaving with empty reads. -/
def Delivers (events : List Event) (bs : Bytes) : Prop :=
  (∀ ev ∈ events, ev = .idle ∨ ∃ b, ev = .byte b) ∧ received events = bs

namespace Delivers

variable {events rest : List Event} {bs : Bytes}

theorem live (h : Delivers events bs) : Live events := by
  intro ev hev
  rcases h.1 ev hev with rfl | ⟨b, rfl⟩
  · simp
  · simp

theorem append {xs ys : List Event} {as : Bytes} (hx : Delivers xs as) (hy : Delivers ys bs) :
    Delivers (xs ++ ys) (as ++ bs) := by
  refine ⟨?_, by rw [received_append, hx.2, hy.2]⟩
  intro ev hev
  rcases List.mem_append.mp hev with hev | hev
  · exact hx.1 ev hev
  · exact hy.1 ev hev

theorem suffix {after : List Event} (h : Delivers events bs) (part : after <:+ events) :
    Delivers after (received after) :=
  ⟨fun ev hev => h.1 ev (part.subset hev), rfl⟩

theorem cons_idle (h : Delivers (.idle :: rest) bs) : Delivers rest bs :=
  ⟨fun ev hev => h.1 ev (List.mem_cons_of_mem _ hev), h.2⟩

theorem readUpTo (n : ℕ) (h : Delivers events bs) :
    ∃ first later unread, Port.readUpTo n events = (some first, unread) ∧
      bs = first ++ later ∧ Delivers unread later := by
  obtain ⟨first, unread, run, split, suffix⟩ := PdlFraming.readUpTo_live n h.live
  exact ⟨first, received unread, unread, run, h.2 ▸ split, h.suffix suffix⟩

end Delivers

def pdlResponse (skipped extra : Bytes) : Bytes :=
  Pdl.pdlMagic :: (fields .little 2 [extra.length + 4] ++
    (skipped ++ (fields .little 4 [0] ++ extra)))

class AckDevice (σ : Type) [Device σ] : Prop where
  attach : ∀ d : σ, ∃ d' events, Device.attach d = (d', some events) ∧ Delivers events []
  bsl : ∀ (d : σ) (cmd : ℕ) (data : Bytes) (mode : Checksum), Framable cmd data →
    cmd ≠ bslCmdNormalReset → ∃ d' events rdata rmode,
      Device.onWrite d (wireMessage cmd data mode) = some (d', events) ∧
      rdata.length < 65536 ∧ Delivers events (wireMessage bslRepAck rdata rmode)
  /-- The reply to a reset is never read and may be anything. -/
  reset : ∀ (d : σ) (mode : Checksum), ∃ reaction,
    Device.onWrite d (wireMessage bslCmdNormalReset [] mode) = some reaction
  flag : ∀ d : σ, ∃ d' events vdata vmode, Device.onWrite d [hdlcFlag] = some (d', events) ∧
    vdata.length < 65536 ∧ Delivers events (wireMessage bslRepVer vdata vmode)
  header : ∀ (d : σ) (length : ℕ), length < 65536 →
    ∃ d' events, Device.onWrite d (pdlHeader length) = some (d', events) ∧ Delivers events []
  request : ∀ (d : σ) (cmd : Pdl.Command) (arg1 arg2 : ℕ) (extra : Bytes), cmd ≠ .exec →
    Packable arg1 arg2 extra → ∃ d' events skipped rextra,
      Device.onWrite d (pdlPayload cmd arg1 arg2 extra) = some (d', events) ∧
      skipped.length = 5 ∧ rextra.length + 4 < 65536 ∧
      Delivers events (pdlResponse skipped rextra)
  exec : ∀ d : σ, ∃ d' events, Device.onWrite d (pdlPayload .exec 0 0 []) = some (d', events) ∧
    Delivers events []

/-- Devices that acknowledge every BSL command, whatever else they do. -/
class AcksCommands (σ : Type) [Device σ] : Prop where
  bsl : ∀ (d : σ) (cmd : ℕ) (data : Bytes) (mode : Checksum), Framable cmd data →
    cmd ≠ bslCmdNormalReset → ∃ d' events rdata rmode,
      Device.onWrite d (wireMessage cmd data mode) = some (d', events) ∧
      rdata.length < 65536 ∧ Delivers events (wireMessage bslRepAck rdata rmode)

instance (σ : Type) [Device σ] [AckDevice σ] : AcksCommands σ := ⟨AckDevice.bsl⟩

/-- Devices that acknowledge every PDL request but EXEC, whatever else they do. -/
class AcksRequests (σ : Type) [Device σ] : Prop where
  header : ∀ (d : σ) (length : ℕ), length < 65536 →
    ∃ d' events, Device.onWrite d (pdlHeader length) = some (d', events) ∧ Delivers events []
  request : ∀ (d : σ) (cmd : Pdl.Command) (arg1 arg2 : ℕ) (extra : Bytes), cmd ≠ .exec →
    Packable arg1 arg2 extra → ∃ d' events skipped rextra,
      Device.onWrite d (pdlPayload cmd arg1 arg2 extra) = some (d', events) ∧
      skipped.length = 5 ∧ rextra.length + 4 < 65536 ∧
      Delivers events (pdlResponse skipped rextra)

instance (σ : Type) [Device σ] [AckDevice σ] : AcksRequests σ :=
  ⟨AckDevice.header, AckDevice.request⟩

variable {σ : Type}

def Idle (s : Port σ) : Prop := Delivers s.pending []

section Reading

theorem readFrame_delivers {s : Port σ} {cmd : ℕ} {data : Bytes} {mode : Checksum}
    (h : Delivers s.pending (wireMessage cmd data mode)) :
    ∃ t, readFrame s = .ok (messageBody cmd data mode) t ∧ Idle t ∧ t.device = s.device ∧
      t.checksum = s.checksum := by
  have found : Stuffing.next hdlc .seeking (received s.pending) =
      some (Stuffing.escape hdlc (messageBody cmd data mode), []) := by
    have next := Stuffing.next_enclose hdlc (show hdlc.flag ∉ ([] : Bytes) by simp)
      (clean_escape_messageBody cmd data mode) 0 []
    rw [h.2]
    simpa [wireMessage] using next
  obtain ⟨after, run, bytes, suffix, -⟩ := Framing.readFrame_next h.live found
  rw [hdlcUnescape_escape] at run
  refine ⟨_, run, ?_, rfl, rfl⟩
  have delivered := h.suffix suffix
  rwa [bytes] at delivered

theorem recv_delivers {s : Port σ} {cmd : ℕ} {data : Bytes} {mode : Checksum}
    (fits : Framable cmd data) (h : Delivers s.pending (wireMessage cmd data mode)) :
    ∃ t, recv s = .ok (cmd, data) t ∧ Idle t ∧ t.device = s.device ∧
      t.checksum = s.checksum := by
  obtain ⟨t, run, idle, same⟩ := readFrame_delivers h
  refine ⟨t, ?_, idle, same⟩
  rw [recv_def, bind_ok run, parseMessage_messageBody fits.1 fits.2]
  rfl

theorem listen_byte (buf : Bytes) (b : UInt8) (rest unread : List Event) {bs : Bytes}
    (h : readUpTo 64 (.byte b :: rest) = (some bs, unread)) :
    Pdl.listen buf (.byte b :: rest) =
      match Pdl.verFrame (buf ++ bs) with
      | some ver => (.ok (.inl ver), unread)
      | none => Pdl.listen (buf ++ bs) unread := by
  rw [Pdl.listen]
  split
  · rename_i failed _
    rw [h] at failed
    cases failed
  · rename_i taken _
    rw [h] at taken
    cases taken
    rfl

theorem listen_fault (buf : Bytes) (b : UInt8) (rest unread : List Event)
    (h : readUpTo 64 (.byte b :: rest) = (none, unread)) :
    Pdl.listen buf (.byte b :: rest) = (.error (.osError "read failed"), unread) := by
  rw [Pdl.listen]
  split
  · rename_i taken _
    rw [h] at taken
    cases taken
    rfl
  · rename_i taken _
    rw [h] at taken
    cases taken

theorem pdlRecv_delivers {skipped extra : Bytes} (five : skipped.length = 5)
    (fits : extra.length + 4 < 65536) {s : Port σ}
    (h : Delivers s.pending (pdlResponse skipped extra)) :
    ∃ m t, Pdl.recv s = .ok m t ∧ Idle t ∧ t.device = s.device := by
  have length : (fields .little 4 [0] ++ extra).length = extra.length + 4 := by
    simp [fields]
    omega
  have wire : pdlResponse skipped extra =
      (PdlFraming.packet skipped (fields .little 4 [0] ++ extra) five (length ▸ fits)).wire := by
    rw [pdlResponse, Packets.Packet.wire, PdlFraming.packet]
    simp only [length]
    simp [fields]
  obtain ⟨rest, run, done, suffix⟩ := PdlFraming.recv_packet _
    (List.not_mem_nil (a := Pdl.pdlMagic)) h.live
    (h.2.trans (wire.trans (List.nil_append _).symm))
  refine ⟨_, _, run, ?_, rfl⟩
  have delivered := h.suffix suffix
  rwa [done] at delivered

theorem verFrame_wireMessage {cmd : ℕ} {data buf later : Bytes} {mode : Checksum}
    (split : wireMessage cmd data mode = buf ++ later) :
    Pdl.verFrame buf = if later = [] then some (wireMessage cmd data mode) else none := by
  have clean := clean_escape_messageBody cmd data mode
  generalize hw : Stuffing.escape hdlc (messageBody cmd data mode) = w at clean
  have wire : wireMessage cmd data mode = hdlcFlag :: (w ++ [hdlcFlag]) := by
    rw [wireMessage, hw]
    rfl
  have noFlag : hdlcFlag ∉ w := clean.2
  rw [wire] at split ⊢
  cases buf with
  | nil =>
    rw [List.nil_append] at split
    rw [← split, if_neg (by simp)]
    rfl
  | cons b buf =>
    have first : hdlcFlag = b := (List.cons.inj split).1
    have whole : w ++ [hdlcFlag] = buf ++ later := (List.cons.inj split).2
    subst first
    rw [Pdl.verFrame, List.dropWhile_cons_of_neg (by simp)]
    simp only
    by_cases done : later = []
    · subst done
      rw [List.append_nil] at whole
      have front : (w ++ [hdlcFlag]).takeWhile (· ≠ hdlcFlag) = w := by
        rw [List.takeWhile_append_of_pos]
        · simp
        · intro x hx
          have other : x ≠ hdlcFlag := fun same => noFlag (same ▸ hx)
          simp [other]
      rw [if_pos rfl, ← whole, if_pos (by simp), front]
      rfl
    · have inside : hdlcFlag ∉ buf := by
        have last : later ≠ [] := done
        have dropped : w = buf ++ later.dropLast := by
          have h := congrArg List.dropLast whole
          rwa [List.dropLast_concat, List.dropLast_append_of_ne_nil last] at h
        intro mem
        exact noFlag (by rw [dropped]; exact List.mem_append_left _ mem)
      rw [if_neg inside, if_neg done]

theorem listen_delivers {cmd : ℕ} {data buf later : Bytes} {mode : Checksum}
    {events : List Event} (split : wireMessage cmd data mode = buf ++ later) (more : later ≠ [])
    (h : Delivers events later) :
    ∃ rest, Pdl.listen buf events = (.ok (.inl (wireMessage cmd data mode)), rest) ∧
      Delivers rest [] := by
  induction hn : events.length using Nat.strong_induction_on generalizing buf later events with
  | _ n ih =>
    cases events with
    | nil => exact absurd h.2.symm more
    | cons ev rest =>
      rcases h.1 ev List.mem_cons_self with rfl | ⟨b, rfl⟩
      · rw [Pdl.listen]
        exact ih rest.length (by rw [← hn]; simp) split more h.cons_idle rfl
      · obtain ⟨first, later', unread, run, cut, delivered⟩ := h.readUpTo 64
        have shorter := readUpTo_byte_length 63 b rest
        rw [run] at shorter
        simp only at shorter
        have split' : wireMessage cmd data mode = (buf ++ first) ++ later' := by
          rw [split, cut, List.append_assoc]
        rw [listen_byte buf b rest unread run, verFrame_wireMessage split']
        by_cases done : later' = []
        · rw [if_pos done]
          subst done
          exact ⟨unread, rfl, delivered⟩
        · rw [if_neg done]
          exact ih unread.length (by omega) split' done delivered rfl

theorem dropWhile_flag {w : Bytes} (clean : Stuffing.Clean hdlc w) (rest : Bytes) :
    (w ++ rest).dropWhile (· = hdlcFlag) = w ++ rest := by
  cases w with
  | nil => exact absurd rfl clean.1
  | cons b w =>
    have other : b ≠ hdlcFlag := by
      intro same
      apply clean.2
      rw [same]
      exact List.mem_cons_self
    rw [List.cons_append, List.dropWhile_cons_of_neg (by simp [other])]

theorem strip_flags {w : Bytes} (noFlag : hdlcFlag ∉ w) :
    (((hdlcFlag :: w ++ [hdlcFlag]).dropWhile (· = hdlcFlag)).reverse.dropWhile
      (· = hdlcFlag)).reverse = w := by
  by_cases empty : w = []
  · subst empty
    decide
  · have clean : Stuffing.Clean hdlc w := ⟨empty, noFlag⟩
    have clean' : Stuffing.Clean hdlc w.reverse :=
      ⟨by simpa using empty, fun mem => noFlag (List.mem_reverse.mp mem)⟩
    have back := dropWhile_flag clean' []
    rw [List.append_nil] at back
    rw [List.cons_append, List.dropWhile_cons_of_pos (by simp), dropWhile_flag clean,
      List.reverse_append, List.reverse_singleton, List.singleton_append,
      List.dropWhile_cons_of_pos (by simp), back, List.reverse_reverse]

theorem strip_wireMessage (cmd : ℕ) (data : Bytes) (mode : Checksum) :
    (((wireMessage cmd data mode).dropWhile (· = hdlcFlag)).reverse.dropWhile
      (· = hdlcFlag)).reverse = Stuffing.escape hdlc (messageBody cmd data mode) :=
  strip_flags (clean_escape_messageBody cmd data mode).2

end Reading

variable [Device σ]

theorem write_answered {s : Port σ} (idle : Idle s) {bs as : Bytes} {d' : σ}
    {events : List Event} (reaction : Device.onWrite s.device bs = some (d', events))
    (delivered : Delivers events as) :
    ∃ t, write bs s = .ok () t ∧ Delivers t.pending as ∧ t.device = d' ∧
      t.checksum = s.checksum :=
  ⟨_, write_of_some reaction, idle.append delivered, rfl, rfl⟩

theorem command_idle [AcksCommands σ] {cmd : ℕ} {data : Bytes} (fits : Framable cmd data)
    (other : cmd ≠ bslCmdNormalReset) (what : String) {s : Port σ} (idle : Idle s) :
    ∃ rdata t, command cmd data bslRepAck what s = .ok rdata t ∧ Idle t := by
  obtain ⟨d', events, rdata, rmode, reaction, small, delivered⟩ :=
    AcksCommands.bsl s.device cmd data s.checksum fits other
  obtain ⟨s', sent, arrived, -⟩ := write_answered idle reaction delivered
  rw [← send_framable fits] at sent
  obtain ⟨t, received, idle', -⟩ := recv_delivers ⟨by decide, small⟩ arrived
  refine ⟨rdata, t, ?_, idle'⟩
  rw [command_def, bind_ok sent, bind_ok received]
  rfl

theorem request_idle [AcksRequests σ] {cmd : Pdl.Command} (other : cmd ≠ .exec) {arg1 arg2 : ℕ}
    {extra : Bytes} (fits : Packable arg1 arg2 extra) {s : Port σ} (idle : Idle s) :
    ∃ t, Pdl.request cmd arg1 arg2 extra s = .ok () t ∧ Idle t := by
  have small : (pdlPayload cmd arg1 arg2 extra).length < 65536 := by
    rw [pdlPayload_length]
    exact fits.2.2
  obtain ⟨d₁, events₁, reaction₁, delivered₁⟩ := AcksRequests.header s.device _ small
  obtain ⟨s₁, sent₁, idle₁, -⟩ := write_answered idle reaction₁ delivered₁
  obtain ⟨d₂, events₂, skipped, rextra, reaction₂, five, rsmall, delivered₂⟩ :=
    AcksRequests.request s₁.device cmd arg1 arg2 extra other fits
  obtain ⟨s₂, sent₂, arrived, -⟩ := write_answered idle₁ reaction₂ delivered₂
  obtain ⟨m, t, read, quiet, -⟩ := pdlRecv_delivers five rsmall arrived
  refine ⟨t, ?_, quiet⟩
  have sent : Pdl.send (pdlPayload cmd arg1 arg2 extra) s = .ok () s₂ := by
    rw [pdlSend_eq small, bind_ok sent₁, sent₂]
  have command : Pdl.command (pdlPayload cmd arg1 arg2 extra) s = .ok m.2 t := by
    rw [Pdl.command, bind_ok sent, bind_ok read]
    rfl
  rw [request_packable fits, bind_ok command]
  rfl

variable [AckDevice σ]

theorem handOver_idle {s : Port σ} (idle : Idle s) : ∃ t, handOver s = .ok () t ∧ Idle t := by
  obtain ⟨d₁, events₁, reaction₁, delivered₁⟩ :=
    AckDevice.header s.device (pdlPayload .exec 0 0 []).length (by decide)
  obtain ⟨s₁, sent₁, idle₁, -⟩ := write_answered idle reaction₁ delivered₁
  obtain ⟨d₂, events₂, reaction₂, delivered₂⟩ := AckDevice.exec s₁.device
  obtain ⟨s₂, sent₂, idle₂, -⟩ := write_answered idle₁ reaction₂ delivered₂
  obtain ⟨d₃, events₃, vdata, vmode, reaction₃, small, delivered₃⟩ := AckDevice.flag s₂.device
  obtain ⟨s₃, sent₃, arrived, -⟩ := write_answered idle₂ reaction₃ delivered₃
  obtain ⟨rest, heard, quiet⟩ := listen_delivers (List.nil_append _).symm
    (by simp [wireMessage, Stuffing.enclose]) arrived
  have ver : Pdl.execAndGetVer 5000 s =
      .ok (wireMessage bslRepVer vdata vmode) { s₃ with pending := rest } := by
    have sent : Pdl.send (pdlPayload .exec 0 0 []) s = .ok () s₂ := by
      rw [pdlSend_eq (by decide), bind_ok sent₁, sent₂]
    have hear : Pdl.hear [] s₃ =
        .ok (.inl (wireMessage bslRepVer vdata vmode)) { s₃ with pending := rest } :=
      Pdl.hear_of_ok heard
    rw [execAndGetVer_eq, bind_ok sent, Pdl.kickLoop, bind_ok sent₃, bind_ok hear]
    rfl
  refine ⟨{ s₃ with pending := rest, log := s₃.log ++ [.version vdata] }, ?_, quiet⟩
  rw [handOver, bind_ok ver]
  simp only [strip_wireMessage, hdlcUnescape_escape,
    parseMessage_messageBody (show bslRepVer < 65536 by decide) small]
  rfl

theorem autobaud_idle {attempts : ℕ} (some : attempts ≠ 0) {s : Port σ} (idle : Idle s) :
    ∃ version t, autobaud attempts s = .ok version t ∧ Idle t := by
  obtain ⟨d', events, vdata, vmode, reaction, small, delivered⟩ := AckDevice.flag s.device
  obtain ⟨s₁, sent, arrived, -⟩ := write_answered idle reaction delivered
  obtain ⟨s₂, read, idle', -⟩ := readFrame_delivers arrived
  cases attempts with
  | zero => exact absurd rfl some
  | succ attempts =>
    rw [autobaud_def, autobaudFrom_step, bind_ok sent]
    simp only [SerialLike.tryFrame, SerialLike.settle, bind, EStateM.bind, read,
      parseMessage_messageBody (show bslRepVer < 65536 by decide) small, if_true]
    cases detectChecksum (messageBody bslRepVer vdata vmode) with
    | none => exact ⟨vdata, _, rfl, idle'⟩
    | some mode => exact ⟨vdata, _, rfl, idle'⟩

omit [AckDevice σ] in
theorem command_halts {cmd : ℕ} {data : Bytes} (large : ¬ Framable cmd data) (what : String)
    (s : Port σ) : ∃ e, command cmd data bslRepAck what s = .error e s ∧
      ∀ msg, e ≠ .protocolError msg := by
  obtain ⟨e, refused, other⟩ := send_unframable large s
  exact ⟨e, bind_error refused, other⟩

theorem step_obliging : Obliging (Step.exec (σ := σ)) Answered Idle halts where
  ok := by
    intro i s answered idle go
    cases i with
    | request cmd arg1 arg2 extra =>
      exact request_idle answered (by simpa [halts] using go) idle
    | handOver => exact handOver_idle idle
    | setChecksum mode => exact ⟨_, rfl, idle⟩
    | autobaud attempts =>
      obtain ⟨version, t, run, idle'⟩ := autobaud_idle (by simpa [halts] using go) idle
      exact ⟨t, bind_ok run, idle'⟩
    | command cmd data what =>
      obtain ⟨rdata, t, run, idle'⟩ := command_idle (by simpa [halts] using go) answered what idle
      exact ⟨t, bind_ok run, idle'⟩
    | lenient cmd data what =>
      obtain ⟨rdata, t, run, idle'⟩ := command_idle (by simpa [halts] using go) answered what idle
      refine ⟨t, ?_, idle'⟩
      rw [Step.exec, tolerating, bind_ok run]
      rfl
    | send cmd data => exact answered.elim
    | fail e => cases go
  error := by
    intro i s answered idle stop
    cases i with
    | request cmd arg1 arg2 extra => exact request_unpackable (by simpa [halts] using stop) s
    | handOver => cases stop
    | setChecksum mode => cases stop
    | autobaud attempts =>
      have none : attempts = 0 := by simpa [halts] using stop
      subst none
      exact ⟨_, rfl⟩
    | command cmd data what =>
      obtain ⟨e, run, -⟩ := command_halts (by simpa [halts] using stop) what s
      exact ⟨e, bind_error run⟩
    | lenient cmd data what =>
      obtain ⟨e, run, other⟩ := command_halts (by simpa [halts] using stop) what s
      refine ⟨e, ?_⟩
      rw [Step.exec, tolerating, bind_error run]
      cases e <;> first | rfl | exact absurd rfl (other _)
    | send cmd data => exact answered.elim
    | fail e => exact ⟨e, rfl⟩

theorem reset_idle (last : Bool) (s : Port σ) :
    ∃ t, perform Step.exec (reset last) s = .ok () t := by
  cases last with
  | false => exact ⟨s, rfl⟩
  | true =>
    obtain ⟨⟨d', events⟩, reaction⟩ := AckDevice.reset s.device s.checksum
    have sent : send bslCmdNormalReset [] s = _ := send_framable (by decide) s
    rw [reset, if_pos rfl, perform_singleton, Step.exec, sent]
    exact ⟨_, write_of_some reaction⟩

/-- Against an acknowledging device a plan runs up to its first failing step. -/
theorem perform_live {steps : List Step} (orderly : Orderly steps) {s : Port σ} (idle : Idle s) :
    ∃ t, perform Step.exec (live halts steps) s = .ok () t ∧
      ((∀ i ∈ steps, halts i = false) ∧ perform Step.exec steps s = .ok () t ∨
        (∃ i ∈ steps, halts i = true) ∧ ∃ e, perform Step.exec steps s = .error e t) := by
  obtain ⟨front, last, rfl, answered⟩ := orderly
  by_cases sound : ∀ i ∈ front, halts i = false
  · obtain ⟨s', run, -⟩ := step_obliging.perform_ok answered idle sound
    obtain ⟨t, done⟩ := reset_idle last s'
    have whole : perform Step.exec (front ++ reset last) s = .ok () t := by
      rw [perform_append, bind_ok run, done]
    obtain ⟨complete, -, -⟩ := sent_traced.perform_ok (fun _ _ => trivial) trivial whole
    exact ⟨t, by rw [live_eq_self complete, whole], .inl ⟨complete, whole⟩⟩
  · have stop : ∃ i ∈ front, halts i = true := by simpa using sound
    obtain ⟨e, t, failed, reached⟩ := step_obliging.perform_error answered idle stop
    obtain ⟨i, hi, halt⟩ := stop
    refine ⟨t, ?_, .inr ⟨⟨i, List.mem_append_left _ hi, halt⟩, e, ?_⟩⟩
    · rw [live_append_of_exists _ ⟨i, hi, halt⟩, reached]
    · rw [perform_append, bind_error failed]

theorem attach_idle (refused : Exc) (s : Port σ) :
    ∃ t, attach refused s = .ok () t ∧ Idle t ∧ t.log = s.log ++ [.opened] := by
  obtain ⟨d', events, attached, quiet⟩ := AckDevice.attach s.device
  refine ⟨{ s with device := d', pending := events, log := s.log ++ [.opened] }, ?_, quiet, rfl⟩
  simp [attach, attached]

omit [AckDevice σ] in
theorem resetInputBuffer_idle {s : Port σ} (idle : Idle s) :
    ∃ t, resetInputBuffer s = .ok () t ∧ Idle t ∧ t.log = s.log := by
  refine ⟨_, rfl, ?_, rfl⟩
  simp only [Idle]
  split
  · exact ⟨by simp, rfl⟩
  · exact idle

omit [Device σ] [AckDevice σ] in
theorem closing_eq {body : Session σ Unit} {s t : Port σ} :
    (body s = .ok () t → closing body s = .ok () { t with log := t.log ++ [.closed] }) ∧
      ∀ e, body s = .error e t → closing body s =
        .error e { t with log := t.log ++ [.closed] } := by
  refine ⟨fun run => ?_, fun e run => ?_⟩
  · simp [closing, run]
  · simp [closing, run]

theorem closing_acknowledged {steps : List Step} (orderly : Orderly steps) {s : Port σ}
    (idle : Idle s) :
    ∃ t, sentCmds t.log = sentCmds s.log ++ commands steps ∧
      ((∀ i ∈ steps, halts i = false) ∧ closing (perform Step.exec steps) s = .ok () t ∨
        (∃ i ∈ steps, halts i = true) ∧
          ∃ e, closing (perform Step.exec steps) s = .error e t) := by
  obtain ⟨t, reached, outcome⟩ := perform_live orderly idle
  obtain ⟨-, -, written⟩ := sent_traced.perform_ok (fun _ _ => trivial) trivial reached
  refine ⟨{ t with log := t.log ++ [.closed] }, ?_, ?_⟩
  · rw [sentCmds_append, written]
    exact List.append_nil _
  · rcases outcome with ⟨sound, run⟩ | ⟨stop, e, run⟩
    · exact .inl ⟨sound, closing_eq.1 run⟩
    · exact .inr ⟨stop, e, closing_eq.2 e run⟩

omit [Device σ] [AckDevice σ] in
theorem outcome_final {result : EStateM.Result Exc (Port σ) Unit} {t : Port σ}
    {returns raises : Prop}
    (h : returns ∧ result = .ok () t ∨ raises ∧ ∃ e, result = .error e t) : final result = t := by
  rcases h with ⟨-, rfl⟩ | ⟨-, e, rfl⟩
  · rfl
  · rfl

section Native

variable {path : PacFile} {info : PacInfo} {fdl1 : PacEntry} (accepted : Accepted path info)
variable (found : fdl1Of info = some fdl1) (options : NativeOptions) (d : σ)
include accepted found

theorem nativeFlash_opened : ∃ s, Idle s ∧ s.log = [.opened] ∧
    nativeFlash path options (Port.fresh d) =
      closing (perform Step.exec (native info fdl1 path.content options)) s := by
  obtain ⟨s₁, opened, idle₁, log₁⟩ := attach_idle (.osError "could not open port") (Port.fresh d)
  obtain ⟨s₂, cleared, idle₂, log₂⟩ := resetInputBuffer_idle idle₁
  have serial : openSerial options.com 200 (Port.fresh d) = .ok () s₁ := by
    simp only [openSerial, opened]
  refine ⟨s₂, idle₂, log₂.trans log₁, ?_⟩
  rw [nativeFlash_eq accepted found, bind_ok serial, bind_ok cleared]

/-- It does all that its plan stands for, up to the first step that the package
makes fail. -/
theorem nativeFlash_acknowledged :
    ∃ t, sentCmds t.log = commands (native info fdl1 path.content options) ∧
      ((∀ i ∈ native info fdl1 path.content options, halts i = false) ∧
          nativeFlash path options (Port.fresh d) = .ok () t ∨
        (∃ i ∈ native info fdl1 path.content options, halts i = true) ∧
          ∃ e, nativeFlash path options (Port.fresh d) = .error e t) := by
  obtain ⟨s, idle, opened, run⟩ := nativeFlash_opened accepted found options d
  obtain ⟨t, written, outcome⟩ :=
    closing_acknowledged (native_orderly info fdl1 path.content options) idle
  have nothing : sentCmds s.log = [] := by
    rw [opened]
    rfl
  rw [nothing, List.nil_append] at written
  rw [run]
  exact ⟨t, written, outcome⟩

theorem nativeFlash_live : ∃ s t : Port σ, s.log = [.opened] ∧
    perform Step.exec (live halts (native info fdl1 path.content options)) s = .ok () t ∧
    (final (nativeFlash path options (Port.fresh d))).log = t.log ++ [.closed] := by
  obtain ⟨s, idle, opened, run⟩ := nativeFlash_opened accepted found options d
  obtain ⟨t, reached, outcome⟩ := perform_live (native_orderly info fdl1 path.content options) idle
  refine ⟨s, t, opened, reached, ?_⟩
  rw [run, closing_log, outcome_final outcome]

end Native

/-- The transport options with which a port can be opened at all. -/
def Openable (options : FlashOptions) : Prop :=
  options.transport = .usb ∨ options.device.getD "" ≠ ""

instance (options : FlashOptions) : Decidable (Openable options) :=
  inferInstanceAs (Decidable (_ ∨ _))

theorem openTransport_idle {options : FlashOptions} (openable : Openable options) (s : Port σ) :
    ∃ t, openTransport options.transport options.device s = .ok () t ∧ Idle t ∧
      t.log = s.log ++ [.opened] := by
  cases transport : options.transport with
  | usb => exact attach_idle _ s
  | serial =>
    have named : options.device.getD "" ≠ "" := by
      rcases openable with usb | named
      · rw [transport] at usb
        cases usb
      · exact named
    simp only [openTransport, if_neg named]
    exact attach_idle _ s

theorem flashPac_acknowledged {path : PacFile} {info : PacInfo} (accepted : Accepted path info)
    {options : FlashOptions} (openable : Openable options) (d : σ) :
    ∃ t, sentCmds t.log =
        .bsl bslCmdConnect [] :: commands (flash info path.content options) ∧
      ((∀ i ∈ flash info path.content options, halts i = false) ∧
          flashPac path options (Port.fresh d) = .ok () t ∨
        (∃ i ∈ flash info path.content options, halts i = true) ∧
          ∃ e, flashPac path options (Port.fresh d) = .error e t) := by
  obtain ⟨s₁, opened, idle₁, log₁⟩ := openTransport_idle openable (Port.fresh d)
  have answered : ∀ i ∈ handshake, Answered i := by
    simp [handshake, Answered, bslCmdConnect, bslCmdNormalReset]
  have sound : ∀ i ∈ handshake, halts i = false := by decide
  obtain ⟨s₂, greeted, idle₂⟩ := step_obliging.perform_ok answered idle₁ sound
  obtain ⟨-, -, connected⟩ := sent_traced.perform_ok (fun _ _ => trivial) trivial greeted
  have first : sentCmds s₂.log = [.bsl bslCmdConnect []] := by
    rw [connected, log₁]
    rfl
  obtain ⟨t, written, outcome⟩ :=
    closing_acknowledged (flash_orderly info path.content options) idle₂
  rw [first] at written
  refine ⟨t, written, ?_⟩
  rw [flashPac_eq accepted, bind_ok opened, bind_ok greeted]
  exact outcome

inductive Acker
  | mk
  deriving DecidableEq, Repr

namespace Acker

def answer (bs : Bytes) : Bytes :=
  match decodeWrite bs with
  | some (.bsl cmd _) => if cmd = bslCmdNormalReset then [] else wireMessage bslRepAck [] .sprd
  | some (.pdl code _ _ _) =>
    if code = Pdl.Command.exec.code then [] else pdlResponse [0x00, 0x00, 0xFF, 0x00, 0x00] []
  | none => if bs = [hdlcFlag] then wireMessage bslRepVer [0x31, 0x2E, 0x30] .sprd else []

instance : Device Acker where
  attach d := (d, some [])
  discards _ := true
  onWrite d bs := some (d, (answer bs).map .byte)

theorem delivers_bytes (bs : Bytes) : Delivers (bs.map .byte) bs := by
  refine ⟨?_, received_bytes bs⟩
  intro ev hev
  obtain ⟨b, -, rfl⟩ := List.mem_map.mp hev
  exact .inr ⟨b, rfl⟩

theorem onWrite_eq (d : Acker) {bs as : Bytes} (h : answer bs = as) :
    Device.onWrite d bs = some (d, as.map .byte) := by
  rw [← h]
  rfl

instance : AckDevice Acker where
  attach d := ⟨d, [], rfl, delivers_bytes []⟩
  bsl d cmd data mode fits other := by
    refine ⟨d, _, [], .sprd, onWrite_eq d ?_, by decide, delivers_bytes _⟩
    rw [answer, decodeWrite_wireMessage fits]
    exact if_neg other
  reset d mode := ⟨_, rfl⟩
  flag d := by
    refine ⟨d, _, [0x31, 0x2E, 0x30], .sprd, onWrite_eq d ?_, by decide, delivers_bytes _⟩
    rw [answer, decodeWrite_flag]
    rfl
  header d length _ := by
    refine ⟨d, _, onWrite_eq d ?_, delivers_bytes []⟩
    rw [answer, decodeWrite_pdlHeader]
    rfl
  request d cmd arg1 arg2 extra other fits := by
    refine ⟨d, _, [0x00, 0x00, 0xFF, 0x00, 0x00], [], onWrite_eq d ?_, rfl, by decide,
      delivers_bytes _⟩
    have code : cmd.code ≠ Pdl.Command.exec.code := by
      cases cmd <;> first | decide | exact absurd rfl other
    rw [answer, decodeWrite_pdlPayload cmd fits]
    exact if_neg code
  exec d := by
    refine ⟨d, _, onWrite_eq d ?_, delivers_bytes []⟩
    rw [answer, decodeWrite_pdlPayload .exec (by decide)]
    rfl

end Acker

end SprdFlash.Acknowledging
