import SprdFlash.Installation
import SprdFlash.UsbFlash

/-!
The strict modem behind two bulk endpoints. It hears the pieces of a message as the
message, so the flow over the USB port installs a package on it however its answers are
cut into transfers; and whatever the device, when the flow returns it has sent what makes
the modem hold the package.
-/

namespace SprdFlash.UsbFraming

open Message Port Pac Flasher Script Plan Exchange WireLog Acknowledging Package
  UsbTransport FailStop
open Completion Modem

/-- It sees where a transfer ends. -/
instance : Agent Modem where
  hear := Modem.listen

section Hearing

theorem wireMessage_length (cmd : ℕ) (data : Bytes) (mode : Checksum) :
    (wireMessage cmd data mode).length ≤ 2 * data.length + 14 := by
  have body := Stuffing.length_escape_le hdlc (messageBody cmd data mode)
  rw [messageBody_length] at body
  have wire : (wireMessage cmd data mode).length =
      (Stuffing.escape hdlc (messageBody cmd data mode)).length + 2 := by
    simp [wireMessage, Stuffing.enclose]
  omega

theorem listen_later {core : Core} {version : { text : Bytes // text.length < 65536 }}
    {content first w later : Bytes} (plain : hdlcFlag ∉ content)
    (split : hdlcFlag :: (content ++ [hdlcFlag]) = first ++ (w ++ later)) (long : 2 ≤ first.length)
    (more : w ≠ []) :
    let s := (Mealy.run feed ⟨.bsl, core, [], version⟩ first).1
    s.listen w = Mealy.run feed s w := by
  intro s
  cases first with
  | nil => cases long
  | cons a kept =>
    rw [List.cons_append] at split
    obtain ⟨rfl, rest⟩ := List.cons_eq_cons.mp split
    have lengths := congrArg List.length rest
    have := List.length_pos_of_ne_nil more
    simp only [List.length_append, List.length_singleton] at lengths
    have part : kept <+: content :=
      List.prefix_of_prefix_length_le ⟨_, rest.symm⟩ (List.prefix_append content _) (by omega)
    have filled : kept ≠ [] := List.ne_nil_of_length_pos (Nat.lt_of_succ_lt_succ long)
    have state : s = ⟨.bsl, core, kept, version⟩ := by
      have opening : feed ⟨.bsl, core, [], version⟩ hdlcFlag =
        (⟨.bsl, core, [], version⟩, []) := rfl
      have inside := feed_content core version fun mem => plain (part.subset mem)
      change (Mealy.run feed _ (hdlcFlag :: kept)).1 = _
      rw [Mealy.run, opening, inside]
    rw [state, Modem.listen, if_neg fun h => filled h.2.1]

/-- A wire message cut into pieces, octet by octet: none of the pieces is a lone flag. -/
theorem hear_wire (core : Core) (version : { text : Bytes // text.length < 65536 }) (cmd : ℕ)
    (data : Bytes) :
    let m : Modem := ⟨.bsl, core, [], version⟩
    let bs := wireMessage cmd data .sprd
    Mealy.run Agent.hear m (Pieces.pieces maxEpChunk bs) = Mealy.run feed m bs := by
  intro m bs
  have clean := clean_escape_messageBody cmd data .sprd
  have wire : bs = hdlcFlag :: (Stuffing.escape hdlc (messageBody cmd data .sprd) ++
    [hdlcFlag]) := rfl
  have cut := Pieces.pieces_of_ne_nil maxEpChunk (show bs ≠ [] by rw [wire]; simp)
  have long : 2 ≤ (bs.take maxEpChunk).length := by
    rw [List.length_take, wire]
    simp [maxEpChunk]
  have whole := Pieces.pieces_flatten maxEpChunk bs
  have same : Mealy.run Agent.hear m (Pieces.pieces maxEpChunk bs) =
      Mealy.run (Mealy.run feed) m (Pieces.pieces maxEpChunk bs) := by
    refine Mealy.run_congr _ fun first w later split => ?_
    have mem : w ∈ Pieces.pieces maxEpChunk bs := by simp [split]
    cases first with
    | nil =>
      rw [cut] at split
      obtain ⟨rfl, -⟩ := List.cons_eq_cons.mp split
      refine listen_run fun lone => ?_
      rw [lone] at long
      simp at long
    | cons p first =>
      rw [split, List.flatten_append, List.flatten_cons] at whole
      rw [cut, List.cons_append] at split
      obtain ⟨rfl, -⟩ := List.cons_eq_cons.mp split
      rw [Mealy.run_flatten]
      refine listen_later clean.2 (wire.symm.trans whole.symm) ?_ (Pieces.mem_pieces mem).1
      rw [List.flatten_cons, List.length_append]
      omega
  rw [same, Mealy.run_flatten, whole]

theorem hear_pieces (core : Core) (version : { text : Bytes // text.length < 65536 }) {bs : Bytes}
    (said : Said bs) :
    let m : Modem := ⟨.bsl, core, [], version⟩
    Mealy.run Agent.hear m (Pieces.pieces maxEpChunk bs) = m.listen bs := by
  intro m
  rcases said with rfl | ⟨cmd, data, fits, rfl⟩
  · have one : Pieces.pieces maxEpChunk [hdlcFlag] = [[hdlcFlag]] := by
      rw [Pieces.pieces_of_ne_nil _ (by simp)]
      simp [maxEpChunk, Pieces.pieces]
    rw [one, Mealy.run_singleton]
    rfl
  · rw [hear_wire core version cmd data]
    refine (listen_run ?_).symm
    rw [show wireMessage cmd data .sprd =
      hdlcFlag :: (Stuffing.escape hdlc (messageBody cmd data .sprd) ++ [hdlcFlag]) from rfl]
    simp

end Hearing

section Serving

variable {core : Core} {version : { text : Bytes // text.length < 65536 }}

theorem listen_reply {bs : Bytes} (said : Said bs) :
    let m : Modem := ⟨.bsl, core, [], version⟩
    (m.listen bs).1.version = version ∧
      ∃ reply : Framing.Built, (m.listen bs).2 = reply.frame ∧
        reply.frame.length ≤ 2 * version.val.length + 14 := by
  intro m
  rcases said with rfl | ⟨cmd, data, fits, rfl⟩
  · exact ⟨rfl, .of bslRepVer version.val .sprd (by decide) version.property, rfl,
      wireMessage_length _ _ _⟩
  · have answered := listen_frame (m := m) rfl rfl fits
    have code : (core.hear (.bsl cmd data)).2 < 65536 := (core.obey_outcome _).lt
    rw [answered]
    refine ⟨rfl, .of (core.hear (.bsl cmd data)).2 [] .sprd code (by decide), rfl, ?_⟩
    exact (wireMessage_length _ [] .sprd).trans (by simp)

theorem write_heard {s : UsbPort (Gadget Modem)} {bs : Bytes} (said : Said bs)
    (here : s.dev.agent = ⟨.bsl, core, [], version⟩) (quiet : unread s = []) :
    ∃ n t, UsbPort.write bs s = .ok n t ∧ t.dev.agent = (s.dev.agent.listen bs).1 ∧
      unread t = (s.dev.agent.listen bs).2 ∧ t.dev.schedule = s.dev.schedule := by
  obtain ⟨none, empty⟩ := List.append_eq_nil_iff.mp quiet
  obtain ⟨n, t, wrote, kept, dev⟩ := writeLoop_hears bs 0 s
  have heard := hear_pieces core version said
  rw [List.drop_zero, here, heard, empty, List.nil_append] at dev
  refine ⟨n, t, wrote, ?_, ?_, ?_⟩
  · rw [dev, here]
  · rw [unread, kept, none, dev, here]
    rfl
  · rw [dev]

theorem transcript_delivers {τ : Type} [UsbDevice τ] {n : ℕ} {s : UsbPort τ}
    (live : Live (transcript n s)) : Delivers (transcript n s) (received (transcript n s)) := by
  refine ⟨?_, rfl⟩
  induction n generalizing s with
  | zero => simp [transcript]
  | succ n ih =>
    rcases read_turn 0 s with ⟨b, t, -, read, -⟩ | ⟨t, read, -⟩ | ⟨e, t, read, -, -⟩
    · rw [(transcript_byte read n).1] at live ⊢
      exact List.forall_mem_cons.mpr ⟨.inr ⟨b, rfl⟩, ih live.tail⟩
    · rw [(transcript_idle read n).1] at live ⊢
      exact List.forall_mem_cons.mpr ⟨.inl rfl, ih live.tail⟩
    · rw [transcript_fault read] at live
      exact absurd rfl (live .fault List.mem_cons_self).2

/-- Where everything the modem owes is read, the reads of a frame bring all of it. -/
theorem span_delivers {clock : UsbPort (Gadget Modem) → ℕ} {t : UsbPort (Gadget Modem)}
    (enough : remaining t ≤ clock t) {reply : Framing.Built} (owed : unread t = reply.frame) :
    Delivers (transcript (span clock t) t) reply.frame ∧
      unread (reads (span clock t) t) = [] ∧
      (reads (span clock t) t).dev.agent = t.dev.agent ∧
      (reads (span clock t) t).dev.schedule.length ≤ t.dev.schedule.length := by
  have wire : unread (⟨t, .sprd⟩ : UsbSpd (Gadget Modem)).port = reply.frame ++ [] := by
    rw [List.append_nil, owed]
  obtain ⟨v, heard, empty, agent, fewer, -⟩ := readFrame_gadget enough wire
  have next : UsbSpd.nextFrame clock (⟨t, .sprd⟩ : UsbSpd (Gadget Modem)) =
    .ok reply.body v := heard
  have here : v.port = reads (span clock t) t := by
    rcases nextFrame_span clock (⟨t, .sprd⟩ : UsbSpd (Gadget Modem)) with ⟨result, -, run⟩ |
      ⟨e, u, run, -⟩
    · rw [next] at run
      cases result with
      | ok body =>
        cases run
        rfl
      | error e => cases run
    · rw [next] at run
      cases run
  rw [here] at empty agent fewer
  obtain ⟨split, live, -⟩ := reads_gadget (span clock t) t
  have delivers := transcript_delivers live
  rw [empty, List.append_nil, owed] at split
  rw [← split] at delivers
  exact ⟨delivers, empty, agent, fewer⟩

/-- The clock allows the reads of every answer of the modem. -/
def Patient {clock : UsbPort (Gadget Modem) → ℕ} (a : Adapted clock) : Prop :=
  ∀ port, a.port.dev.schedule.length + 2 * a.port.dev.agent.version.val.length + 14 ≤ clock port

theorem adapted_attach {clock : UsbPort (Gadget Modem) → ℕ} (a : Adapted clock)
    (sound : unread a.port = [] ∧ Patient a) : ∃ a' events, Device.attach a = (a', some events) ∧
      Delivers events [] ∧ a'.port.dev.agent = a.port.dev.agent ∧
        unread a'.port = [] ∧ Patient a' :=
  ⟨a, [], rfl, ⟨by simp, rfl⟩, rfl, sound⟩

theorem adapted_speak {clock : UsbPort (Gadget Modem) → ℕ} (a : Adapted clock) (bs : Bytes)
    (sound : unread a.port = [] ∧ Patient a) (link : a.port.dev.agent.link = .bsl)
    (between : a.port.dev.agent.buffer = []) (said : Said bs) :
    ∃ a' events, Device.onWrite a bs = some (a', events) ∧
      Delivers events (a.port.dev.agent.listen bs).2 ∧
      a'.port.dev.agent = (a.port.dev.agent.listen bs).1 ∧ unread a'.port = [] ∧ Patient a' := by
  obtain ⟨quiet, patient⟩ := sound
  obtain ⟨core, version, here⟩ : ∃ core version, a.port.dev.agent = ⟨.bsl, core, [], version⟩ := by
    cases agent : a.port.dev.agent
    rw [agent] at link between
    cases link
    cases between
    exact ⟨_, _, rfl⟩
  obtain ⟨n, t, wrote, agent, owed, schedule⟩ := write_heard said here quiet
  obtain ⟨same, reply, answer, short⟩ := @listen_reply core version _ said
  rw [here] at agent owed
  rw [answer] at owed
  have enough : remaining t ≤ clock t := by
    have allowed := patient t
    simp only [here] at allowed
    rw [remaining, owed, schedule]
    omega
  obtain ⟨delivers, empty, kept, fewer⟩ := span_delivers enough owed
  have reaction : Device.onWrite a bs =
      some (⟨reads (span clock t) t⟩, transcript (span clock t) t) := by
    simp only [Device.onWrite, wrote]
  refine ⟨_, _, reaction, ?_, ?_, empty, fun port => ?_⟩
  · rw [here, answer]
    exact delivers
  · rw [here, kept, agent]
  · have allowed := patient port
    simp only [here] at allowed
    rw [schedule] at fewer
    simp only [kept, agent, same]
    omega

instance {clock : UsbPort (Gadget Modem) → ℕ} : Speaker (Adapted clock) where
  modem a := a.port.dev.agent
  sound a := unread a.port = [] ∧ Patient a
  attach := adapted_attach
  speak := adapted_speak

end Serving

section Flashing

theorem sentCmds_frames (log : List Act) : sentCmds log = (frames log).filterMap decodeWrite := by
  rw [sentCmds, frames, List.filterMap_filterMap]
  congr 1
  funext act
  cases act <;> rfl

theorem opened_of_ended {τ κ : Type} [UsbDevice τ] [UsbControl τ] {lib : Libusb κ τ}
    {clock : UsbPort τ → ℕ} {path : PacFile} {chunk : ℕ+} {doReset : Bool}
    {outcome : Except Failure Unit} {left : Handle τ × UsbSpd τ}
    (ended : UsbSpd.flashPac clock lib path chunk doReset = (outcome, some left)) :
    ∃ port, openUsbPort lib = .ok port := by
  cases opened : openUsbPort lib with
  | ok port => exact ⟨port, rfl⟩
  | error e =>
    rw [UsbSpd.flashPac] at ended
    simp only [opened] at ended
    split at ended
    · cases ended
    · split at ended <;> cases ended

/-- Whatever the USB device and wherever the flow breaks off, a modem that has heard any first
part of its messages has refused nothing and holds, over what it held, the blocks of the
package up to there. -/
theorem usbFlash_keeps {τ κ : Type} [UsbDevice τ] [UsbControl τ] {lib : Libusb κ τ}
    {clock : UsbPort τ → ℕ} {path : PacFile} {info : PacInfo} (accepted : Accepted path info)
    {chunk : ℕ+} {doReset : Bool} {outcome : Except Failure Unit} {handle : Handle τ}
    {io : UsbSpd τ}
    (ended : UsbSpd.flashPac clock lib path chunk doReset = (outcome, some (handle, io))) :
    ∃ messages : List Bytes, io.port.sent <+: messages.flatMap (Pieces.pieces maxEpChunk) ∧
      (∀ bs ∈ messages, Framed bs) ∧
      ∀ heard, heard <+: messages.filterMap decodeWrite → ∀ core : Core, core.job = none →
        core.Content heard ∧ ∃ some, Overlay.Part some (ownBlocks info path.content) ∧
          (core.hears heard).memory = Overlay.puts core.memory some := by
  obtain ⟨port, opened⟩ := opened_of_ended ended
  have adapts := flashPac_adapts opened clock path none chunk doReset
  have begun := flashPac_begun accepted ⟨.usb, none, chunk, doReset⟩ (⟨.fresh port.dev⟩ :
    Adapted clock)
  refine ⟨_, adapts.sent_prefix (congrArg Prod.snd ended), adapts.framed,
    fun heard part core idle => ?_⟩
  rw [← sentCmds_frames] at part
  exact flash_keeps accepted _ (part.trans begun) idle

section Obeyed

variable {κ : Type} [UsbControl (Gadget Modem)] {lib : Libusb κ (Gadget Modem)}
variable {port : Handle (Gadget Modem)} (opened : openUsbPort lib = .ok port)
variable {clock : UsbPort (Gadget Modem) → ℕ} {path : PacFile} {info : PacInfo} {fdl1 : PacEntry}
variable (accepted : Accepted path info) (found : fdl1Of info = some fdl1) {core : Core}
variable (idle : core.job = none) {version : { text : Bytes // text.length < 65536 }}
variable (here : port.dev.agent = ⟨.bsl, core, [], version⟩) (quiet : port.dev.outbox = [])
variable (patient : ∀ io, port.dev.schedule.length + 2 * version.val.length + 14 ≤ clock io)
variable {chunk : ℕ+} (sendable : ∀ e ∈ loaders info ++ flashableEntries info,
    Sendable path.content chunk e)
include opened accepted found idle here quiet patient sendable

theorem usbFlash_obeyed (doReset : Bool) :
    ∃ handle io, UsbSpd.flashPac clock lib path chunk doReset = (.ok (), some (handle, io)) ∧
      handle.opened = false ∧
      io.port.dev.agent.core = core.installed info (ownBlocks info path.content) [] doReset := by
  have sound : Speaker.sound (⟨.fresh port.dev⟩ : Adapted clock) := by
    refine ⟨by rw [unread]; exact quiet, fun io => ?_⟩
    have allowed := patient io
    simp only [UsbPort.fresh, here]
    exact allowed
  obtain ⟨t, run, done⟩ := Installation.flashPac_installs (d := (⟨.fresh port.dev⟩ : Adapted clock))
    accepted found idle here sound
    (show Openable ⟨.usb, none, chunk, doReset⟩ from .inl rfl) sendable
  have ended := flashPac_adapts opened clock path none chunk doReset
  rw [run] at ended
  generalize onUsb : UsbSpd.flashPac clock lib path chunk doReset = result at ended
  cases ended with
  | @returned s handle io kept shut =>
    refine ⟨handle, io, rfl, shut, ?_⟩
    obtain ⟨n, same⟩ := kept.port
    obtain ⟨-, -, agent, -⟩ := reads_gadget n io.port
    rw [← agent, ← same]
    exact done

/-- On the strict modem behind the endpoints, however its answers are cut into transfers,
`flash_pac` returns and installs the package, and where no two images overlap every byte of
every entry lands at its address. -/
theorem usbFlash_lands (doReset : Bool) :
    ∃ handle io, UsbSpd.flashPac clock lib path chunk doReset = (.ok (), some (handle, io)) ∧
      handle.opened = false ∧ io.port.dev.agent.core.refused = core.refused ∧
      io.port.dev.agent.core = core.installed info (ownBlocks info path.content) [] doReset ∧
      (Overlay.Apart (ownBlocks info path.content) →
        ∀ e ∈ loaders info ++ flashableEntries info,
          Lies path.content io.port.dev.agent.core.memory e) := by
  obtain ⟨handle, io, run, shut, installed⟩ :=
    usbFlash_obeyed opened accepted found idle here quiet patient sendable doReset
  refine ⟨handle, io, run, shut, by rw [installed]; rfl, installed, fun apart e he => ?_⟩
  rw [installed]
  exact ownBlock_lies path.content apart (List.mem_map_of_mem he) (sendable e he).1 core.memory

end Obeyed

section Example

open Installation PacImage

instance : UsbControl (Gadget Modem) := composite _

def bulky : Gadget Modem := ⟨greeting Core.blank, [], [.silent, .part 3, .part 0]⟩

theorem bulky_opened : openUsbPort (plugged bulky) = .ok ⟨bulky, 1, 0x02, 0x81, true,
    [(.detach 0, false), (.detach 1, true), (.claim 1, true), (.kick, true)]⟩ := rfl

theorem bulky_usbFlash_lands : ∃ handle io,
    UsbSpd.flashPac (fun _ => 17) (plugged bulky) (package 2) defaultChunk true =
        (.ok (), some (handle, io)) ∧
      io.port.dev.agent.core.memory (0x60010000 + 2) =
        (package 2).content[payloadOffset 3 + 2 + 2]? := by
  obtain ⟨info, accepted, entries⟩ := package_accepted (show 2 < 2 ^ 32 by decide)
  have apart : Overlay.Apart (ownBlocks info (package 2).content) := by
    rw [(package_blocks entries).2]
    exact List.Pairwise.sublist (List.prefix_append [_, _] [_]).sublist package_apart
  obtain ⟨handle, io, run, -, -, -, lands⟩ := usbFlash_lands bulky_opened accepted
    (package_fdl1 entries) rfl rfl rfl (fun _ => le_rfl) (package_sendable entries) true
  have partition : entry ['A', 'P'] 0x60010000 (payloadOffset 3 + 2) 3 ∈
      loaders info ++ flashableEntries info := by
    rw [package_flashable entries (by decide)]
    simp
  exact ⟨handle, io, run, lands apart _ partition 2 (by decide)⟩

theorem bulky_usbFlash_keeps : ∃ handle io, ∃ messages : List Bytes,
    UsbSpd.flashPac (fun _ => 17) (plugged bulky) (package 2) defaultChunk true =
        (.ok (), some (handle, io)) ∧
      io.port.sent <+: messages.flatMap (Pieces.pieces maxEpChunk) ∧
      Core.blank.Content ((messages.filterMap decodeWrite).take 5) := by
  obtain ⟨info, accepted, entries⟩ := package_accepted (show 2 < 2 ^ 32 by decide)
  obtain ⟨handle, io, run, -⟩ := usbFlash_obeyed bulky_opened accepted
    (package_fdl1 entries) rfl rfl
    rfl (fun _ => le_rfl) (package_sendable entries) true
  obtain ⟨messages, sent, -, keeps⟩ := usbFlash_keeps accepted run
  exact ⟨handle, io, messages, run, sent, (keeps _ (List.take_prefix 5 _) Core.blank rfl).1⟩

end Example

end Flashing

end SprdFlash.UsbFraming
