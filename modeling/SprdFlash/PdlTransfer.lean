import SprdFlash.FailStop
import SprdFlash.PdlFraming

/-!
A PDL image transfer as its receiver sees it: the bytes of all writes, split
into packets by the lengths in their headers, each payload read as three words
and what follows them. The receiver recovers the image and every parameter.
-/

namespace SprdFlash.PdlTransfer

open Port Struct Script Plan Exchange WireLog Acknowledging FailStop PdlFraming

/-- One payload as the receiver reads it. -/
def read (payload : Bytes) : Option Sent :=
  if payload.length < 12 then none
  else some (.pdl (unpack .little (payload.take 4)) (unpack .little ((payload.drop 4).take 4))
    (unpack .little ((payload.drop 8).take 4)) (payload.drop 12))

def receive (stream : Bytes) : Option (List Sent) :=
  (Packets.payloads agent stream).bind (·.mapM read)

/-- A message that the agent acknowledges and whose fields can be packed. -/
structure Message where
  cmd : Pdl.Command
  arg1 : ℕ
  arg2 : ℕ
  extra : Bytes
  other : cmd ≠ .exec
  fits : Packable arg1 arg2 extra

namespace Message

def step (m : Message) : Step := .request m.cmd m.arg1 m.arg2 m.extra

def payload (m : Message) : Bytes := pdlPayload m.cmd m.arg1 m.arg2 m.extra

def sent (m : Message) : Sent := .pdl m.cmd.code m.arg1 m.arg2 m.extra

theorem payload_length_lt (m : Message) : m.payload.length < 65536 := by
  rw [payload, pdlPayload_length]
  exact m.fits.2.2

def packet (m : Message) : Packets.Packet agent := built m.payload m.payload_length_lt

def writes (m : Message) : List Bytes := [pdlHeader m.payload.length, m.payload]

theorem writes_flatten (m : Message) : m.writes.flatten = m.packet.wire := by
  rw [packet, built_wire, writes]
  simp

theorem read_payload (m : Message) : read m.payload = some m.sent := by
  obtain ⟨word0, word4, word8, rest12⟩ := pdlPayload_fields m.cmd m.fits
  have long : ¬ m.payload.length < 12 := by
    rw [payload, pdlPayload_length]
    omega
  rw [read, if_neg long]
  simp only [payload, word0, word4, word8, rest12, sent]

theorem mapM_read (ms : List Message) : (ms.map payload).mapM read = some (ms.map sent) := by
  induction ms with
  | nil => rfl
  | cons m ms ih =>
    rw [List.map_cons, List.mapM_cons, read_payload, ih]
    rfl

theorem flatten_writes (ms : List Message) :
    (ms.flatMap writes).flatten = (ms.map packet).flatMap Packets.Packet.wire := by
  induction ms with
  | nil => rfl
  | cons m ms ih =>
    rw [List.flatMap_cons, List.flatten_append, writes_flatten, ih, List.map_cons,
      List.flatMap_cons]

theorem receive_writes (ms : List Message) :
    receive (ms.flatMap writes).flatten = some (ms.map sent) := by
  have bodies : (ms.map packet).map Packets.Packet.body = ms.map payload := by
    rw [List.map_map]
    rfl
  rw [receive, flatten_writes, Packets.payloads_wires, bodies, Option.bind_some, mapM_read]

end Message

section Transfer

variable {σ : Type} [Device σ] [AcksRequests σ]

theorem exec_message (m : Message) {s : Port σ} (idle : Idle s) :
    ∃ t, m.step.exec s = .ok () t ∧ Idle t ∧ frames t.log = frames s.log ++ m.writes := by
  obtain ⟨t, run, idle'⟩ := request_idle m.other m.fits idle
  obtain ⟨-, response, written⟩ := request_ok run
  refine ⟨t, run, idle', ?_⟩
  rw [written, frames_append]
  rfl

theorem perform_messages (ms : List Message) {s : Port σ} (idle : Idle s) :
    ∃ t, perform Step.exec (ms.map Message.step) s = .ok () t ∧ Idle t ∧
      frames t.log = frames s.log ++ ms.flatMap Message.writes := by
  induction ms generalizing s with
  | nil => exact ⟨s, rfl, idle, by simp⟩
  | cons m ms ih =>
    obtain ⟨s', run, idle', log⟩ := exec_message m idle
    obtain ⟨t, rest, done, logs⟩ := ih idle'
    refine ⟨t, (bind_ok run).trans rest, done, ?_⟩
    rw [logs, log, List.flatMap_cons, List.append_assoc]

omit [Device σ] [AcksRequests σ] in
theorem blocks_numbered (data : Bytes) :
    (Pdl.blocks data).map Prod.fst = List.range (Pdl.blocks data).length := by
  rw [Pdl.blocks, List.map_map, List.length_map, List.length_range]
  exact List.map_id _

variable {addr : ℕ} {data name : Bytes}

/-- The payloads of an image's messages. -/
def requests (addr : ℕ) (data name : Bytes) (crc : ℕ) : List Bytes :=
  pdlPayload .startData addr data.length name ::
    ((Pdl.blocks data).map (fun (i, chunk) => pdlPayload .midstData i chunk.length chunk) ++
      [pdlPayload .endData 0 0 (field .little 4 crc)])

omit [Device σ] [AcksRequests σ] in
theorem image_messages (start : Packable addr data.length name) {checksum : Option ℕ}
    (hchecksum : checksum.getD (Pdl.pdlImageCrc data) < 2 ^ 32) :
    ∃ ms : List Message, ms.map Message.step = image addr data name checksum ∧
      ms.map Message.payload =
        requests addr data name (checksum.getD (Pdl.pdlImageCrc data)) ∧
      ms.map Message.sent = .pdl Pdl.Command.startData.code addr data.length name ::
        ((Pdl.blocks data).map (fun (i, chunk) =>
            .pdl Pdl.Command.midstData.code i chunk.length chunk) ++
          [.pdl Pdl.Command.endData.code 0 0
            (field .little 4 (checksum.getD (Pdl.pdlImageCrc data)))]) := by
  rw [image]
  generalize checksum.getD (Pdl.pdlImageCrc data) = crc at hchecksum ⊢
  have last : Packable 0 0 (field .little 4 crc) :=
    ⟨by decide, by decide, by rw [field_length]; decide⟩
  have numbered : ∀ block ∈ Pdl.blocks data, Packable block.1 block.2.length block.2 := by
    intro block hb
    have bound := Package.mem_blocks hb
    have small := start.2.1
    unfold Packable
    omega
  have trailer : pack .little 4 [crc] = .ok (field .little 4 crc) := by
    rw [pack_ok .little 4 [crc] (by simpa using hchecksum)]
    simp [fields]
  let midst := fun (block : ℕ × Bytes) (fits : Packable block.1 block.2.length block.2) =>
    Message.mk .midstData block.1 block.2.length block.2 (by decide) fits
  have views {β : Type} (view : Message → β) (of : ℕ × Bytes → β)
      (same : ∀ block fits, view (midst block fits) = of block) :
      ((Pdl.blocks data).pmap midst numbered).map view = (Pdl.blocks data).map of := by
    rw [List.map_pmap]
    simp only [same, List.pmap_eq_map]
  refine ⟨⟨.startData, addr, data.length, name, by decide, start⟩ ::
    ((Pdl.blocks data).pmap midst numbered ++
      [⟨.endData, 0, 0, field .little 4 crc, by decide, last⟩]), ?_, ?_, ?_⟩
  · rw [List.map_cons, List.map_append, views Message.step
      (fun (i, chunk) => .request .midstData i chunk.length chunk) fun _ _ => rfl, trailer, given]
    rfl
  · rw [List.map_cons, List.map_append, views Message.payload
      (fun (i, chunk) => pdlPayload .midstData i chunk.length chunk) fun _ _ => rfl]
    rfl
  · rw [List.map_cons, List.map_append, views Message.sent
      (fun (i, chunk) => .pdl Pdl.Command.midstData.code i chunk.length chunk) fun _ _ => rfl]
    rfl

/-- `send_image` delivers the image and its parameters intact. -/
theorem sendImage_delivers {checksum : ℕ} (haddr : addr < 2 ^ 32) (hdata : data.length < 2 ^ 32)
    (hname : name.length ≤ 65523) (hchecksum : checksum < 2 ^ 32) {s : Port σ} (idle : Idle s) :
    ∃ (t : Port σ) (payloads : List Bytes) (blocks : List (ℕ × Bytes)),
      Pdl.sendImage addr data name (some checksum) s = .ok () t ∧
      let written := payloads.flatMap fun payload => [pdlHeader payload.length, payload]
      frames t.log = frames s.log ++ written ∧
      receive written.flatten =
        some (.pdl Pdl.Command.startData.code addr data.length name ::
          (blocks.map (fun block =>
              .pdl Pdl.Command.midstData.code block.1 block.2.length block.2) ++
            [.pdl Pdl.Command.endData.code 0 0 (field .little 4 checksum)])) ∧
      blocks.map Prod.fst = List.range blocks.length ∧
      (∀ block ∈ blocks, 1 ≤ block.2.length ∧ block.2.length ≤ 2048) ∧
      (blocks.map Prod.snd).flatten = data ∧
      ∀ payload ∈ payloads, payload.length ≤ 65535 := by
  have start : Packable addr data.length name := ⟨haddr, hdata, by omega⟩
  obtain ⟨ms, steps, -, sent⟩ := image_messages start
    (show (some checksum).getD (Pdl.pdlImageCrc data) < 2 ^ 32 from hchecksum)
  obtain ⟨t, run, -, log⟩ := perform_messages ms idle
  rw [steps] at run
  have writes : (ms.map Message.payload).flatMap (fun payload =>
    [pdlHeader payload.length, payload]) =
      ms.flatMap Message.writes := by
    rw [List.flatMap_map]
    rfl
  refine ⟨t, ms.map Message.payload, Pdl.blocks data, by rw [sendImage_eq, run], ?_⟩
  simp only [writes, Message.receive_writes, sent]
  refine ⟨log, rfl, blocks_numbered data, fun block hb => ?_, ?_, ?_⟩
  · have piece : block.2 ∈ Pieces.pieces 2048 data := by
      rw [← Package.blocks_pieces]
      exact List.mem_map_of_mem hb
    have bound := Pieces.mem_pieces piece
    exact ⟨List.length_pos_of_ne_nil bound.1, bound.2.1⟩
  · rw [Package.blocks_pieces, Pieces.pieces_flatten]
  · rw [List.forall_mem_map]
    exact fun m _ => Nat.le_of_lt_succ m.payload_length_lt

end Transfer

theorem sendImage_marks : ∃ (t : Port Acker) (blocks : List (ℕ × Bytes)),
    Pdl.sendImage 0x838000 (List.replicate 2049 0xAE) [0x50, 0x44, 0x4C, 0x31, 0x00] (some 0)
      (Port.fresh Acker.mk) = .ok () t ∧
    receive (frames t.log).flatten = some (.pdl 4 0x838000 2049 [0x50, 0x44, 0x4C, 0x31, 0x00] ::
      (blocks.map (fun block => .pdl 5 block.1 block.2.length block.2) ++
        [.pdl 6 0 0 [0x00, 0x00, 0x00, 0x00]])) ∧
    (blocks.map Prod.snd).flatten = List.replicate 2049 0xAE := by
  have fresh : Idle (Port.fresh Acker.mk) := ⟨by simp [Port.fresh], rfl⟩
  have length : (List.replicate 2049 (0xAE : UInt8)).length = 2049 := List.length_replicate
  have small : (List.replicate 2049 (0xAE : UInt8)).length < 2 ^ 32 := by
    rw [length]
    decide
  have short : ([0x50, 0x44, 0x4C, 0x31, 0x00] : Bytes).length ≤ 65523 := by decide
  obtain ⟨t, payloads, blocks, run, log, received, -, -, whole, -⟩ :=
    sendImage_delivers (show 0x838000 < 2 ^ 32 by decide) small short
      (show 0 < 2 ^ 32 by decide) fresh
  refine ⟨t, blocks, run, ?_, whole⟩
  rw [length] at received
  rw [log]
  exact received

end SprdFlash.PdlTransfer
