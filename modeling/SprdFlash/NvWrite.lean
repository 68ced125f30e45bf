import SprdFlash.Corruption
import SprdFlash.FailStop

/-!
The NV image. Its CRC slot is recomputed bit by bit and its transfer sum taken
over what is then sent; the bit-serial CRC is the table-driven one of the
package parser, under any cutting of the bytes into chunks.
-/

namespace SprdFlash.NvWrite

open Message Port SpdIO Flasher Native Struct Script Plan Exchange WireLog Acknowledging FailStop

/-- The shift register of both implementations. -/
theorem nvCrc16_register (data : Bytes) (x : BitVec 16) :
    data.foldl (fun crc x =>
      (fun crc => if crc &&& 1 ≠ 0 then (crc >>> 1) ^^^ 0xA001 else crc >>> 1)^[8]
        (crc ^^^ x.toNat)) x.toNat = (Pac.arc.digest x (data.map Pac.symbol)).toNat := by
  induction data generalizing x with
  | nil => rfl
  | cons b data ih =>
    have sum : x.toNat ^^^ b.toNat = (x ^^^ Pac.symbol b).toNat := by
      rw [BitVec.toNat_xor, Pac.symbol_toNat]
    have step := Pac.crcTableEntry_toNat (x ^^^ Pac.symbol b)
    rw [Pac.crcTableEntry] at step
    rw [List.foldl_cons, sum, step, ih]
    rfl

theorem nvCrc16_eq_crc16 (data : Bytes) : nvCrc16 data = Pac.crc16 data 0 := by
  have serial := (nvCrc16_register data 0).trans (Pac.crc16_zero data).symm
  have start : (0 : BitVec 16).toNat = 0 := rfl
  rw [start] at serial
  rw [nvCrc16, serial]
  exact Nat.and_two_pow_sub_one_of_lt_two_pow (n := 16) (Pac.crc16_lt data)

theorem foldl_crc16 (chunks : List Bytes) (crc : ℕ) :
    chunks.foldl (fun crc chunk => Pac.crc16 chunk crc) crc = Pac.crc16 chunks.flatten crc := by
  induction chunks generalizing crc with
  | nil => rfl
  | cons chunk chunks ih => rw [List.foldl_cons, ih, List.flatten_cons, Pac.crc16_append]

/-- The table-driven CRC threaded through any chunks is the bit-serial one of the
whole, as is that of the loop over the payload area. -/
theorem crc16_chunked (chunks : List Bytes) :
    chunks.foldl (fun crc chunk => Pac.crc16 chunk crc) 0 = nvCrc16 chunks.flatten ∧
      Pac.crcChunks chunks.flatten 0 = nvCrc16 chunks.flatten ∧
      nvCrc16 chunks.flatten < 2 ^ 16 := by
  refine ⟨by rw [foldl_crc16, nvCrc16_eq_crc16], by rw [Pac.crcChunks_eq, nvCrc16_eq_crc16], ?_⟩
  rw [nvCrc16_eq_crc16]
  exact Pac.crc16_lt _

def frameIn (mode : Checksum) : Step → List Bytes
  | .command cmd data _ => [wireMessage cmd data mode]
  | .lenient cmd data _ => [wireMessage cmd data mode]
  | _ => []

/-- A step that an acknowledging device lets pass. -/
def Passing (i : Step) : Prop := Exchanged true i ∧ halts i = false

def nvFrames (mode : Checksum) (addr sum : ℕ) (pieces : List Bytes) : List Bytes :=
  wireMessage bslCmdStartData (fields .big 4 [addr, pieces.flatten.length, sum]) mode ::
    (pieces.map (wireMessage bslCmdMidstData · mode) ++ [wireMessage bslCmdEndData [] mode])

theorem foldl_frames (mode : Checksum) (steps : List Step) (fs : List Bytes) :
    steps.foldl (fun fs i => fs ++ frameIn mode i) fs = fs ++ steps.flatMap (frameIn mode) := by
  induction steps generalizing fs with
  | nil => simp
  | cons i steps ih => rw [List.foldl_cons, ih, List.flatMap_cons, List.append_assoc]

section Image

variable {addr : ℕ} {template : Bytes} (haddr : addr < 2 ^ 32) (room : 2 ≤ template.length)
variable (hdata : template.length < 2 ^ 32)
include haddr room hdata

theorem nv_passing : ∀ i ∈ nv addr template, Passing i := fun i hi =>
  ⟨exchanged_nv true addr template i hi, Package.nv_sound haddr room hdata i hi⟩

theorem nv_frames (mode : Checksum) :
    (nv addr template).flatMap (frameIn mode) =
      nvFrames mode addr (sum32 (Package.nvFixed template))
        (Pieces.pieces bslChunk (Package.nvFixed template)) := by
  have midst (pieces : List Bytes) :
      (pieces.map (Step.command bslCmdMidstData · "NV MIDST")).flatMap (frameIn mode) =
        pieces.map (wireMessage bslCmdMidstData · mode) := by
    rw [List.flatMap_map, List.map_eq_flatMap]
    rfl
  rw [Package.nv_eq haddr room hdata, List.flatMap_cons, List.flatMap_append, midst, nvFrames,
    Pieces.pieces_flatten, Package.nvFixed_length room]
  rfl

end Image

/-- The slot of a fixed image holds the CRC of the rest. -/
theorem nvFixed_slot (template : Bytes) :
    unpack .big ((Package.nvFixed template).take 2) = Pac.crc16 (template.drop 2) 0 := by
  have small := Pac.crc16_lt (template.drop 2)
  have high : (Pac.crc16 (template.drop 2) 0 >>> 8) &&& 0xFF =
      Pac.crc16 (template.drop 2) 0 / 256 := by
    rw [Nat.shiftRight_eq_div_pow]
    exact Nat.and_two_pow_sub_one_of_lt_two_pow (n := 8) (by omega)
  have low : Pac.crc16 (template.drop 2) 0 &&& 0xFF = Pac.crc16 (template.drop 2) 0 % 256 :=
    Nat.and_two_pow_sub_one_eq_mod _ 8
  rw [Package.nvFixed, nvCrc16_eq_crc16, high, low]
  simp only [List.take_succ_cons, List.take_zero, unpack, List.reverse_cons, List.reverse_nil,
    List.nil_append, List.singleton_append, fromOctets, UInt8.toNat_ofNat']
  omega

theorem nvFixed_idem (template : Bytes) :
    Package.nvFixed (Package.nvFixed template) = Package.nvFixed template := rfl

theorem sum32_eq (data : Bytes) : sum32 data = (data.map UInt8.toNat).sum % 2 ^ 32 :=
  Nat.and_two_pow_sub_one_eq_mod _ 32

section Transfer

variable {σ : Type} [Device σ] [AcksCommands σ]

theorem command_passed {cmd : ℕ} {data : Bytes} (fits : Framable cmd data)
    (other : cmd ≠ bslCmdNormalReset) (what : String) {s : Port σ} (idle : Idle s) :
    ∃ rdata t, command cmd data bslRepAck what s = .ok rdata t ∧ Idle t ∧
      t.checksum = s.checksum ∧ frames t.log = frames s.log ++
        [wireMessage cmd data s.checksum] := by
  obtain ⟨rdata, t, run, idle'⟩ := command_idle fits other what idle
  obtain ⟨-, mode, body, written, -⟩ := command_ok run
  refine ⟨rdata, t, run, idle', mode, ?_⟩
  rw [written, frames_append, frames_wrote _ (by simp [Replies])]

structure Steady (mode : Checksum) (s : Port σ) : Prop where
  idle : Idle s
  mode : s.checksum = mode

theorem exec_passed {mode : Checksum} {i : Step} (passing : Passing i) {s : Port σ}
    (steady : Steady mode s) :
    ∃ t, i.exec s = .ok () t ∧ Steady mode t ∧
      frames t.log = frames s.log ++ frameIn mode i := by
  obtain ⟨idle, rfl⟩ := steady
  obtain ⟨exchanged, go⟩ := passing
  cases i with
  | command cmd data what =>
    obtain ⟨rdata, t, run, idle', mode', log⟩ :=
      command_passed (by simpa [halts] using go) exchanged.1 what idle
    exact ⟨t, bind_ok run, ⟨idle', mode'⟩, log⟩
  | lenient cmd data what =>
    obtain ⟨rdata, t, run, idle', mode', log⟩ :=
      command_passed (by simpa [halts] using go) exchanged.1 what idle
    refine ⟨t, ?_, ⟨idle', mode'⟩, log⟩
    rw [Step.exec, tolerating, bind_ok run]
    rfl
  | fail e => cases go
  | _ => exact exchanged.elim

theorem perform_passed {mode : Checksum} {steps : List Step} (h : ∀ i ∈ steps, Passing i)
    {s : Port σ} (steady : Steady mode s) :
    ∃ t, perform Step.exec steps s = .ok () t ∧ Steady mode t ∧
      frames t.log = frames s.log ++ steps.flatMap (frameIn mode) := by
  rw [← foldl_frames]
  exact perform_foldl (fun passing steady => exec_passed passing steady) h steady

theorem writeNv_frames {addr : ℕ} {template : Bytes} (haddr : addr < 2 ^ 32)
    (room : 2 ≤ template.length) (hdata : template.length < 2 ^ 32) {s : Port σ} (idle : Idle s) :
    ∃ t, writeNv addr template s = .ok () t ∧ Idle t ∧ t.checksum = s.checksum ∧
      frames t.log = frames s.log ++ nvFrames s.checksum addr (sum32 (Package.nvFixed template))
        (Pieces.pieces bslChunk (Package.nvFixed template)) := by
  obtain ⟨t, run, ⟨idle', mode⟩, written⟩ :=
    perform_passed (nv_passing haddr room hdata) (⟨idle, rfl⟩ : Steady s.checksum s)
  refine ⟨t, by rw [writeNv_eq, run], idle', mode, ?_⟩
  rw [written, nv_frames haddr room hdata]

/-- The NV transfer describes exactly the bytes it sends, and is the same for an
image it has been through. -/
theorem writeNv_consistent {addr : ℕ} {template : Bytes} (haddr : addr < 2 ^ 32)
    (room : 2 ≤ template.length) (hdata : template.length < 2 ^ 32) {s : Port σ} (idle : Idle s) :
    ∃ t pieces, writeNv addr template s = .ok () t ∧ Idle t ∧ t.checksum = s.checksum ∧
      let sent := pieces.flatten
      let sum := (sent.map UInt8.toNat).sum % 2 ^ 32
      frames t.log = frames s.log ++ nvFrames s.checksum addr sum pieces ∧
      (∀ piece ∈ pieces, 1 ≤ piece.length ∧ piece.length ≤ bslChunk) ∧
      sent.length = template.length ∧ sent.drop 2 = template.drop 2 ∧
      unpack .big (sent.take 2) = Pac.crc16 (sent.drop 2) 0 ∧
      ∀ u : Port σ, Idle u → u.checksum = s.checksum → ∃ t', writeNv addr sent u = .ok () t' ∧
        frames t'.log = frames u.log ++ nvFrames s.checksum addr sum pieces := by
  obtain ⟨t, run, idle', mode, written⟩ := writeNv_frames haddr room hdata idle
  have length := Package.nvFixed_length room
  refine ⟨t, Pieces.pieces bslChunk (Package.nvFixed template), run, idle', mode, ?_⟩
  simp only [Pieces.pieces_flatten, ← sum32_eq]
  refine ⟨written, fun piece hp => ?_, length, rfl, nvFixed_slot template,
    fun u idleU modeU => ?_⟩
  · have bound := Pieces.mem_pieces hp
    exact ⟨List.length_pos_of_ne_nil bound.1, bound.2.1⟩
  · obtain ⟨t', run', -, -, written'⟩ :=
      writeNv_frames haddr (length ▸ room) (length ▸ hdata) idleU
    rw [nvFixed_idem, modeU] at written'
    exact ⟨t', run', written'⟩

end Transfer

theorem writeNv_blank : ∃ t pieces,
    writeNv 0xFE000003 [0xFF, 0xFF, 0x31, 0x32, 0x33, 0x7E, 0x7D] (Port.fresh Acker.mk) =
      .ok () t ∧
    frames t.log = nvFrames .sprd 0xFE000003
      ((pieces.flatten.map UInt8.toNat).sum % 2 ^ 32) pieces ∧
    pieces.flatten.drop 2 = [0x31, 0x32, 0x33, 0x7E, 0x7D] := by
  have fresh : Idle (Port.fresh Acker.mk) := ⟨by simp [Port.fresh], rfl⟩
  have room : 2 ≤ ([0xFF, 0xFF, 0x31, 0x32, 0x33, 0x7E, 0x7D] : Bytes).length := by decide
  obtain ⟨t, pieces, run, -, -, written, -, -, rest, -⟩ :=
    writeNv_consistent (show 0xFE000003 < 2 ^ 32 by decide) room (by decide) fresh
  exact ⟨t, pieces, run, written, rest⟩

end SprdFlash.NvWrite
