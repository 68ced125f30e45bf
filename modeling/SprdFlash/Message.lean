import Mathlib.Logic.Function.Iterate
import SprdFlash.Struct
import SprdFlash.Library.Stuffing

/-!
The message layer of the BSL protocol: the two checksums, HDLC byte stuffing,
and building and parsing of one message. Integers of the source are unbounded
and masked where the source masks them, so the registers below are naturals.
-/

namespace SprdFlash.Message

open Struct

def hdlcFlag : UInt8 := 0x7E
def hdlcEscapeByte : UInt8 := 0x7D

def bslCmdConnect : ℕ := 0x00
def bslCmdStartData : ℕ := 0x01
def bslCmdMidstData : ℕ := 0x02
def bslCmdEndData : ℕ := 0x03
def bslCmdExecData : ℕ := 0x04
def bslCmdNormalReset : ℕ := 0x05
def bslCmdEraseFlash : ℕ := 0x0A

def bslRepAck : ℕ := 0x80
def bslRepVer : ℕ := 0x81

/-- The names `rep_name` prints for the reply types it knows. -/
def repNames : List (ℕ × String) :=
  [(0x80, "BSL_REP_ACK"), (0x81, "BSL_REP_VER"), (0x82, "BSL_REP_INVALID_CMD"),
   (0x83, "BSL_REP_UNKNOWN_CMD"), (0x84, "BSL_REP_OPERATION_FAILED"),
   (0x86, "BSL_REP_DOWN_NOT_START"), (0x87, "BSL_REP_DOWN_MULTI_START"),
   (0x88, "BSL_REP_DOWN_EARLY_END"), (0x89, "BSL_REP_DOWN_DEST_ERROR"),
   (0x8A, "BSL_REP_DOWN_SIZE_ERROR"), (0x8B, "BSL_REP_VERIFY_ERROR"),
   (0x8C, "BSL_REP_NOT_VERIFY"), (0x93, "BSL_REP_READ_FLASH"),
   (0x94, "BSL_REP_READ_CHIP_TYPE"), (0xAB, "BSL_REP_READ_CHIP_UID"),
   (0xFE, "BSL_REP_UNSUPPORTED_COMMAND")]

def repName (code : ℕ) : String := (repNames.lookup code).getD ("0x" ++ hex 4 code)

def crc16Shift (crc : ℕ) : ℕ :=
  ((crc <<< 1) ^^^ (if crc &&& 0x8000 ≠ 0 then 0x11021 else 0)) &&& 0xFFFF

def crc16Byte (crc : ℕ) (b : UInt8) : ℕ := crc16Shift^[8] (crc ^^^ (b.toNat <<< 8))

/-- BootROM checksum: CRC16 with polynomial 0x11021, most significant bit first. -/
def crc16 (data : Bytes) (crc : ℕ) : ℕ := data.foldl crc16Byte (crc &&& 0xFFFF)

/-- The loop over little-endian words; a last odd byte counts as a low byte. -/
def sprdTotal (total : ℕ) : Bytes → ℕ
  | [] => total
  | [a] => total + a.toNat
  | a :: b :: rest => sprdTotal (total + (a.toNat ||| (b.toNat <<< 8))) rest

def sprdChecksum (data : Bytes) : ℕ :=
  let total := sprdTotal 0 data
  let folded := (total >>> 16) + (total &&& 0xFFFF)
  let complement := ((folded + (folded >>> 16)) &&& 0xFFFF) ^^^ 0xFFFF
  ((complement >>> 8) ||| ((complement &&& 0xFF) <<< 8)) &&& 0xFFFF

/-- `SpdIO.checksum`: the session's checksum mode. -/
inductive Checksum
  | sprd
  | crc
  deriving DecidableEq, Repr

def checksumFor (mode : Checksum) (data : Bytes) : ℕ :=
  match mode with
  | .crc => crc16 data 0
  | .sprd => sprdChecksum data

def detectChecksum (frameBody : Bytes) : Option Checksum :=
  let n := frameBody.length
  if n < 6 then none
  else
    let body := frameBody.take (n - 2)
    let chk := ((frameBody.getD (n - 2) 0).toNat <<< 8) ||| (frameBody.getD (n - 1) 0).toNat
    if sprdChecksum body = chk then some .sprd
    else if crc16 body 0 = chk then some .crc
    else none

def hdlcEscape : Bytes → Bytes
  | [] => []
  | b :: rest =>
    if b = hdlcFlag ∨ b = hdlcEscapeByte then hdlcEscapeByte :: (b ^^^ 0x20) :: hdlcEscape rest
    else b :: hdlcEscape rest

/-- A dangling escape byte ends the loop. -/
def hdlcUnescape : Bytes → Bytes
  | [] => []
  | [b] => if b = hdlcEscapeByte then [] else [b]
  | b :: nxt :: rest =>
    if b = hdlcEscapeByte then (nxt ^^^ 0x20) :: hdlcUnescape rest
    else b :: hdlcUnescape (nxt :: rest)

def buildMessage (cmd : ℕ) (data : Bytes) (checksum : Checksum) : Except Exc Bytes := do
  let header ← pack .big 2 [cmd, data.length]
  let body := header ++ data
  let trailer ← pack .big 2 [checksumFor checksum body]
  return [hdlcFlag] ++ hdlcEscape (body ++ trailer) ++ [hdlcFlag]

def parseMessage (frame : Bytes) : Except Exc (ℕ × Bytes) :=
  let n := frame.length
  if n < 6 then .error (.valueError s!"frame too short ({n} bytes)")
  else
    let cmd := unpack .big (frame.take 2)
    let size := unpack .big ((frame.drop 2).take 2)
    let data := (frame.drop 4).take size
    let got := data.length
    if got ≠ size then .error (.valueError s!"truncated frame: declared {size}, got {got}")
    else .ok (cmd, data)

theorem and_ffff_lt (n : ℕ) : n &&& 0xFFFF < 65536 :=
  lt_of_le_of_lt Nat.and_le_right (by norm_num)

theorem crc16Shift_lt (crc : ℕ) : crc16Shift crc < 65536 := and_ffff_lt _

theorem crc16Byte_lt (crc : ℕ) (b : UInt8) : crc16Byte crc b < 65536 := by
  rw [crc16Byte, Function.iterate_succ_apply']
  exact crc16Shift_lt _

theorem crc16_lt (data : Bytes) (crc : ℕ) : crc16 data crc < 65536 := by
  rw [crc16]
  rcases List.eq_nil_or_concat data with rfl | ⟨front, b, rfl⟩
  · exact and_ffff_lt _
  · rw [List.concat_eq_append, List.foldl_concat]
    exact crc16Byte_lt _ _

theorem sprdChecksum_lt (data : Bytes) : sprdChecksum data < 65536 := and_ffff_lt _

theorem checksumFor_lt (mode : Checksum) (data : Bytes) : checksumFor mode data < 65536 := by
  cases mode
  · exact sprdChecksum_lt data
  · exact crc16_lt data 0

def hdlc : Stuffing.Code UInt8 where
  flag := hdlcFlag
  esc := hdlcEscapeByte
  mask := (· ^^^ 0x20)
  flag_ne_esc := by decide
  mask_mask b := by
    change b ^^^ 0x20 ^^^ 0x20 = b
    rw [UInt8.xor_assoc, UInt8.xor_self, UInt8.xor_zero]
  mask_flag := by decide
  mask_esc := by decide

theorem hdlcEscape_eq (frame : Bytes) : hdlcEscape frame = Stuffing.escape hdlc frame := by
  induction frame with
  | nil => rfl
  | cons b rest ih =>
    rw [hdlcEscape, Stuffing.escape, ih]
    rfl

theorem hdlcUnescape_eq (frame : Bytes) : hdlcUnescape frame = Stuffing.unescape hdlc frame := by
  fun_induction hdlcUnescape frame with
  | case1 => rfl
  | case2 => rfl
  | case3 b plain => exact (if_neg plain).symm
  | case4 nxt rest ih => rw [ih]; rfl
  | case5 b nxt rest plain ih => rw [ih]; exact (if_neg plain).symm

theorem hdlcUnescape_escape (frame : Bytes) :
    hdlcUnescape (Stuffing.escape hdlc frame) = frame := by
  rw [hdlcUnescape_eq, Stuffing.unescape_escape]

def covered (cmd : ℕ) (data : Bytes) : Bytes := fields .big 2 [cmd, data.length] ++ data

def messageBody (cmd : ℕ) (data : Bytes) (mode : Checksum) : Bytes :=
  covered cmd data ++ field .big 2 (checksumFor mode (covered cmd data))

def wireMessage (cmd : ℕ) (data : Bytes) (mode : Checksum) : Bytes :=
  Stuffing.enclose hdlc (Stuffing.escape hdlc (messageBody cmd data mode))

theorem buildMessage_ok {cmd : ℕ} {data : Bytes} (hcmd : cmd < 65536)
    (hdata : data.length < 65536) (mode : Checksum) :
    buildMessage cmd data mode = .ok (wireMessage cmd data mode) := by
  have header := pack_ok .big 2 [cmd, data.length] (by simp [hcmd, hdata])
  have trailer := pack_ok .big 2 [checksumFor mode (covered cmd data)]
    (by simpa using checksumFor_lt mode _)
  rw [covered] at trailer
  simp only [buildMessage, header, bind, Except.bind, trailer, pure, Except.pure, hdlcEscape_eq]
  simp [wireMessage, Stuffing.enclose, messageBody, covered, fields, hdlc]

theorem buildMessage_eq_ok {cmd : ℕ} {data w : Bytes} {mode : Checksum}
    (h : buildMessage cmd data mode = .ok w) :
    cmd < 65536 ∧ data.length < 65536 ∧ w = wireMessage cmd data mode := by
  have fits : cmd < 65536 ∧ data.length < 65536 := by
    cases header : pack .big 2 [cmd, data.length] with
    | error e => simp [buildMessage, header, bind, Except.bind] at h
    | ok bs => simpa using (pack_eq_ok header).1
  rw [buildMessage_ok fits.1 fits.2] at h
  exact ⟨fits.1, fits.2, (Except.ok.inj h).symm⟩

theorem buildMessage_error {cmd : ℕ} {data : Bytes} {mode : Checksum} {e : Exc}
    (h : buildMessage cmd data mode = .error e) : ∃ msg, e = .structError msg := by
  cases header : pack .big 2 [cmd, data.length] with
  | error e' =>
    simp only [buildMessage, header, bind, Except.bind, Except.error.injEq] at h
    subst h
    exact (pack_error header).2
  | ok bs =>
    have fits : cmd < 65536 ∧ data.length < 65536 := by simpa using (pack_eq_ok header).1
    rw [buildMessage_ok fits.1 fits.2] at h
    cases h

@[simp] theorem messageBody_length (cmd : ℕ) (data : Bytes) (mode : Checksum) :
    (messageBody cmd data mode).length = data.length + 6 := by
  simp [messageBody, covered, fields]
  omega

theorem messageBody_ne_nil (cmd : ℕ) (data : Bytes) (mode : Checksum) :
    messageBody cmd data mode ≠ [] := by
  intro h
  have := congrArg List.length h
  simp at this

theorem clean_escape_messageBody (cmd : ℕ) (data : Bytes) (mode : Checksum) :
    Stuffing.Clean hdlc (Stuffing.escape hdlc (messageBody cmd data mode)) :=
  Stuffing.clean_escape hdlc (messageBody_ne_nil cmd data mode)

theorem parseMessage_messageBody {cmd : ℕ} {data : Bytes} (hcmd : cmd < 65536)
    (hdata : data.length < 65536) (mode : Checksum) :
    parseMessage (messageBody cmd data mode) = .ok (cmd, data) := by
  have long : ¬ data.length + 6 < 6 := by omega
  have split : messageBody cmd data mode = field .big 2 cmd ++ (field .big 2 data.length ++
      (data ++ field .big 2 (checksumFor mode (covered cmd data)))) := by
    simp [messageBody, covered, fields]
  have cmdField : (messageBody cmd data mode).take 2 = field .big 2 cmd := by
    rw [split, List.take_left' (by simp)]
  have rest : (messageBody cmd data mode).drop 2 = field .big 2 data.length ++
      (data ++ field .big 2 (checksumFor mode (covered cmd data))) := by
    rw [split, List.drop_left' (by simp)]
  have payload : (messageBody cmd data mode).drop 4 =
      data ++ field .big 2 (checksumFor mode (covered cmd data)) := by
    have h := congrArg (List.drop 2) rest
    rwa [List.drop_drop, List.drop_left' (by simp)] at h
  simp only [parseMessage, messageBody_length, if_neg long, cmdField, rest, payload,
    List.take_left' (field_length .big 2 data.length), unpack_field .big 2 cmd hcmd,
    unpack_field .big 2 data.length hdata, List.take_left, ne_eq, not_true_eq_false, if_false]

end SprdFlash.Message
