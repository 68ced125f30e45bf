import SprdFlash.Exchange

/-!
Reading the log as the device reads the wire: every write is a PDL header, the
payload that follows it, a BSL frame or a lone flag, and its first byte tells
which. Each step of a plan adds the one command it stands for.
-/

namespace SprdFlash.WireLog

open Message Port SpdIO Struct Script Plan Exchange

inductive Sent
  | bsl (cmd : ℕ) (data : Bytes)
  | pdl (code arg1 arg2 : ℕ) (extra : Bytes)
  deriving DecidableEq, Repr

def decodeWrite : Bytes → Option Sent
  | [] => none
  | b :: rest =>
    if b = Pdl.pdlMagic then none
    else if b = hdlcFlag then
      match parseMessage (hdlcUnescape (rest.takeWhile (· ≠ hdlcFlag))) with
      | .ok (cmd, data) => some (.bsl cmd data)
      | .error _ => none
    else if (b :: rest).length < 12 then none
    else
      let word := fun i => unpack .little (((b :: rest).drop i).take 4)
      some (.pdl (word 0) (word 4) (word 8) ((b :: rest).drop 12))

def sent : Act → Option Sent
  | .wrote bs => decodeWrite bs
  | _ => none

def sentCmds (log : List Act) : List Sent := log.filterMap sent

theorem decodeWrite_wireMessage {cmd : ℕ} {data : Bytes} (fits : Framable cmd data)
    (mode : Checksum) : decodeWrite (wireMessage cmd data mode) = some (.bsl cmd data) := by
  have clean := clean_escape_messageBody cmd data mode
  have body : (Stuffing.escape hdlc (messageBody cmd data mode) ++ [hdlcFlag]).takeWhile
      (· ≠ hdlcFlag) = Stuffing.escape hdlc (messageBody cmd data mode) := by
    rw [List.takeWhile_append_of_pos]
    · simp
    · intro b hb
      have other : b ≠ hdlcFlag := by
        intro same
        rw [same] at hb
        exact clean.2 hb
      simp [other]
  have wire : wireMessage cmd data mode =
      hdlcFlag :: (Stuffing.escape hdlc (messageBody cmd data mode) ++ [hdlcFlag]) := rfl
  rw [wire, decodeWrite, if_neg (by decide), if_pos rfl, body, hdlcUnescape_escape,
    parseMessage_messageBody fits.1 fits.2]

theorem decodeWrite_flag : decodeWrite [hdlcFlag] = none := by decide

theorem decodeWrite_pdlHeader (length : ℕ) : decodeWrite (pdlHeader length) = none := rfl

/-- The four fields of a request, read back from its payload. -/
theorem pdlPayload_fields (cmd : Pdl.Command) {arg1 arg2 : ℕ} {extra : Bytes}
    (fits : Packable arg1 arg2 extra) :
    unpack .little ((pdlPayload cmd arg1 arg2 extra).take 4) = cmd.code ∧
      unpack .little (((pdlPayload cmd arg1 arg2 extra).drop 4).take 4) = arg1 ∧
      unpack .little (((pdlPayload cmd arg1 arg2 extra).drop 8).take 4) = arg2 ∧
      (pdlPayload cmd arg1 arg2 extra).drop 12 = extra := by
  have code := code_lt cmd
  have split : pdlPayload cmd arg1 arg2 extra = field .little 4 cmd.code ++
      (field .little 4 arg1 ++ (field .little 4 arg2 ++ extra)) := by
    simp [pdlPayload, fields]
  have rest4 : (pdlPayload cmd arg1 arg2 extra).drop 4 =
      field .little 4 arg1 ++ (field .little 4 arg2 ++ extra) := by
    rw [split, List.drop_left' (by simp)]
  have rest8 : (pdlPayload cmd arg1 arg2 extra).drop 8 = field .little 4 arg2 ++ extra := by
    have h := congrArg (List.drop 4) rest4
    rwa [List.drop_drop, List.drop_left' (by simp)] at h
  have rest12 : (pdlPayload cmd arg1 arg2 extra).drop 12 = extra := by
    have h := congrArg (List.drop 4) rest8
    rwa [List.drop_drop, List.drop_left' (by simp)] at h
  refine ⟨?_, ?_, ?_, rest12⟩
  · rw [split, List.take_left' (by simp), unpack_field .little 4 _ (by omega)]
  · rw [rest4, List.take_left' (by simp), unpack_field .little 4 _ fits.1]
  · rw [rest8, List.take_left' (by simp), unpack_field .little 4 _ fits.2.1]

theorem decodeWrite_pdlPayload (cmd : Pdl.Command) {arg1 arg2 : ℕ} {extra : Bytes}
    (fits : Packable arg1 arg2 extra) :
    decodeWrite (pdlPayload cmd arg1 arg2 extra) = some (.pdl cmd.code arg1 arg2 extra) := by
  obtain ⟨word0, word4, word8, rest12⟩ := pdlPayload_fields cmd fits
  have length := pdlPayload_length cmd arg1 arg2 extra
  obtain ⟨b, rest, whole, notMagic, notFlag⟩ : ∃ b rest,
      pdlPayload cmd arg1 arg2 extra = b :: rest ∧ b ≠ Pdl.pdlMagic ∧ b ≠ hdlcFlag := by
    cases cmd <;> exact ⟨_, _, rfl, by decide, by decide⟩
  rw [whole] at word0 word4 word8 rest12 length ⊢
  rw [decodeWrite, if_neg notMagic, if_neg notFlag, if_neg (by omega)]
  simp only [List.drop_zero, word0, word4, word8, rest12]

/-- A step that fails whatever the device does. -/
def halts : Step → Bool
  | .request _ arg1 arg2 extra => ¬ Packable arg1 arg2 extra
  | .handOver => false
  | .setChecksum _ => false
  | .autobaud attempts => attempts = 0
  | .command cmd data _ => ¬ Framable cmd data
  | .lenient cmd data _ => ¬ Framable cmd data
  | .send cmd data => ¬ Framable cmd data
  | .fail _ => true

def emits : Step → List Sent
  | .request cmd arg1 arg2 extra => [.pdl cmd.code arg1 arg2 extra]
  | .handOver => [.pdl Pdl.Command.exec.code 0 0 []]
  | .setChecksum _ => []
  | .autobaud _ => []
  | .command cmd data _ => [.bsl cmd data]
  | .lenient cmd data _ => [.bsl cmd data]
  | .send cmd data => [.bsl cmd data]
  | .fail _ => []

theorem sentCmds_append (xs ys : List Act) : sentCmds (xs ++ ys) = sentCmds xs ++ sentCmds ys :=
  List.filterMap_append

theorem sentCmds_of_forall {acts : List Act} (h : ∀ act ∈ acts, sent act = none) :
    sentCmds acts = [] := by
  rw [sentCmds, List.filterMap_eq_nil_iff]
  exact h

theorem sentCmds_replies {acts : List Act} (h : Replies acts) : sentCmds acts = [] := by
  apply sentCmds_of_forall
  intro act hact
  obtain ⟨body, rfl⟩ := h act hact
  rfl

theorem sentCmds_polling {acts : List Act} (h : ∀ act ∈ acts, Polling act) :
    sentCmds acts = [] := by
  apply sentCmds_of_forall
  intro act hact
  rcases h act hact with rfl | ⟨body, rfl⟩ | ⟨data, rfl⟩
  · exact decodeWrite_flag
  · rfl
  · rfl

theorem sentCmds_pdlActs (cmd : Pdl.Command) {arg1 arg2 : ℕ} {extra : Bytes}
    (fits : Packable arg1 arg2 extra) :
    sentCmds (pdlActs (pdlPayload cmd arg1 arg2 extra)) = [.pdl cmd.code arg1 arg2 extra] := by
  have header : sent (.wrote (pdlHeader (pdlPayload cmd arg1 arg2 extra).length)) = none := rfl
  have payload : sent (.wrote (pdlPayload cmd arg1 arg2 extra)) =
      some (.pdl cmd.code arg1 arg2 extra) := decodeWrite_pdlPayload cmd fits
  rw [sentCmds, pdlActs, List.filterMap_cons_none header, List.filterMap_cons_some payload]
  rfl

theorem sentCmds_execActs : sentCmds execActs = [.pdl Pdl.Command.exec.code 0 0 []] :=
  sentCmds_pdlActs .exec (by decide)

theorem sentCmds_wire {cmd : ℕ} {data : Bytes} (fits : Framable cmd data) (mode : Checksum)
    {acts : List Act} (h : Replies acts) :
    sentCmds (.wrote (wireMessage cmd data mode) :: acts) = [.bsl cmd data] := by
  have replies := sentCmds_replies h
  simp only [sentCmds] at replies ⊢
  simp [sent, decodeWrite_wireMessage fits, replies]

variable {σ : Type} [Device σ]

omit [Device σ] in
theorem tolerating_ok {body : Session σ Unit} {s t : Port σ}
    (h : Native.tolerating body s = .ok () t) :
    body s = .ok () t ∨ ∃ msg, body s = .error (.protocolError msg) t := by
  unfold Native.tolerating at h
  split at h
  · cases h
    exact .inl ‹_›
  · cases h
    exact .inr ⟨_, ‹_›⟩
  · cases h

omit [Device σ] in
theorem tolerating_error {body : Session σ Unit} {s t : Port σ} {e : Exc}
    (h : Native.tolerating body s = .error e t) : body s = .error e t := by
  unfold Native.tolerating at h
  split at h
  · cases h
  · cases h
  · cases h
    exact ‹_›

omit [Device σ] in
theorem voided_ok {x : Session σ Bytes} {s t : Port σ}
    (h : (x >>= fun _ => pure ()) s = .ok () t) : ∃ rdata, x s = .ok rdata t := by
  obtain ⟨rdata, s', hx, hdone⟩ := bind_eq_ok h
  cases hdone
  exact ⟨rdata, hx⟩

omit [Device σ] in
theorem voided_error {x : Session σ Bytes} {s t : Port σ} {e : Exc}
    (h : (x >>= fun _ => pure ()) s = .error e t) : x s = .error e t := by
  rcases bind_eq_error h with hx | ⟨_, _, _, hdone⟩
  · exact hx
  · cases hdone

theorem command_sends {cmd expect : ℕ} {data rdata : Bytes} {what : String} {s t : Port σ}
    (h : SpdIO.command cmd data expect what s = .ok rdata t) :
    decide (¬ Framable cmd data) = false ∧ sentCmds t.log = sentCmds s.log ++ [.bsl cmd data] := by
  obtain ⟨fits, _, body, written, _⟩ := command_ok h
  refine ⟨by simp [fits], ?_⟩
  rw [written, sentCmds_append, sentCmds_wire fits _ (by simp [Replies])]

theorem command_emits {cmd expect : ℕ} {data : Bytes} {what : String} {s t : Port σ} {e : Exc}
    (h : SpdIO.command cmd data expect what s = .error e t) :
    ∃ part, part <+: [Sent.bsl cmd data] ∧
      (decide (¬ Framable cmd data) = true → part = []) ∧
      sentCmds t.log = sentCmds s.log ++ part := by
  rcases command_error h with ⟨large, same, _⟩ | ⟨fits, _, replies, plain, written, _⟩
  · exact ⟨[], List.nil_prefix, fun _ => rfl, by rw [same, List.append_nil]⟩
  · refine ⟨[.bsl cmd data], List.prefix_rfl, by simp [fits], ?_⟩
    rw [written, sentCmds_append, sentCmds_wire fits _ plain]

/-- Each step adds the command it stands for, or an initial part of it. -/
theorem sent_traced : Traced (Step.exec (σ := σ)) (fun _ => True) (fun _ => True)
    (fun s => sentCmds s.log) emits halts where
  ok := by
    intro i s t _ _ run
    cases i with
    | request cmd arg1 arg2 extra =>
      obtain ⟨fits, response, written⟩ := request_ok run
      refine ⟨by simp [halts, fits], trivial, ?_⟩
      rw [written, sentCmds_append, sentCmds_append, sentCmds_pdlActs cmd fits]
      rfl
    | handOver =>
      obtain ⟨kicks, version, flags, written⟩ := handOver_ok run
      refine ⟨rfl, trivial, ?_⟩
      rw [written, sentCmds_append, sentCmds_append, sentCmds_append, sentCmds_execActs,
        sentCmds_polling fun act hact => .inl (flags act hact)]
      rfl
    | setChecksum mode =>
      cases run
      exact ⟨rfl, trivial, by simp [emits]⟩
    | autobaud attempts =>
      obtain ⟨version, hversion⟩ := voided_ok run
      obtain ⟨acts, polling, written⟩ := autobaudFrom_appends attempts attempts s
      have hversion' : autobaudFrom attempts attempts s = .ok version t := hversion
      rw [hversion'] at written
      refine ⟨?_, trivial, ?_⟩
      · cases attempts with
        | zero => cases hversion
        | succ attempts => rfl
      · rw [show t.log = s.log ++ acts from written, sentCmds_append, sentCmds_polling polling]
        rfl
    | command cmd data what =>
      obtain ⟨rdata, hcommand⟩ := voided_ok run
      obtain ⟨sound, written⟩ := command_sends hcommand
      exact ⟨sound, trivial, written⟩
    | lenient cmd data what =>
      rcases tolerating_ok run with returned | ⟨msg, refused⟩
      · obtain ⟨rdata, hcommand⟩ := voided_ok returned
        obtain ⟨sound, written⟩ := command_sends hcommand
        exact ⟨sound, trivial, written⟩
      · rcases command_error (voided_error refused) with
          ⟨_, _, other⟩ | ⟨fits, _, replies, plain, written, _⟩
        · exact absurd rfl (other msg)
        · refine ⟨by simp [halts, fits], trivial, ?_⟩
          rw [written, sentCmds_append, sentCmds_wire fits _ plain]
          rfl
    | send cmd data =>
      obtain ⟨fits, _, written⟩ := send_ok run
      refine ⟨by simp [halts, fits], trivial, ?_⟩
      rw [written, sentCmds_append, sentCmds_wire fits _ (by simp [Replies])]
      rfl
    | fail e => cases run
  error := by
    intro i s e t _ _ run
    cases i with
    | request cmd arg1 arg2 extra =>
      rcases request_error run with ⟨large, same⟩ | ⟨fits, acts, part, written⟩
      · exact ⟨[], List.nil_prefix, fun _ => rfl, by rw [same, List.append_nil]⟩
      · refine ⟨sentCmds acts, ?_, by simp [halts, fits], by rw [written, sentCmds_append]⟩
        rw [emits, ← sentCmds_pdlActs cmd fits]
        exact part.filterMap sent
    | handOver =>
      obtain ⟨acts, kicks, part, flags, written⟩ := handOver_error run
      refine ⟨sentCmds acts, ?_, by simp [halts], ?_⟩
      · rw [emits, ← sentCmds_execActs]
        exact part.filterMap sent
      · rw [written, sentCmds_append, sentCmds_append,
          sentCmds_polling fun act hact => .inl (flags act hact), List.append_nil]
    | setChecksum mode => cases run
    | autobaud attempts =>
      obtain ⟨acts, polling, written⟩ := autobaudFrom_appends attempts attempts s
      have failed : autobaudFrom attempts attempts s = .error e t := voided_error run
      rw [failed] at written
      refine ⟨[], List.nil_prefix, fun _ => rfl, ?_⟩
      rw [show t.log = s.log ++ acts from written, sentCmds_append, sentCmds_polling polling]
    | command cmd data what => exact command_emits (voided_error run)
    | lenient cmd data what => exact command_emits (voided_error (tolerating_error run))
    | send cmd data =>
      rcases (send_error run).2 with ⟨large, same⟩ | ⟨fits, _, written⟩
      · exact ⟨[], List.nil_prefix, fun _ => rfl, by rw [same, List.append_nil]⟩
      · refine ⟨[.bsl cmd data], List.prefix_rfl, by simp [halts, fits], ?_⟩
        rw [written, sentCmds_append, sentCmds_wire fits _ (by simp [Replies])]
    | fail e =>
      cases run
      exact ⟨[], List.nil_prefix, fun _ => rfl, by rw [List.append_nil]⟩

end SprdFlash.WireLog
