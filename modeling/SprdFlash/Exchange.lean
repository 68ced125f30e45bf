import SprdFlash.Plan

/-!
What one operation of a link layer leaves in the log, for an arbitrary device.
Operations only append: the message if it can be framed, then the replies read.
An operation that cannot frame its message fails before it writes.
-/

namespace SprdFlash.Exchange

open Message Port SpdIO Script Struct Plan

variable {σ : Type}

/-- The messages `build_message` can frame. -/
def Framable (cmd : ℕ) (data : Bytes) : Prop := cmd < 65536 ∧ data.length < 65536

instance (cmd : ℕ) (data : Bytes) : Decidable (Framable cmd data) :=
  inferInstanceAs (Decidable (_ ∧ _))

def Replies (acts : List Act) : Prop := ∀ act ∈ acts, ∃ body, act = .reply body

theorem readFrame_ok {s t : Port σ} {body : Bytes} (h : readFrame s = .ok body t) :
    t.log = s.log ++ [.reply body] ∧ t.checksum = s.checksum ∧ t.device = s.device := by
  unfold readFrame at h
  split at h
  · cases h
    exact ⟨rfl, rfl, rfl⟩
  · cases h

theorem readBody_raises {body : Bytes} {events rest : List Event} {e : Exc}
    (h : readBody body events = (.error e, rest)) :
    (∃ msg, e = .timeoutError msg) ∨ ∃ msg, e = .osError msg := by
  fun_induction readBody body events <;> simp_all <;> grind

theorem seekFlag_raises {events rest : List Event} {e : Exc}
    (h : seekFlag events = (.error e, rest)) :
    (∃ msg, e = .timeoutError msg) ∨ ∃ msg, e = .osError msg := by
  fun_induction seekFlag events with
  | case1 => grind
  | case2 => grind
  | case3 => grind
  | case4 rest ih => exact ih h
  | case5 rest ih => exact ih h
  | case6 rest => exact readBody_raises h
  | case7 b rest other ih => exact ih h

theorem readFrame_error {s t : Port σ} {e : Exc} (h : readFrame s = .error e t) :
    t.log = s.log ∧ t.checksum = s.checksum ∧ ∀ msg, e ≠ .protocolError msg := by
  unfold readFrame at h
  split at h
  · cases h
  · rename_i found
    cases h
    refine ⟨rfl, rfl, fun msg => ?_⟩
    rcases seekFlag_raises found with ⟨text, rfl⟩ | ⟨text, rfl⟩
    · simp
    · simp

theorem parseMessage_valueError {body : Bytes} {e : Exc} (h : parseMessage body = .error e) :
    ∃ msg, e = .valueError msg := by
  simp only [parseMessage] at h
  split_ifs at h
  · cases h
    exact ⟨_, rfl⟩
  · cases h
    exact ⟨_, rfl⟩

theorem recv_ok {s t : Port σ} {m : ℕ × Bytes} (h : recv s = .ok m t) :
    ∃ body, t.log = s.log ++ [.reply body] ∧ t.checksum = s.checksum ∧
      parseMessage body = .ok m := by
  rw [recv_def] at h
  obtain ⟨body, s', hread, hparse⟩ := bind_eq_ok h
  have read := readFrame_ok hread
  cases parsed : parseMessage body with
  | error e => simp [raising, parsed] at hparse
  | ok m' =>
    simp only [raising, parsed] at hparse
    cases hparse
    exact ⟨body, read.1, read.2.1, parsed⟩

theorem recv_error {s t : Port σ} {e : Exc} (h : recv s = .error e t) :
    t.checksum = s.checksum ∧ (∀ msg, e ≠ .protocolError msg) ∧
      ∃ replies, Replies replies ∧ t.log = s.log ++ replies := by
  rw [recv_def] at h
  rcases bind_eq_error h with hread | ⟨body, s', hread, hparse⟩
  · have silent := readFrame_error hread
    exact ⟨silent.2.1, silent.2.2, [], by simp [Replies], by simp [silent.1]⟩
  · have read := readFrame_ok hread
    cases parsed : parseMessage body with
    | ok m => simp [raising, parsed] at hparse
    | error e' =>
      simp only [raising, parsed] at hparse
      cases hparse
      obtain ⟨text, rfl⟩ := parseMessage_valueError parsed
      exact ⟨read.2.1, by simp, [.reply body], by simp [Replies], read.1⟩

variable [Device σ]

theorem write_ok {bs : Bytes} {s t : Port σ} (h : write bs s = .ok () t) :
    t.log = s.log ++ [.wrote bs] ∧ t.checksum = s.checksum := by
  unfold write at h
  split at h
  · cases h
    exact ⟨rfl, rfl⟩
  · cases h

theorem write_error {bs : Bytes} {s t : Port σ} {e : Exc} (h : write bs s = .error e t) :
    t.log = s.log ++ [.wrote bs] ∧ t.checksum = s.checksum ∧ ∀ msg, e ≠ .protocolError msg := by
  unfold write at h
  split at h
  · cases h
  · cases h
    exact ⟨rfl, rfl, by simp⟩

theorem send_eq (cmd : ℕ) (data : Bytes) (s : Port σ) :
    send cmd data s = (raising (buildMessage cmd data s.checksum) >>= fun msg => write msg) s := rfl

theorem send_framable {cmd : ℕ} {data : Bytes} (fits : Framable cmd data) (s : Port σ) :
    send cmd data s = write (wireMessage cmd data s.checksum) s := by
  rw [send_eq, buildMessage_ok fits.1 fits.2 s.checksum]
  exact bind_ok rfl

theorem send_structError {cmd : ℕ} {data : Bytes} (large : ¬ Framable cmd data) (s : Port σ) :
    ∃ msg, send cmd data s = .error (.structError msg) s := by
  cases built : buildMessage cmd data s.checksum with
  | ok w => exact absurd ⟨(buildMessage_eq_ok built).1, (buildMessage_eq_ok built).2.1⟩ large
  | error e =>
    obtain ⟨msg, rfl⟩ := buildMessage_error built
    refine ⟨msg, ?_⟩
    rw [send_eq, built]
    exact bind_error rfl

theorem send_unframable {cmd : ℕ} {data : Bytes} (large : ¬ Framable cmd data) (s : Port σ) :
    ∃ e, send cmd data s = .error e s ∧ ∀ msg, e ≠ .protocolError msg := by
  obtain ⟨text, failed⟩ := send_structError large s
  exact ⟨_, failed, by simp⟩

theorem send_ok {cmd : ℕ} {data : Bytes} {s t : Port σ} (h : send cmd data s = .ok () t) :
    Framable cmd data ∧ t.checksum = s.checksum ∧
      t.log = s.log ++ [.wrote (wireMessage cmd data s.checksum)] := by
  by_cases fits : Framable cmd data
  · rw [send_framable fits] at h
    have written := write_ok h
    exact ⟨fits, written.2, written.1⟩
  · obtain ⟨e, he, _⟩ := send_unframable fits s
    rw [he] at h
    cases h

theorem send_error {cmd : ℕ} {data : Bytes} {s t : Port σ} {e : Exc}
    (h : send cmd data s = .error e t) :
    (∀ msg, e ≠ .protocolError msg) ∧ (¬ Framable cmd data ∧ t = s ∨
      Framable cmd data ∧ t.checksum = s.checksum ∧
        t.log = s.log ++ [.wrote (wireMessage cmd data s.checksum)]) := by
  by_cases fits : Framable cmd data
  · rw [send_framable fits] at h
    have written := write_error h
    exact ⟨written.2.2, .inr ⟨fits, written.2.1, written.1⟩⟩
  · obtain ⟨e', he, other⟩ := send_unframable fits s
    rw [he] at h
    cases h
    exact ⟨other, .inl ⟨fits, rfl⟩⟩

/-- A command that returns has read one reply of the expected type. -/
theorem command_ok {cmd expect : ℕ} {data rdata : Bytes} {what : String} {s t : Port σ}
    (h : command cmd data expect what s = .ok rdata t) :
    Framable cmd data ∧ t.checksum = s.checksum ∧ ∃ body,
      t.log = s.log ++ [.wrote (wireMessage cmd data s.checksum), .reply body] ∧
      parseMessage body = .ok (expect, rdata) := by
  obtain ⟨_, s₁, hsend, hrest⟩ := bind_eq_ok h
  obtain ⟨⟨rtype, rdata'⟩, s₂, hrecv, hcheck⟩ := bind_eq_ok hrest
  obtain ⟨fits, mode, written⟩ := send_ok hsend
  obtain ⟨body, read, mode', parsed⟩ := recv_ok hrecv
  by_cases same : rtype = expect
  · simp only [ne_eq, same, not_true_eq_false, if_false] at hcheck
    cases hcheck
    refine ⟨fits, mode'.trans mode, body, ?_, by rw [parsed, same]⟩
    rw [read, written, List.append_assoc]
    rfl
  · simp only [ne_eq, same, not_false_eq_true, if_true] at hcheck
    cases hcheck

/-- A command that raises `ProtocolError` has read one well-formed reply. -/
theorem command_error {cmd expect : ℕ} {data : Bytes} {what : String} {s t : Port σ} {e : Exc}
    (h : command cmd data expect what s = .error e t) :
    ¬ Framable cmd data ∧ t = s ∧ (∀ msg, e ≠ .protocolError msg) ∨
    Framable cmd data ∧ t.checksum = s.checksum ∧ ∃ replies, Replies replies ∧
      t.log = s.log ++ .wrote (wireMessage cmd data s.checksum) :: replies ∧
      ∀ msg, e = .protocolError msg → ∃ body m, replies = [.reply body] ∧
        parseMessage body = .ok m := by
  rcases bind_eq_error h with hsend | ⟨_, s₁, hsend, hrest⟩
  · obtain ⟨other, ⟨large, same⟩ | ⟨fits, mode, written⟩⟩ := send_error hsend
    · exact .inl ⟨large, same, other⟩
    · exact .inr ⟨fits, mode, [], by simp [Replies], written, fun msg he => absurd he (other msg)⟩
  obtain ⟨fits, mode, written⟩ := send_ok hsend
  refine .inr ⟨fits, ?_⟩
  rcases bind_eq_error hrest with hrecv | ⟨⟨rtype, rdata⟩, s₂, hrecv, hcheck⟩
  · obtain ⟨mode', other, replies, plain, read⟩ := recv_error hrecv
    refine ⟨mode'.trans mode, replies, plain, ?_, fun msg he => absurd he (other msg)⟩
    rw [read, written, List.append_assoc]
    rfl
  · obtain ⟨body, read, mode', parsed⟩ := recv_ok hrecv
    by_cases same : rtype = expect
    · simp only [ne_eq, same, not_true_eq_false, if_false] at hcheck
      cases hcheck
    · simp only [ne_eq, same, not_false_eq_true, if_true] at hcheck
      cases hcheck
      refine ⟨mode'.trans mode, [.reply body], by simp [Replies], ?_,
        fun _ _ => ⟨body, _, rfl, parsed⟩⟩
      rw [read, written, List.append_assoc]
      rfl

/-- The requests that `struct.pack` can hold. -/
def Packable (arg1 arg2 : ℕ) (extra : Bytes) : Prop :=
  arg1 < 2 ^ 32 ∧ arg2 < 2 ^ 32 ∧ extra.length + 12 < 65536

instance (arg1 arg2 : ℕ) (extra : Bytes) : Decidable (Packable arg1 arg2 extra) :=
  inferInstanceAs (Decidable (_ ∧ _))

def pdlHeader (length : ℕ) : Bytes :=
  [Pdl.pdlMagic] ++ fields .little 2 [length] ++ [0x00, 0x00, 0xFF, 0x00, 0x00]

def pdlPayload (cmd : Pdl.Command) (arg1 arg2 : ℕ) (extra : Bytes) : Bytes :=
  fields .little 4 [cmd.code, arg1, arg2] ++ extra

omit [Device σ] in
@[simp] theorem pdlPayload_length (cmd : Pdl.Command) (arg1 arg2 : ℕ) (extra : Bytes) :
    (pdlPayload cmd arg1 arg2 extra).length = extra.length + 12 := by
  simp [pdlPayload, fields]
  omega

theorem code_lt (cmd : Pdl.Command) : cmd.code < 8 := by cases cmd <;> decide

def pdlActs (payload : Bytes) : List Act := [.wrote (pdlHeader payload.length), .wrote payload]

theorem pdlSend_eq {payload : Bytes} (fits : payload.length < 65536) (s : Port σ) :
    Pdl.send payload s =
      (write (pdlHeader payload.length) >>= fun _ => write payload) s := by
  have packed := pack_ok .little 2 [payload.length] (by simpa using fits)
  simp [Pdl.send, Pdl.build, packed, bind, EStateM.bind, Except.bind, raising, pdlHeader, pure,
    Except.pure]

def pdlWrites (payload : Bytes) (device : σ) (pending : List Event) : Option (σ × List Event) :=
  match Device.onWrite device (pdlHeader payload.length) with
  | none => none
  | some (device, early) => match Device.onWrite device payload with
    | none => none
    | some (device, late) => some (device, pending ++ early ++ late)

theorem pdlSend_writes (payload : Bytes) (fits : payload.length < 65536) (s : Port σ) :
    match pdlWrites payload s.device s.pending with
    | none => ∃ t acts, Pdl.send payload s = .error (.osError "write failed") t ∧
        t.log = s.log ++ acts ∧ acts <+: pdlActs payload ∧ acts ≠ []
    | some (device, pending) => Pdl.send payload s =
        .ok () ⟨device, pending, s.log ++ pdlActs payload, s.checksum⟩ := by
  have both : s.log ++ [.wrote (pdlHeader payload.length)] ++ [.wrote payload] =
      s.log ++ pdlActs payload := List.append_assoc _ _ _
  rw [pdlSend_eq fits, pdlWrites]
  cases header : Device.onWrite s.device (pdlHeader payload.length) with
  | none =>
    exact ⟨_, [.wrote (pdlHeader payload.length)], bind_error (write_of_none header), rfl,
      ⟨[.wrote payload], rfl⟩, by simp⟩
  | some reaction =>
    obtain ⟨device, early⟩ := reaction
    rw [bind_ok (write_of_some header)]
    simp only
    cases body : Device.onWrite device payload with
    | none => exact ⟨_, pdlActs payload, write_of_none body, both, List.prefix_rfl,
      by simp [pdlActs]⟩
    | some reaction => exact both ▸ write_of_some body

theorem pdlSend_ok {payload : Bytes} (fits : payload.length < 65536) {s t : Port σ}
    (h : Pdl.send payload s = .ok () t) : t.log = s.log ++ pdlActs payload := by
  rw [pdlSend_eq fits] at h
  obtain ⟨_, s', hheader, hpayload⟩ := bind_eq_ok h
  rw [(write_ok hpayload).1, (write_ok hheader).1, List.append_assoc]
  rfl

theorem pdlSend_error {payload : Bytes} (fits : payload.length < 65536) {s t : Port σ} {e : Exc}
    (h : Pdl.send payload s = .error e t) :
    ∃ acts, acts <+: pdlActs payload ∧ t.log = s.log ++ acts := by
  rw [pdlSend_eq fits] at h
  rcases bind_eq_error h with hheader | ⟨_, s', hheader, hpayload⟩
  · exact ⟨_, ⟨[.wrote payload], rfl⟩, (write_error hheader).1⟩
  · refine ⟨_, List.prefix_rfl, ?_⟩
    rw [(write_error hpayload).1, (write_ok hheader).1, List.append_assoc]
    rfl

omit [Device σ] in
theorem pdlRecv_ok {s t : Port σ} {m : ℕ × Bytes} (h : Pdl.recv s = .ok m t) :
    ∃ payload, t.log = s.log ++ [.response payload] := by
  unfold Pdl.recv at h
  split at h
  · cases h
    exact ⟨_, rfl⟩
  · cases h

omit [Device σ] in
theorem pdlRecv_error {s t : Port σ} {e : Exc} (h : Pdl.recv s = .error e t) :
    t.log = s.log := by
  unfold Pdl.recv at h
  split at h
  · cases h
  · cases h
    rfl

theorem request_packable {cmd : Pdl.Command} {arg1 arg2 : ℕ} {extra : Bytes}
    (fits : Packable arg1 arg2 extra) (s : Port σ) :
    Pdl.request cmd arg1 arg2 extra s =
      (Pdl.command (pdlPayload cmd arg1 arg2 extra) >>= fun _ => pure ()) s := by
  have code := code_lt cmd
  have packed := pack_ok .little 4 [cmd.code, arg1, arg2] (by
    simp only [List.mem_cons, List.not_mem_nil, or_false, forall_eq_or_imp, forall_eq]
    exact ⟨by omega, fits.1, fits.2.1⟩)
  simp [Pdl.request, Pdl.params, packed, bind, EStateM.bind, Except.bind, raising, pdlPayload,
    pure, Except.pure]

theorem request_structError {cmd : Pdl.Command} {arg1 arg2 : ℕ} {extra : Bytes}
    (large : ¬ Packable arg1 arg2 extra) (s : Port σ) :
    ∃ msg, Pdl.request cmd arg1 arg2 extra s = .error (.structError msg) s := by
  cases packed : pack .little 4 [cmd.code, arg1, arg2] with
  | error e =>
    obtain ⟨-, msg, rfl⟩ := pack_error packed
    refine ⟨msg, ?_⟩
    simp [Pdl.request, Pdl.params, packed, bind, EStateM.bind, Except.bind, raising]
  | ok words =>
    obtain ⟨bounds, rfl⟩ := pack_eq_ok packed
    have long : 65536 ≤ (pdlPayload cmd arg1 arg2 extra).length := by
      rw [pdlPayload_length]
      simp only [List.mem_cons, List.not_mem_nil, or_false, forall_eq_or_imp, forall_eq] at bounds
      unfold Packable at large
      omega
    have refused : ∃ msg, pack .little 2 [(pdlPayload cmd arg1 arg2 extra).length] =
        .error (.structError msg) := by
      rw [pack, if_neg (by omega)]
      exact ⟨_, rfl⟩
    obtain ⟨msg, refused⟩ := refused
    refine ⟨msg, ?_⟩
    rw [pdlPayload] at refused
    simp only [Pdl.request, Pdl.params, packed, bind, EStateM.bind, Except.bind, raising, pure,
      Except.pure, Pdl.command, Pdl.send, Pdl.build, refused]

theorem request_answered (cmd : Pdl.Command) {arg1 arg2 : ℕ} {extra : Bytes}
    (fits : Packable arg1 arg2 extra) (s : Port σ) :
    match pdlWrites (pdlPayload cmd arg1 arg2 extra) s.device s.pending with
    | none => ∃ t acts, Pdl.request cmd arg1 arg2 extra s = .error (.osError "write failed") t ∧
        t.log = s.log ++ acts ∧ acts <+: pdlActs (pdlPayload cmd arg1 arg2 extra) ∧ acts ≠ []
    | some (device, pending) => match Pdl.recvLoop [] pending with
      | (.error e, unread) => Pdl.request cmd arg1 arg2 extra s =
          .error e ⟨device, unread, s.log ++ pdlActs (pdlPayload cmd arg1 arg2 extra), s.checksum⟩
      | (.ok (_, response), unread) => Pdl.request cmd arg1 arg2 extra s =
          .ok () ⟨device, unread, s.log ++ pdlActs (pdlPayload cmd arg1 arg2 extra) ++
            [.response response], s.checksum⟩ := by
  have sends := pdlSend_writes (pdlPayload cmd arg1 arg2 extra) (by simpa using fits.2.2) s
  rw [request_packable fits]
  cases written : pdlWrites (pdlPayload cmd arg1 arg2 extra) s.device s.pending with
  | none =>
    rw [written] at sends
    obtain ⟨t, acts, failed, log⟩ := sends
    exact ⟨t, acts, bind_error (bind_error failed), log⟩
  | some reaction =>
    rw [written] at sends
    simp only at sends ⊢
    rcases loop : Pdl.recvLoop [] reaction.2 with ⟨e | ⟨status, response⟩, unread⟩
    · exact bind_error ((bind_ok sends).trans (bind_error (Pdl.recv_of_error loop)))
    · exact bind_ok ((bind_ok sends).trans (bind_ok (Pdl.recv_of_ok loop)))

theorem request_unpackable {cmd : Pdl.Command} {arg1 arg2 : ℕ} {extra : Bytes}
    (large : ¬ Packable arg1 arg2 extra) (s : Port σ) :
    ∃ e, Pdl.request cmd arg1 arg2 extra s = .error e s := by
  obtain ⟨msg, failed⟩ : ∃ msg, Pdl.request cmd arg1 arg2 extra s = .error (.structError msg) s :=
    request_structError large s
  exact ⟨_, failed⟩

theorem request_ok {cmd : Pdl.Command} {arg1 arg2 : ℕ} {extra : Bytes} {s t : Port σ}
    (h : Pdl.request cmd arg1 arg2 extra s = .ok () t) :
    Packable arg1 arg2 extra ∧ ∃ response,
      t.log = s.log ++ (pdlActs (pdlPayload cmd arg1 arg2 extra) ++ [.response response]) := by
  by_cases fits : Packable arg1 arg2 extra
  · rw [request_packable fits] at h
    obtain ⟨_, s₁, hcommand, hdone⟩ := bind_eq_ok h
    cases hdone
    obtain ⟨_, s₂, hsend, hrest⟩ := bind_eq_ok hcommand
    obtain ⟨m, s₃, hrecv, hextra⟩ := bind_eq_ok hrest
    cases hextra
    obtain ⟨response, read⟩ := pdlRecv_ok hrecv
    refine ⟨fits, response, ?_⟩
    rw [read, pdlSend_ok (by simpa using fits.2.2) hsend, List.append_assoc]
  · obtain ⟨e, he⟩ : ∃ e, Pdl.request cmd arg1 arg2 extra s = .error e s :=
      request_unpackable fits s
    rw [he] at h
    cases h

theorem request_error {cmd : Pdl.Command} {arg1 arg2 : ℕ} {extra : Bytes} {s t : Port σ} {e : Exc}
    (h : Pdl.request cmd arg1 arg2 extra s = .error e t) :
    ¬ Packable arg1 arg2 extra ∧ t = s ∨
    Packable arg1 arg2 extra ∧ ∃ acts, acts <+: pdlActs (pdlPayload cmd arg1 arg2 extra) ∧
      t.log = s.log ++ acts := by
  by_cases fits : Packable arg1 arg2 extra
  · refine .inr ⟨fits, ?_⟩
    rw [request_packable fits] at h
    rcases bind_eq_error h with hcommand | ⟨_, s₁, _, hdone⟩
    · rcases bind_eq_error hcommand with hsend | ⟨_, s₂, hsend, hrest⟩
      · exact pdlSend_error (by simpa using fits.2.2) hsend
      · rcases bind_eq_error hrest with hrecv | ⟨_, _, _, hextra⟩
        · refine ⟨_, List.prefix_rfl, ?_⟩
          rw [pdlRecv_error hrecv, pdlSend_ok (by simpa using fits.2.2) hsend]
        · cases hextra
    · cases hdone
  · obtain ⟨e', he⟩ : ∃ e, Pdl.request cmd arg1 arg2 extra s = .error e s :=
      request_unpackable fits s
    rw [he] at h
    cases h
    exact .inl ⟨fits, rfl⟩

/-- What polling for a VER frame leaves in the log. -/
def Polling (act : Act) : Prop :=
  act = .wrote [hdlcFlag] ∨ (∃ body, act = .reply body) ∨ ∃ data, act = .version data

theorem write_appends {Kind : Act → Prop} {bs : Bytes} (h : Kind (.wrote bs)) :
    Appends (σ := Port σ) Port.log Kind (write bs) := by
  intro s
  refine ⟨[.wrote bs], by simpa using h, ?_⟩
  cases run : write bs s with
  | ok u t => exact (write_ok run).1
  | error e t => exact (write_error run).1

theorem autobaudFrom_appends (total attempts : ℕ) :
    Appends (σ := Port σ) Port.log Polling (autobaudFrom total attempts) := by
  induction attempts with
  | zero => exact Appends.of_same fun s => rfl
  | succ attempts ih =>
    rw [autobaudFrom_step]
    refine Appends.bind (write_appends (.inl rfl)) fun _ => Appends.bind ?_ fun raw => ?_
    · intro s
      simp only [SerialLike.tryFrame]
      cases read : readFrame s with
      | ok body t =>
        exact ⟨[.reply body], by simp [Polling], (readFrame_ok read).1⟩
      | error e t =>
        refine ⟨[], by simp, ?_⟩
        simp only [List.append_nil]
        split
        · exact (readFrame_error read).1
        · exact (readFrame_error read).1
    · cases raw with
      | none => exact ih
      | some raw =>
        simp only [SerialLike.settle]
        split
        · exact ih
        · rename_i cmd data parsed
          split
          · have noted : Appends (σ := Port σ) Port.log Polling
                (note (.version data) >>= fun _ => pure data) :=
              fun s => ⟨[.version data], by simp [Polling], rfl⟩
            split
            · exact Appends.bind (Appends.of_same fun s => rfl) fun _ => noted
            · exact noted
          · exact ih

theorem kickLoop_appends (kicks : ℕ) (buf : Bytes) :
    Appends (σ := Port σ) Port.log (· = .wrote [hdlcFlag]) (Pdl.kickLoop kicks buf) := by
  induction kicks generalizing buf with
  | zero => exact Appends.of_same fun s => rfl
  | succ kicks ih =>
    unfold Pdl.kickLoop
    refine Appends.bind (write_appends rfl) fun _ => Appends.bind ?_ fun heard => ?_
    · apply Appends.of_same
      intro s
      unfold Pdl.hear
      split <;> rfl
    · cases heard with
      | inl ver => exact Appends.of_same fun s => rfl
      | inr buf => exact ih buf

def execActs : List Act := pdlActs (pdlPayload .exec 0 0 [])

theorem execAndGetVer_eq (timeoutMs : ℕ) :
    Pdl.execAndGetVer (σ := σ) timeoutMs =
      Pdl.send (pdlPayload .exec 0 0 []) >>= fun _ => Pdl.kickLoop (timeoutMs / 50) [] := rfl

theorem execAndGetVer_ok {timeoutMs : ℕ} {s t : Port σ} {ver : Bytes}
    (h : Pdl.execAndGetVer timeoutMs s = .ok ver t) :
    ∃ kicks, (∀ act ∈ kicks, act = .wrote [hdlcFlag]) ∧ t.log = s.log ++ (execActs ++ kicks) := by
  rw [execAndGetVer_eq] at h
  obtain ⟨_, s', hsend, hkick⟩ := bind_eq_ok h
  obtain ⟨kicks, flags, kicked⟩ := kickLoop_appends (timeoutMs / 50) [] s'
  rw [hkick] at kicked
  refine ⟨kicks, flags, ?_⟩
  rw [← List.append_assoc, execActs, ← pdlSend_ok (by decide) hsend]
  exact kicked

theorem execAndGetVer_error {timeoutMs : ℕ} {s t : Port σ} {e : Exc}
    (h : Pdl.execAndGetVer timeoutMs s = .error e t) :
    ∃ acts kicks, acts <+: execActs ∧ (∀ act ∈ kicks, act = .wrote [hdlcFlag]) ∧
      t.log = s.log ++ (acts ++ kicks) := by
  rw [execAndGetVer_eq] at h
  rcases bind_eq_error h with hsend | ⟨_, s', hsend, hkick⟩
  · obtain ⟨acts, part, written⟩ := pdlSend_error (by decide) hsend
    exact ⟨acts, [], part, by simp, by simpa using written⟩
  · obtain ⟨kicks, flags, kicked⟩ := kickLoop_appends (timeoutMs / 50) [] s'
    rw [hkick] at kicked
    refine ⟨execActs, kicks, List.prefix_rfl, flags, ?_⟩
    rw [← List.append_assoc, execActs, ← pdlSend_ok (by decide) hsend]
    exact kicked

theorem handOver_ok {s t : Port σ} (h : Native.handOver s = .ok () t) :
    ∃ kicks version, (∀ act ∈ kicks, act = .wrote [hdlcFlag]) ∧
      t.log = s.log ++ (execActs ++ kicks ++ [.version version]) := by
  obtain ⟨ver, s₁, hver, hrest⟩ := bind_eq_ok h
  obtain ⟨kicks, flags, written⟩ := execAndGetVer_ok hver
  obtain ⟨⟨cmd, vdata⟩, s₂, hparse, hnote⟩ := bind_eq_ok hrest
  have same : s₂ = s₁ := by
    unfold raising at hparse
    split at hparse
    · cases hparse
      rfl
    · cases hparse
  subst same
  cases hnote
  refine ⟨kicks, vdata, flags, ?_⟩
  rw [written, List.append_assoc]

theorem handOver_error {s t : Port σ} {e : Exc} (h : Native.handOver s = .error e t) :
    ∃ acts kicks, acts <+: execActs ∧ (∀ act ∈ kicks, act = .wrote [hdlcFlag]) ∧
      t.log = s.log ++ (acts ++ kicks) := by
  rcases bind_eq_error h with hver | ⟨ver, s₁, hver, hrest⟩
  · exact execAndGetVer_error hver
  obtain ⟨kicks, flags, written⟩ := execAndGetVer_ok hver
  rcases bind_eq_error hrest with hparse | ⟨_, s₂, _, hnote⟩
  · have same : t = s₁ := by
      unfold raising at hparse
      split at hparse
      · cases hparse
      · cases hparse
        rfl
    exact ⟨execActs, kicks, List.prefix_rfl, flags, by rw [same, written]⟩
  · cases hnote

section Additions

variable {P : Act → Prop}

theorem send_appends {cmd : ℕ} {data : Bytes}
    (asked : ∀ mode, P (.wrote (wireMessage cmd data mode))) :
    Appends (σ := Port σ) Port.log P (send cmd data) := by
  intro s
  cases run : send cmd data s with
  | ok u t =>
    obtain ⟨-, -, log⟩ := send_ok run
    exact ⟨_, by simp [asked], log⟩
  | error e t =>
    rcases (send_error run).2 with ⟨-, rfl⟩ | ⟨-, -, log⟩
    · exact ⟨[], by simp, (List.append_nil _).symm⟩
    · exact ⟨_, by simp [asked], log⟩

theorem command_appends {cmd : ℕ} {data : Bytes}
    (asked : ∀ mode, P (.wrote (wireMessage cmd data mode))) (replied : ∀ body, P (.reply body))
    (expect : ℕ) (what : String) :
    Appends (σ := Port σ) Port.log P (command cmd data expect what) := by
  intro s
  cases run : command cmd data expect what s with
  | ok rdata t =>
    obtain ⟨-, -, body, log, -⟩ := command_ok run
    exact ⟨_, by simp [asked, replied], log⟩
  | error e t =>
    rcases command_error run with ⟨-, rfl, -⟩ | ⟨-, -, replies, plain, log, -⟩
    · exact ⟨[], by simp, (List.append_nil _).symm⟩
    · refine ⟨_, ?_, log⟩
      rw [List.forall_mem_cons]
      refine ⟨asked _, fun act mem => ?_⟩
      obtain ⟨body, rfl⟩ := plain act mem
      exact replied body

theorem autobaud_appends (flag : P (.wrote [hdlcFlag])) (replied : ∀ body, P (.reply body))
    (greeted : ∀ data, P (.version data)) (attempts : ℕ) :
    Appends (σ := Port σ) Port.log P (autobaud attempts) := by
  refine (autobaudFrom_appends attempts attempts).mono fun act polling => ?_
  rcases polling with rfl | ⟨body, rfl⟩ | ⟨data, rfl⟩
  · exact flag
  · exact replied body
  · exact greeted data

theorem greet_appends (flag : P (.wrote [hdlcFlag]))
    (asked : ∀ mode, P (.wrote (wireMessage bslCmdConnect [] mode)))
    (replied : ∀ body, P (.reply body)) (greeted : ∀ data, P (.version data)) :
    Appends (σ := Port σ) Port.log P Flasher.greet := by
  have connects : Appends (σ := Port σ) Port.log P connect :=
    (command_appends asked replied bslRepAck "CONNECT").bind fun _ => Appends.of_same fun _ => rfl
  exact (Appends.of_same fun _ => rfl).bind fun _ =>
    (autobaud_appends flag replied greeted 200).bind fun _ => connects.bind fun _ =>
    Appends.of_same fun _ => rfl

theorem request_appends (wrote : ∀ bs, P (.wrote bs))
    (responded : ∀ response, P (.response response))
    (cmd : Pdl.Command) (arg1 arg2 : ℕ) (extra : Bytes) :
    Appends (σ := Port σ) Port.log P (Pdl.request cmd arg1 arg2 extra) := by
  have halves : ∀ act ∈ pdlActs (pdlPayload cmd arg1 arg2 extra), P act := by simp [pdlActs, wrote]
  intro s
  cases run : Pdl.request cmd arg1 arg2 extra s with
  | ok u t =>
    obtain ⟨-, response, log⟩ := request_ok run
    refine ⟨_, ?_, log⟩
    rw [List.forall_mem_append, List.forall_mem_singleton]
    exact ⟨halves, responded response⟩
  | error e t =>
    rcases request_error run with ⟨-, rfl⟩ | ⟨-, acts, part, log⟩
    · exact ⟨[], by simp, (List.append_nil _).symm⟩
    · exact ⟨acts, fun act mem => halves act (part.subset mem), log⟩

theorem handOver_appends (wrote : ∀ bs, P (.wrote bs)) (greeted : ∀ data, P (.version data)) :
    Appends (σ := Port σ) Port.log P Native.handOver := by
  have halves : ∀ act ∈ execActs, P act := by simp [execActs, pdlActs, wrote]
  have kick {kicks : List Act} (flags : ∀ act ∈ kicks, act = .wrote [hdlcFlag]) :
      ∀ act ∈ kicks, P act := fun act mem => by rw [flags act mem]; exact wrote _
  intro s
  cases run : Native.handOver s with
  | ok u t =>
    obtain ⟨kicks, version, flags, log⟩ := handOver_ok run
    refine ⟨_, ?_, log⟩
    rw [List.forall_mem_append, List.forall_mem_append, List.forall_mem_singleton]
    exact ⟨⟨halves, kick flags⟩, greeted version⟩
  | error e t =>
    obtain ⟨acts, kicks, part, flags, log⟩ := handOver_error run
    refine ⟨_, ?_, log⟩
    rw [List.forall_mem_append]
    exact ⟨fun act mem => halves act (part.subset mem), kick flags⟩

omit [Device σ] in
theorem tolerating_appends {x : Session σ Unit} (h : Appends (σ := Port σ) Port.log P x) :
    Appends (σ := Port σ) Port.log P (Native.tolerating x) := by
  intro s
  obtain ⟨acts, kinds, log⟩ := h s
  refine ⟨acts, kinds, ?_⟩
  rw [← log, Native.tolerating]
  cases run : x s with
  | ok u t => rfl
  | error e t => cases e <;> rfl

/-- What a step adds to the log: what it writes, and what is read behind that. -/
theorem exec_appends (wrote : ∀ bs, P (.wrote bs)) (replied : ∀ body, P (.reply body))
    (responded : ∀ response, P (.response response)) {i : Step}
    (greeted : (i = .handOver ∨ ∃ attempts, i = .autobaud attempts) → ∀ data, P (.version data)) :
    Appends (σ := Port σ) Port.log P i.exec := by
  have silent : Appends Port.log P (pure () : Session σ Unit) := Appends.of_same fun _ => rfl
  cases i with
  | request cmd arg1 arg2 extra => exact request_appends wrote responded cmd arg1 arg2 extra
  | handOver => exact handOver_appends wrote (greeted (.inl rfl))
  | setChecksum mode => exact Appends.of_same fun _ => rfl
  | autobaud attempts =>
    exact (autobaud_appends (wrote _) replied (greeted (.inr ⟨attempts, rfl⟩)) attempts).bind
      fun _ => silent
  | command cmd data what =>
    exact (command_appends (fun _ => wrote _) replied _ what).bind fun _ => silent
  | lenient cmd data what =>
    exact tolerating_appends
      ((command_appends (fun _ => wrote _) replied bslRepAck what).bind fun _ => silent)
  | send cmd data => exact send_appends fun _ => wrote _
  | fail e => exact Appends.of_same fun _ => rfl

end Additions

end SprdFlash.Exchange
