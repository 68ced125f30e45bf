import SprdFlash.Asking
import SprdFlash.Cli

/-!
How a flow ends on a device, told from the device alone: each step goes on, or ends
the flow on a reply that is missing, malformed or of another type, or on something that
is no reply. The exceptions follow from that.
-/

namespace SprdFlash.Endings

open Message Port Pac SpdIO Flasher Native Struct Script Exchange Plan Asking Cli

inductive Ending (σ : Type)
  | goesOn (mode : Checksum) (device : σ) (pending : List Event)
  /-- A BSL reply that does not come in time. -/
  | missing
  /-- A BSL reply, the VER frame of FDL1 included, that is no message. -/
  | malformed
  | unexpected
  /-- A PDL response, or the VER frame, that does not come in time. -/
  | unanswered
  /-- A failure of the port or of the package. -/
  | broken

variable {σ : Type} [Device σ]

/-- What `exec_and_get_ver` collects behind a number of flags. -/
def kicked : ℕ → Bytes → σ → List Event → Option (Except Exc Bytes × σ × List Event)
  | 0, _, device, pending => some (.error (.pdlError "no BSL VER after EXEC"), device, pending)
  | kicks + 1, buf, device, pending => match Device.onWrite device [hdlcFlag] with
    | none => none
    | some (device, events) => match Pdl.listen buf (pending ++ events) with
      | (.error e, unread) => some (.error e, device, unread)
      | (.ok (.inl ver), unread) => some (.ok ver, device, unread)
      | (.ok (.inr buf), unread) => kicked kicks buf device unread

def verBody (ver : Bytes) : Bytes :=
  hdlcUnescape ((ver.dropWhile (· = hdlcFlag)).reverse.dropWhile (· = hdlcFlag)).reverse

/-- A command and its reply; a lenient one takes a reply of any type. -/
def replied (lenient : Bool) (cmd : ℕ) (data : Bytes) (mode : Checksum) (device : σ)
    (pending : List Event) : Ending σ :=
  if ¬ Framable cmd data then .broken
  else match ask (wireMessage cmd data mode) device pending with
    | none => .broken
    | some (.error (.timeoutError _), _, _) => .missing
    | some (.error _, _, _) => .broken
    | some (.ok body, device, unread) => match parseMessage body with
      | .error _ => .malformed
      | .ok (rtype, _) =>
        if rtype = bslRepAck ∨ lenient = true then .goesOn mode device unread else .unexpected

def met : Step → Checksum → σ → List Event → Ending σ
  | .request cmd arg1 arg2 extra, mode, device, pending =>
    if ¬ Packable arg1 arg2 extra then .broken
    else match pdlWrites (pdlPayload cmd arg1 arg2 extra) device pending with
      | none => .broken
      | some (device, pending) => match Pdl.recvLoop [] pending with
        | (.ok _, unread) => .goesOn mode device unread
        | (.error (.pdlError _), _) => .unanswered
        | (.error _, _) => .broken
  | .handOver, mode, device, pending =>
    match pdlWrites (pdlPayload .exec 0 0 []) device pending with
    | none => .broken
    | some (device, pending) => match kicked 100 [] device pending with
      | none => .broken
      | some (.error (.pdlError _), _, _) => .unanswered
      | some (.error _, _, _) => .broken
      | some (.ok ver, device, unread) => match parseMessage (verBody ver) with
        | .error _ => .malformed
        | .ok _ => .goesOn mode device unread
  | .setChecksum mode, _, device, pending => .goesOn mode device pending
  | .autobaud _, _, _, _ => .broken
  | .command cmd data _, mode, device, pending => replied false cmd data mode device pending
  | .lenient cmd data _, mode, device, pending => replied true cmd data mode device pending
  | .send cmd data, mode, device, pending =>
    if ¬ Framable cmd data then .broken
    else match Device.onWrite device (wireMessage cmd data mode) with
      | none => .broken
      | some (device, events) => .goesOn mode device (pending ++ events)
  | .fail _, _, _, _ => .broken

/-- Steps one after the other, up to the first that does not go on. -/
def ending : List Step → Checksum → σ → List Event → Ending σ
  | [], mode, device, pending => .goesOn mode device pending
  | i :: rest, mode, device, pending => match met i mode device pending with
    | .goesOn mode device pending => ending rest mode device pending
    | stopped => stopped

def unansweredTexts : List String := ["no PDL response (timeout)", "no BSL VER after EXEC"]

def Ends (x : Session σ Unit) (s : Port σ) : Ending σ → Prop
  | .goesOn mode device pending => ∃ log, x s = .ok () ⟨device, pending, log, mode⟩
  | .missing => ∃ msg t, x s = .error (.timeoutError msg) t
  | .malformed => ∃ msg t, x s = .error (.valueError msg) t
  | .unexpected => ∃ msg t, x s = .error (.protocolError msg) t
  | .unanswered => ∃ msg ∈ unansweredTexts, ∃ t, x s = .error (.pdlError msg) t
  | .broken => ∃ e t, x s = .error e t ∧ exitCode e = none

/-- The steps of the native flow: its own failures are none that a handler names. -/
def Sober : Step → Prop
  | .autobaud _ => False
  | .fail e => exitCode e = none
  | _ => True

omit [Device σ] in
theorem ends_of_eq {x y : Session σ Unit} {s t : Port σ} {stop : Ending σ} (same : x s = y t)
    (h : Ends y t stop) : Ends x s stop := by
  unfold Ends at h ⊢
  rw [same]
  exact h

omit [Device σ] in
/-- A flow goes on, or its exception alone decides how it ended. -/
theorem ends_or_raises {x : Session σ Unit} {s : Port σ} {stop : Ending σ} (h : Ends x s stop) :
    (∃ mode device pending log, stop = .goesOn mode device pending ∧
      x s = .ok () ⟨device, pending, log, mode⟩) ∨
    (∀ mode device pending, stop ≠ .goesOn mode device pending) ∧ ∃ e t, x s = .error e t ∧
      ∀ (y : Session σ Unit) (u v : Port σ), y u = .error e v → Ends y u stop := by
  cases stop with
  | goesOn mode device pending =>
    obtain ⟨log, returned⟩ := h
    exact .inl ⟨mode, device, pending, log, rfl, returned⟩
  | missing =>
    obtain ⟨msg, t, failed⟩ := h
    exact .inr ⟨by simp, _, t, failed, fun y u v again => ⟨msg, v, again⟩⟩
  | malformed =>
    obtain ⟨msg, t, failed⟩ := h
    exact .inr ⟨by simp, _, t, failed, fun y u v again => ⟨msg, v, again⟩⟩
  | unexpected =>
    obtain ⟨msg, t, failed⟩ := h
    exact .inr ⟨by simp, _, t, failed, fun y u v again => ⟨msg, v, again⟩⟩
  | unanswered =>
    obtain ⟨msg, text, t, failed⟩ := h
    exact .inr ⟨by simp, _, t, failed, fun y u v again => ⟨msg, text, v, again⟩⟩
  | broken =>
    obtain ⟨e, t, failed, other⟩ := h
    exact .inr ⟨by simp, _, t, failed, fun y u v again => ⟨e, v, again, other⟩⟩

section Reading

theorem ask_raises {wire : Bytes} {device last : σ} {pending rest : List Event} {e : Exc}
    (h : ask wire device pending = some (.error e, last, rest)) :
    (∃ msg, e = .timeoutError msg) ∨ ∃ msg, e = .osError msg := by
  unfold ask at h
  cases reaction : Device.onWrite device wire with
  | none =>
    rw [reaction] at h
    cases h
  | some answer =>
    obtain ⟨device', events⟩ := answer
    rw [reaction] at h
    rcases found : seekFlag (pending ++ events) with ⟨result, unread⟩
    simp only [found, Option.some.injEq, Prod.mk.injEq] at h
    rw [h.1] at found
    exact seekFlag_raises found

/-- By induction on the events: the wait ends on the deadline or on a read that fails. -/
theorem recvLoop_raises {buf : Bytes} {events rest : List Event} {e : Exc}
    (h : Pdl.recvLoop buf events = (.error e, rest)) :
    e = .pdlError "no PDL response (timeout)" ∨ ∃ msg, e = .osError msg := by
  fun_induction Pdl.recvLoop buf events
  case case1 | case2 =>
    cases h
    exact .inl rfl
  case case3 =>
    cases h
    exact .inr ⟨_, rfl⟩
  case case4 ih | case5 ih => exact ih h
  case case6 read =>
    right
    grind
  case case7 buf rlen whole =>
    -- a whole response is no error
    grind
  case case8 buf rlen part ih => grind

theorem listen_raises {buf : Bytes} {events rest : List Event} {e : Exc}
    (h : Pdl.listen buf events = (.error e, rest)) :
    e = .pdlError "no BSL VER after EXEC" ∨ ∃ msg, e = .osError msg := by
  fun_induction Pdl.listen buf events
  case case1 | case2 =>
    cases h
    exact .inl rfl
  case case3 =>
    cases h
    exact .inr ⟨_, rfl⟩
  case case4 => cases h
  case case5 ih => exact ih h
  case case6 read =>
    right
    grind
  case case7 ver found =>
    -- neither is a version frame
    grind
  case case8 other ih => grind

end Reading

section Steps

theorem kicked_raises {kicks : ℕ} {buf : Bytes} {device last : σ} {pending rest : List Event}
    {e : Exc} (h : kicked kicks buf device pending = some (.error e, last, rest)) :
    e = .pdlError "no BSL VER after EXEC" ∨ ∃ msg, e = .osError msg := by
  fun_induction kicked kicks buf device pending with
  | case1 =>
    cases h
    exact .inl rfl
  | case2 => cases h
  | case3 _ _ _ _ _ _ _ _ _ heard =>
    cases h
    exact listen_raises heard
  | case4 => cases h
  | case5 _ _ _ _ _ _ _ _ _ _ ih => exact ih h

theorem kickLoop_kicked (kicks : ℕ) (buf : Bytes) (s : Port σ) :
    match kicked kicks buf s.device s.pending with
    | none => ∃ t, Pdl.kickLoop kicks buf s = .error (.osError "write failed") t
    | some (.error e, _, _) => ∃ t, Pdl.kickLoop kicks buf s = .error e t
    | some (.ok ver, device, unread) => ∃ log,
        Pdl.kickLoop kicks buf s = .ok ver ⟨device, unread, log, s.checksum⟩ := by
  induction kicks generalizing buf s with
  | zero => exact ⟨s, rfl⟩
  | succ kicks ih =>
    rw [Pdl.kickLoop, kicked]
    cases reaction : Device.onWrite s.device [hdlcFlag] with
    | none => exact ⟨_, bind_error (write_of_none reaction)⟩
    | some answer =>
      obtain ⟨device, events⟩ := answer
      rw [bind_ok (write_of_some reaction)]
      simp only
      rcases heard : Pdl.listen buf (s.pending ++ events) with ⟨e | ver | buf', unread⟩
      · exact ⟨_, bind_error (Pdl.hear_of_error heard)⟩
      · rw [bind_ok (Pdl.hear_of_ok heard)]
        exact ⟨_, rfl⟩
      · rw [bind_ok (Pdl.hear_of_ok heard)]
        exact ih buf' ⟨device, unread, s.log ++ [.wrote [hdlcFlag]], s.checksum⟩

theorem request_ends (cmd : Pdl.Command) (arg1 arg2 : ℕ) (extra : Bytes) (s : Port σ) :
    Ends (Pdl.request cmd arg1 arg2 extra) s
      (met (.request cmd arg1 arg2 extra) s.checksum s.device s.pending) := by
  rw [met]
  by_cases fits : Packable arg1 arg2 extra
  · rw [if_neg (not_not.mpr fits)]
    have answered := request_answered cmd fits s
    rcases written : pdlWrites (pdlPayload cmd arg1 arg2 extra) s.device s.pending with
      _ | ⟨device, pending⟩
    · rw [written] at answered
      obtain ⟨t, acts, failed, -⟩ := answered
      exact ⟨_, t, failed, rfl⟩
    · rw [written] at answered
      simp only at answered ⊢
      rcases loop : Pdl.recvLoop [] pending with ⟨e | ⟨status, response⟩, unread⟩
      · rw [loop] at answered
        rcases recvLoop_raises loop with rfl | ⟨msg, rfl⟩
        · exact ⟨_, by decide, _, answered⟩
        · exact ⟨_, _, answered, rfl⟩
      · rw [loop] at answered
        exact ⟨_, answered⟩
  · rw [if_pos fits]
    obtain ⟨msg, failed⟩ : ∃ msg, Pdl.request cmd arg1 arg2 extra s = .error (.structError msg) s :=
      request_structError fits s
    exact ⟨_, s, failed, rfl⟩

theorem handOver_ends (s : Port σ) :
    Ends Native.handOver s (met .handOver s.checksum s.device s.pending) := by
  have sends := pdlSend_writes (pdlPayload .exec 0 0 []) (by decide) s
  have whole : Native.handOver (σ := σ) = (Pdl.send (pdlPayload .exec 0 0 []) >>= fun _ =>
      Pdl.kickLoop 100 []) >>= fun ver => raising (parseMessage (verBody ver)) >>= fun m =>
        note (.version m.2) := rfl
  rw [met, whole]
  rcases written : pdlWrites (pdlPayload .exec 0 0 []) s.device s.pending with
    _ | ⟨device, pending⟩
  · rw [written] at sends
    obtain ⟨t, acts, failed, -⟩ := sends
    exact ⟨_, t, bind_error (bind_error failed), rfl⟩
  · rw [written] at sends
    simp only at sends ⊢
    let after : Port σ := ⟨device, pending, s.log ++ pdlActs (pdlPayload .exec 0 0 []), s.checksum⟩
    have executed : (Pdl.send (pdlPayload .exec 0 0 []) >>= fun _ => Pdl.kickLoop 100 []) s =
        Pdl.kickLoop 100 [] after := bind_ok sends
    have kicks := kickLoop_kicked 100 [] after
    simp only [after] at kicks
    rcases heard : kicked 100 [] device pending with _ | ⟨e | ver, device, unread⟩
    · rw [heard] at kicks
      obtain ⟨t, failed⟩ := kicks
      exact ⟨_, t, bind_error (executed.trans failed), rfl⟩
    · rw [heard] at kicks
      obtain ⟨t, failed⟩ := kicks
      rcases kicked_raises heard with rfl | ⟨msg, rfl⟩
      · exact ⟨_, by decide, t, bind_error (executed.trans failed)⟩
      · exact ⟨_, t, bind_error (executed.trans failed), rfl⟩
    · rw [heard] at kicks
      obtain ⟨log, found⟩ := kicks
      refine ends_of_eq (bind_ok (executed.trans found)) ?_
      simp only
      cases parsed : parseMessage (verBody ver) with
      | error e =>
        obtain ⟨msg, rfl⟩ := parseMessage_valueError parsed
        exact ⟨msg, _, bind_error rfl⟩
      | ok m => exact ⟨_, bind_ok rfl⟩

theorem lenient_exec (cmd : ℕ) (data : Bytes) (what : String) (s : Port σ) :
    (Step.lenient cmd data what).exec s = match (Step.command cmd data what).exec s with
      | .ok () t => .ok () t
      | .error (.protocolError _) t => .ok () t
      | .error e t => .error e t := rfl

theorem command_fails {cmd : ℕ} {data : Bytes} {what : String} {s t : Port σ} {e : Exc}
    (failed : command cmd data bslRepAck what s = .error e t)
    (other : ∀ msg, e ≠ .protocolError msg) :
    (Step.command cmd data what).exec s = .error e t ∧
      (Step.lenient cmd data what).exec s = .error e t := by
  have strict : (Step.command cmd data what).exec s = .error e t := bind_error failed
  refine ⟨strict, ?_⟩
  rw [lenient_exec, strict]
  cases e with
  | protocolError msg => exact absurd rfl (other msg)
  | _ => rfl

theorem command_ends (cmd : ℕ) (data : Bytes) (what : String) (s : Port σ) :
    Ends (Step.command cmd data what).exec s
      (replied false cmd data s.checksum s.device s.pending) ∧
    Ends (Step.lenient cmd data what).exec s
      (replied true cmd data s.checksum s.device s.pending) := by
  unfold replied
  by_cases fits : Framable cmd data
  · rw [if_neg (not_not.mpr fits), if_neg (not_not.mpr fits)]
    have asked := command_asked fits bslRepAck what s rfl
    rcases met : ask (wireMessage cmd data s.checksum) s.device s.pending with
      _ | ⟨e | body, device, unread⟩
    · rw [met] at asked
      obtain ⟨t, failed⟩ := asked
      have both := command_fails failed (by simp)
      exact ⟨⟨_, t, both.1, rfl⟩, ⟨_, t, both.2, rfl⟩⟩
    · rw [met] at asked
      obtain ⟨t, failed⟩ := asked
      rcases ask_raises met with ⟨msg, rfl⟩ | ⟨msg, rfl⟩
      · have both := command_fails failed (by simp)
        exact ⟨⟨msg, t, both.1⟩, ⟨msg, t, both.2⟩⟩
      · have both := command_fails failed (by simp)
        exact ⟨⟨_, t, both.1, rfl⟩, ⟨_, t, both.2, rfl⟩⟩
    · rw [met] at asked
      simp only at asked ⊢
      cases parsed : parseMessage body with
      | error e =>
        obtain ⟨msg, rfl⟩ := parseMessage_valueError parsed
        rw [parsed] at asked
        obtain ⟨t, failed⟩ := asked
        have both := command_fails failed (by simp)
        exact ⟨⟨msg, t, both.1⟩, ⟨msg, t, both.2⟩⟩
      | ok m =>
        obtain ⟨rtype, rdata⟩ := m
        rw [parsed] at asked
        by_cases isAck : rtype = bslRepAck
        · simp only [isAck, if_true, true_or] at asked ⊢
          have strict : (Step.command cmd data what).exec s = .ok () ⟨device, unread,
              s.log ++ [.wrote (wireMessage cmd data s.checksum), .reply body], s.checksum⟩ :=
            bind_ok asked
          exact ⟨⟨_, strict⟩, ⟨_, by rw [lenient_exec, strict]⟩⟩
        · simp only [isAck, if_false, or_true, Bool.false_eq_true, or_self] at asked ⊢
          obtain ⟨msg, failed⟩ := asked
          have strict : (Step.command cmd data what).exec s = .error (.protocolError msg) ⟨device,
              unread, s.log ++ [.wrote (wireMessage cmd data s.checksum), .reply body],
              s.checksum⟩ := bind_error failed
          exact ⟨⟨msg, _, strict⟩, ⟨_, by rw [lenient_exec, strict]⟩⟩
  · rw [if_pos fits, if_pos fits]
    obtain ⟨msg, failed⟩ : ∃ msg, send cmd data s = .error (.structError msg) s :=
      send_structError fits s
    have refused : command cmd data bslRepAck what s = .error (.structError msg) s :=
      bind_error failed
    have both := command_fails refused (by simp)
    exact ⟨⟨_, s, both.1, rfl⟩, ⟨_, s, both.2, rfl⟩⟩

theorem send_ends (cmd : ℕ) (data : Bytes) (s : Port σ) :
    Ends (send cmd data) s (met (.send cmd data) s.checksum s.device s.pending) := by
  rw [met]
  by_cases fits : Framable cmd data
  · rw [if_neg (not_not.mpr fits)]
    refine ends_of_eq (send_framable fits s) ?_
    cases reaction : Device.onWrite s.device (wireMessage cmd data s.checksum) with
    | none => exact ⟨_, _, write_of_none reaction, rfl⟩
    | some answer => exact ⟨_, write_of_some reaction⟩
  · rw [if_pos fits]
    obtain ⟨msg, failed⟩ : ∃ msg, send cmd data s = .error (.structError msg) s :=
      send_structError fits s
    exact ⟨_, s, failed, rfl⟩

theorem exec_ends {i : Step} (sober : Sober i) (s : Port σ) :
    Ends i.exec s (met i s.checksum s.device s.pending) := by
  cases i with
  | request cmd arg1 arg2 extra => exact request_ends cmd arg1 arg2 extra s
  | handOver => exact handOver_ends s
  | setChecksum mode => exact ⟨s.log, rfl⟩
  | autobaud attempts => exact sober.elim
  | command cmd data what => exact (command_ends cmd data what s).1
  | lenient cmd data what => exact (command_ends cmd data what s).2
  | send cmd data => exact send_ends cmd data s
  | fail e => exact ⟨e, s, rfl, sober⟩

theorem perform_ends {steps : List Step} (sober : ∀ i ∈ steps, Sober i) (s : Port σ) :
    Ends (perform Step.exec steps) s (ending steps s.checksum s.device s.pending) := by
  induction steps generalizing s with
  | nil => exact ⟨s.log, rfl⟩
  | cons i rest ih =>
    rcases ends_or_raises (exec_ends (sober i List.mem_cons_self) s) with
      ⟨mode, device, pending, log, goes, returned⟩ | ⟨stops, e, t, failed, again⟩
    · rw [ending, goes]
      have later := ih (fun j hj => sober j (List.mem_cons_of_mem i hj))
        ⟨device, pending, log, mode⟩
      exact ends_of_eq (bind_ok returned) later
    · have same : ending (i :: rest) s.checksum s.device s.pending =
          met i s.checksum s.device s.pending := by
        rw [ending]
        cases stop : met i s.checksum s.device s.pending with
        | goesOn mode device pending => exact absurd stop (stops mode device pending)
        | _ => rfl
      rw [same]
      exact again _ s t (bind_error failed)

end Steps

section Plans

theorem sober_given {α : Type} {x : Except Exc α} (fails : ∀ e, x = .error e → exitCode e = none)
    {steps : α → List Step} (h : ∀ a, ∀ i ∈ steps a, Sober i) : ∀ i ∈ given x steps, Sober i := by
  cases x with
  | ok a => exact h a
  | error e =>
    rw [given, List.forall_mem_singleton]
    exact fails e rfl

theorem sober_pack (order : ByteOrder) (width : ℕ) (values : List ℕ) {steps : Bytes → List Step}
    (h : ∀ packed, ∀ i ∈ steps packed, Sober i) :
    ∀ i ∈ given (pack order width values) steps, Sober i := by
  refine sober_given (fun e failed => ?_) h
  obtain ⟨-, msg, rfl⟩ := pack_error failed
  rfl

theorem sober_stage (addr : ℕ) (data : Bytes) (chunk : ℕ+) :
    ∀ i ∈ stage addr data chunk, Sober i := by
  refine sober_pack _ _ _ fun start => ?_
  rw [List.forall_mem_cons, List.forall_mem_append, List.forall_mem_map, List.forall_mem_singleton]
  exact ⟨trivial, fun _ _ => trivial, trivial⟩

theorem sober_nv (addr : ℕ) (template : Bytes) : ∀ i ∈ nv addr template, Sober i := by
  refine sober_given (fun e failed => ?_) fun data => sober_pack _ _ _ fun start => ?_
  · unfold nvFixCrc at failed
    split at failed
    · cases failed
    · cases failed
      rfl
  · rw [List.forall_mem_cons, List.forall_mem_append, List.forall_mem_map,
      List.forall_mem_singleton]
    exact ⟨trivial, fun _ _ => trivial, trivial⟩

theorem sober_loader (fdl1 : PacEntry) (data : Bytes) (endChecksum : UInt32) :
    ∀ i ∈ loader fdl1 data endChecksum, Sober i := by
  rw [loader, image, List.forall_mem_cons, List.forall_mem_cons, List.forall_mem_append,
    List.forall_mem_map]
  refine ⟨trivial, trivial, fun _ _ => trivial, sober_pack _ _ _ fun trailer => ?_⟩
  rw [List.forall_mem_singleton]
  trivial

theorem sober_fromDict (dict : List Char → Option Bytes) {write : PacEntry → Bytes → List Step}
    (h : ∀ e data, ∀ i ∈ write e data, Sober i) (e : PacEntry) :
    ∀ i ∈ fromDict dict write e, Sober i := by
  refine sober_given (fun e' failed => ?_) (h e)
  unfold lookup at failed
  split at failed
  · cases failed
  · cases failed
    rfl

theorem sober_bslWrites (info : PacInfo) (content : Bytes) (formatFs : Bool) :
    ∀ i ∈ bslWrites info content formatFs, Sober i := by
  rw [bslWrites, List.forall_mem_append, List.forall_mem_cons, List.forall_mem_append]
  refine ⟨⟨trivial, ?_⟩, ?_, ?_⟩
  · cases info.entries.find? fun e => classify e = .fdl2 with
    | none => exact fun i hi => absurd hi List.not_mem_nil
    | some fdl2 =>
      rw [fdl2Load, List.forall_mem_append, List.forall_mem_cons, List.forall_mem_singleton]
      exact ⟨sober_stage _ _ _, trivial, trivial⟩
  · rw [List.forall_mem_flatMap]
    exact fun e _ => sober_fromDict _ (fun e data => sober_stage _ _ _) e
  · cases formatFs with
    | false => exact fun i hi => absurd hi List.not_mem_nil
    | true =>
      rw [if_pos rfl, format, List.forall_mem_append, List.forall_mem_flatMap,
        List.forall_mem_flatMap]
      refine ⟨fun op _ => sober_pack _ _ _ fun target => ?_,
        fun e _ => sober_fromDict _ (fun e data => ?_) e⟩
      · rw [List.forall_mem_singleton]
        trivial
      · unfold writeMarkerSteps
        split
        · exact sober_nv _ _
        · exact sober_stage _ _ _

theorem sober_native (info : PacInfo) (fdl1 : PacEntry) (content : Bytes)
    (options : NativeOptions) : ∀ i ∈ native info fdl1 content options, Sober i := by
  rw [native, List.forall_mem_append, List.forall_mem_append, List.forall_mem_cons,
    List.forall_mem_cons]
  refine ⟨⟨sober_loader _ _ _, trivial, trivial, sober_bslWrites _ _ _⟩, fun i hi => ?_⟩
  rw [mem_reset hi]
  trivial

end Plans

end SprdFlash.Endings
