import SprdFlash.Exchange

/-!
One message and what comes back for it, as a function of the device and the input not
yet read. A command adds its check of the reply's type to that.
-/

namespace SprdFlash.Asking

open Message Port SpdIO Script Exchange

variable {σ : Type} [Device σ]

/-- The frame a device lets the host read behind one write, or the exception that
reading it raises; nothing if the write raises. -/
def ask (wire : Bytes) (device : σ) (pending : List Event) :
    Option (Except Exc Bytes × σ × List Event) :=
  match Device.onWrite device wire with
  | none => none
  | some (device, events) =>
    let (frame, unread) := seekFlag (pending ++ events)
    some (frame, device, unread)

theorem send_recv {cmd : ℕ} {data wire : Bytes} (fits : Framable cmd data) (s : Port σ)
    (framed : wire = wireMessage cmd data s.checksum) :
    (send cmd data >>= fun _ => recv) s = match ask wire s.device s.pending with
      | none => .error (.osError "write failed") { s with log := s.log ++ [.wrote wire] }
      | some (.error e, device, unread) =>
        .error e ⟨device, unread, s.log ++ [.wrote wire], s.checksum⟩
      | some (.ok body, device, unread) => match parseMessage body with
        | .ok m => .ok m ⟨device, unread, s.log ++ [.wrote wire, .reply body], s.checksum⟩
        | .error e => .error e ⟨device, unread, s.log ++ [.wrote wire, .reply body],
          s.checksum⟩ := by
  have sends := send_framable fits s
  rw [← framed] at sends
  cases reaction : Device.onWrite s.device wire with
  | none =>
    simp only [ask, reaction]
    exact bind_error (sends.trans (write_of_none reaction))
  | some answer =>
    obtain ⟨device, events⟩ := answer
    rw [bind_ok (sends.trans (write_of_some reaction))]
    simp only [ask, reaction]
    rcases found : seekFlag (s.pending ++ events) with ⟨e | body, unread⟩
    · exact bind_error (readFrame_of_error found)
    · have both : s.log ++ [.wrote wire] ++ [.reply body] = s.log ++ [.wrote wire, .reply body] :=
        List.append_assoc _ _ _
      rw [recv_def, bind_ok (readFrame_of_ok found)]
      simp only [raising, both]
      cases parseMessage body <;> rfl

/-- A command: the type of the reply decides. -/
theorem command_asked {cmd : ℕ} {data wire : Bytes} (fits : Framable cmd data) (expect : ℕ)
    (what : String) (s : Port σ) (framed : wire = wireMessage cmd data s.checksum) :
    match ask wire s.device s.pending with
    | none => ∃ t, command cmd data expect what s = .error (.osError "write failed") t
    | some (.error e, _, _) => ∃ t, command cmd data expect what s = .error e t
    | some (.ok body, device, unread) => match parseMessage body with
      | .error e => ∃ t, command cmd data expect what s = .error e t
      | .ok (rtype, rdata) =>
        if rtype = expect then command cmd data expect what s =
          .ok rdata ⟨device, unread, s.log ++ [.wrote wire, .reply body], s.checksum⟩
        else ∃ msg, command cmd data expect what s = .error (.protocolError msg)
          ⟨device, unread, s.log ++ [.wrote wire, .reply body], s.checksum⟩ := by
  have exchange := send_recv fits s framed
  have whole : command cmd data expect what s = ((send cmd data >>= fun _ => recv) >>= fun m =>
      if m.1 ≠ expect then
        let wanted := repName expect
        let got := repName m.1
        throw (.protocolError s!"{what}: expected {wanted}, got {got}")
      else pure m.2) s := by
    rw [command_def, bind_assoc]
  rw [whole]
  rcases met : ask wire s.device s.pending with _ | ⟨e | body, device, unread⟩
  · rw [met] at exchange
    exact ⟨_, bind_error exchange⟩
  · rw [met] at exchange
    exact ⟨_, bind_error exchange⟩
  · rw [met] at exchange
    simp only at exchange ⊢
    cases parsed : parseMessage body with
    | error e =>
      rw [parsed] at exchange
      exact ⟨_, bind_error exchange⟩
    | ok m =>
      obtain ⟨rtype, rdata⟩ := m
      rw [parsed] at exchange
      rw [bind_ok exchange]
      by_cases expected : rtype = expect
      · simp only [expected, ne_eq, not_true_eq_false, if_false, if_true]
        rfl
      · simp only [expected, ne_eq, not_false_eq_true, if_true, if_false]
        exact ⟨_, rfl⟩

end SprdFlash.Asking
