import SprdFlash.Asking
import SprdFlash.Handshake
import SprdFlash.Runs

/-!
Who closes the port. `flash_pac` closes it behind everything that follows the
handshake, and nobody does behind the handshake itself: `connect_bootrom` has opened
the port by then and its caller has not got it yet.
-/

namespace SprdFlash.PortRelease

open Message Port SpdIO Pac Flasher Struct Script Exchange Plan Handshake Asking Runs

variable {σ : Type} [Device σ]

/-- An exception leaves no port open that was opened here. -/
def Releases {α : Type} (x : Session σ α) (s : Port σ) : Prop :=
  ∀ e t, x s = .error e t → ∀ before after, t.log = s.log ++ before ++ .opened :: after →
    .closed ∈ after

/-- The port a transport opens, with what has arrived on it. -/
def opening (transport : Transport) (port : Option String) (device : σ) :
    Option (σ × List Event) :=
  if transport = .serial ∧ port.getD "" = "" then none
  else match Device.attach device with
    | (device, some events) => some (device, events)
    | (_, none) => none

/-- The first VER frame that a number of attempts read: the mode it leaves, the device
and the input behind it. -/
def greeting : ℕ → Checksum → σ → List Event → Option (Checksum × σ × List Event)
  | 0, _, _, _ => none
  | attempts + 1, mode, device, pending =>
    match ask [hdlcFlag] device pending with
    | none => none
    | some (.ok body, device, unread) => match version body with
      | some _ => some ((detectChecksum body).getD mode, device, unread)
      | none => greeting attempts mode device unread
    | some (.error e, device, unread) =>
      if isTimeoutOrValue e then greeting attempts mode device unread else none

def Acks (mode : Checksum) (device : σ) (pending : List Event) : Prop :=
  match ask (wireMessage bslCmdConnect [] mode) device pending with
  | some (.ok body, _, _) => ∃ rdata, parseMessage body = .ok (bslRepAck, rdata)
  | _ => False

/-- A device that greets the host and acknowledges its CONNECT. -/
def Greets (device : σ) (pending : List Event) : Prop :=
  match greeting 200 .crc device pending with
  | some (mode, device, unread) => Acks mode device unread
  | none => False

theorem openTransport_opening (transport : Transport) (port : Option String) (s : Port σ) :
    match opening transport port s.device with
    | some (device, events) => openTransport transport port s =
        .ok () ⟨device, events, s.log ++ [.opened], s.checksum⟩
    | none => ∃ e t, openTransport transport port s = .error e t ∧ t.log = s.log := by
  have attached (refused : Exc) : match (match Device.attach s.device with
        | (device, some events) => some (device, events)
        | (_, none) => none) with
      | some (device, events) => attach refused s =
          .ok () ⟨device, events, s.log ++ [.opened], s.checksum⟩
      | none => ∃ e t, attach refused s = .error e t ∧ t.log = s.log := by
    rcases tried : Device.attach s.device with ⟨device, _ | events⟩
    · exact ⟨refused, { s with device }, by simp only [attach, tried], rfl⟩
    · simp only [attach, tried]
  unfold opening openTransport
  cases transport with
  | usb =>
    rw [if_neg (by simp)]
    exact attached _
  | serial =>
    by_cases nameless : port.getD "" = ""
    · simp only [nameless, and_self, if_true]
      exact ⟨_, s, rfl, rfl⟩
    · simp only [nameless, and_false, if_false]
      exact attached _

theorem autobaudFrom_greeting (total attempts : ℕ) (s : Port σ) :
    match greeting attempts s.checksum s.device s.pending with
    | some (mode, device, unread) => ∃ data log,
        autobaudFrom total attempts s = .ok data ⟨device, unread, log, mode⟩
    | none => ∃ e t, autobaudFrom total attempts s = .error e t := by
  induction attempts generalizing s with
  | zero => exact ⟨_, s, rfl⟩
  | succ attempts ih =>
    rw [autobaudFrom_succ, greeting, ask]
    cases Device.onWrite s.device [hdlcFlag] with
    | none => exact ⟨_, _, rfl⟩
    | some answer =>
      obtain ⟨device, events⟩ := answer
      simp only
      rcases seekFlag (s.pending ++ events) with ⟨e | body, rest⟩
      · simp only
        cases isTimeoutOrValue e with
        | true => exact ih ⟨device, rest, s.log ++ [.wrote [hdlcFlag]], s.checksum⟩
        | false => exact ⟨_, _, rfl⟩
      · simp only
        cases version body with
        | some data => exact ⟨_, _, rfl⟩
        | none => exact ih ⟨device, rest, s.log ++ [.wrote [hdlcFlag]] ++ [.reply body], s.checksum⟩

theorem connectBootrom_greet (transport : Transport) (port : Option String) :
    connectBootrom (σ := σ) transport port = openTransport transport port >>= fun _ => greet := rfl

theorem greet_outcome (s : Port σ) :
    (Greets s.device s.pending → ∃ version t, greet s = .ok version t) ∧
      (¬ Greets s.device s.pending → ∃ e t, greet s = .error e t) := by
  have heard := autobaudFrom_greeting 200 200 { s with checksum := .crc }
  have start : greet s = (autobaud 200 >>= fun version => connect >>= fun _ => pure version)
      { s with checksum := .crc } := rfl
  rw [start, Greets]
  simp only at heard
  cases greeted : greeting 200 .crc s.device s.pending with
  | none =>
    rw [greeted] at heard
    obtain ⟨e, t, run⟩ := heard
    exact ⟨False.elim, fun _ => ⟨e, t, bind_error run⟩⟩
  | some found =>
    obtain ⟨mode, device, unread⟩ := found
    rw [greeted] at heard
    obtain ⟨data, log, run⟩ := heard
    have run' : autobaud 200 { s with checksum := .crc } =
      .ok data ⟨device, unread, log, mode⟩ := run
    have asked := command_asked (show Framable bslCmdConnect [] by decide) bslRepAck "CONNECT"
      ⟨device, unread, log, mode⟩ rfl
    rw [bind_ok run']
    simp only [Acks] at asked ⊢
    have failing {e : Exc} {t : Port σ} (failed : command bslCmdConnect [] bslRepAck "CONNECT"
        ⟨device, unread, log, mode⟩ = .error e t) : ∃ e t,
        (connect >>= fun _ => pure data) (⟨device, unread, log, mode⟩ : Port σ) = .error e t :=
      ⟨e, t, bind_error (bind_error failed)⟩
    rcases met : ask (wireMessage bslCmdConnect [] mode) device unread with
      _ | ⟨e | body, device', unread'⟩
    · rw [met] at asked
      obtain ⟨t, failed⟩ := asked
      exact ⟨False.elim, fun _ => failing failed⟩
    · rw [met] at asked
      obtain ⟨t, failed⟩ := asked
      exact ⟨False.elim, fun _ => failing failed⟩
    · rw [met] at asked
      simp only at asked ⊢
      cases parsed : parseMessage body with
      | error e =>
        rw [parsed] at asked
        obtain ⟨t, failed⟩ := asked
        exact ⟨by simp, fun _ => failing failed⟩
      | ok m =>
        obtain ⟨rtype, rdata⟩ := m
        rw [parsed] at asked
        by_cases isAck : rtype = bslRepAck
        · simp only [isAck, if_true] at asked
          refine ⟨fun _ => ⟨data, _, bind_ok (bind_ok asked)⟩, fun no => ?_⟩
          exact absurd ⟨rdata, by rw [isAck]⟩ no
        · simp only [isAck, if_false] at asked
          obtain ⟨msg, failed⟩ := asked
          refine ⟨fun ⟨rdata', same⟩ => ?_, fun _ => failing failed⟩
          cases same
          exact absurd rfl isAck

def Talk (act : Act) : Prop := act ≠ .opened ∧ act ≠ .closed

theorem greet_talks : Appends (σ := Port σ) Port.log Talk greet :=
  greet_appends (by simp [Talk]) (by simp [Talk]) (by simp [Talk]) (by simp [Talk])

theorem closed_after {log front before after : List Act}
    (log_eq : log = front ++ [.closed]) (split : log = before ++ .opened :: after) :
    .closed ∈ after := by
  have last : (before ++ .opened :: after).getLast? = some .closed := by
    rw [← split, log_eq, List.getLast?_concat]
  rw [List.getLast?_append_cons] at last
  cases after with
  | nil => cases last
  | cons act after =>
    rw [List.getLast?_cons_cons] at last
    exact List.mem_of_getLast? last

/-- `connect_bootrom` leaves its port open exactly when the handshake on it fails. -/
theorem connectBootrom_releases_iff (transport : Transport) (port : Option String) (s : Port σ) :
    Releases (connectBootrom transport port) s ↔
      ∀ device events, opening transport port s.device = some (device, events) →
        Greets device events := by
  have opens := openTransport_opening transport port s
  rw [connectBootrom_greet]
  cases opened : opening transport port s.device with
  | none =>
    rw [opened] at opens
    obtain ⟨e, t, run, same⟩ := opens
    refine ⟨by simp, fun _ e' t' failed before after log => ?_⟩
    rw [bind_error run] at failed
    cases failed
    rw [same, List.append_assoc] at log
    have none := List.self_eq_append_right.mp log
    simp at none
  | some found =>
    obtain ⟨device, events⟩ := found
    rw [opened] at opens
    have only : (∀ device' events', some (device, events) = some (device', events') →
        Greets device' events') ↔ Greets device events := by
      refine ⟨fun greets => greets device events rfl, fun greets device' events' same => ?_⟩
      cases same
      exact greets
    rw [only]
    have outcome := greet_outcome ⟨device, events, s.log ++ [.opened], s.checksum⟩
    obtain ⟨acts, talk, log⟩ := greet_talks ⟨device, events, s.log ++ [.opened], s.checksum⟩
    constructor
    · intro releases
      by_contra silent
      obtain ⟨e, t, run⟩ := outcome.2 silent
      rw [run] at log
      have closed := releases e t ((bind_ok opens).trans run) [] acts (by
        rw [List.append_nil]
        exact log.trans (List.append_assoc _ _ _))
      exact (talk _ closed).2 rfl
    · intro greets e t failed
      obtain ⟨version, u, run⟩ := outcome.1 greets
      rw [bind_ok opens, run] at failed
      cases failed

omit [Device σ] in
theorem releases_closing {α : Type} (x : Session σ α) (body : Session σ Unit) (s : Port σ) :
    Releases (x >>= fun _ => closing body) s ↔ Releases x s := by
  constructor
  · intro releases e t failed
    exact releases e t (bind_error failed)
  · intro releases e t failed
    rcases bind_eq_error failed with failed | ⟨a, t', -, failed⟩
    · exact releases e t failed
    · have closed := closing_log body t'
      rw [failed] at closed
      exact fun before after split => closed_after closed split

/-- `flash_pac` leaves it open then too, and never later. -/
theorem flashPac_releases_iff (path : PacFile) (options : FlashOptions) (s : Port σ) :
    Releases (flashPac path options) s ↔ ∀ info device events, Accepted path info →
      opening options.transport options.device s.device = some (device, events) →
        Greets device events := by
  by_cases usable : ∃ info, Accepted path info
  · obtain ⟨info, accepted⟩ := usable
    rw [flashPac_eq accepted, ← connectBootrom_eq, releases_closing, connectBootrom_releases_iff]
    exact ⟨fun greets _ device events _ => greets device events,
      fun greets device events => greets info device events accepted⟩
  · obtain ⟨e, refused⟩ := flashPac_refused (fun info accepted => usable ⟨info, accepted⟩) options s
    refine ⟨fun _ info _ _ accepted => absurd ⟨info, accepted⟩ usable, ?_⟩
    intro _ e' t failed before after log
    rw [refused] at failed
    cases failed
    rw [List.append_assoc] at log
    have none := List.self_eq_append_right.mp log
    simp at none

/-- The port is released exactly if the handshake on it does not fail. -/
theorem port_released_iff (path : PacFile) (options : FlashOptions) (s : Port σ) :
    (Releases (connectBootrom options.transport options.device) s ↔ ∀ device events,
      opening options.transport options.device s.device = some (device, events) →
        Greets device events) ∧
    (Releases (flashPac path options) s ↔ ∀ info device events, Accepted path info →
      opening options.transport options.device s.device = some (device, events) →
        Greets device events) :=
  ⟨connectBootrom_releases_iff options.transport options.device s,
    flashPac_releases_iff path options s⟩

def rejection : List Event := [0x7E, 0x00, 0x8B, 0x00, 0x00, 0x00, 0x00, 0x7E].map .byte

def rejecting : Port Tape :=
  Port.fresh ⟨[[0x7E, 0x00, 0x81, 0x00, 0x01, 0x31, 0x4D, 0x7D, 0x5E, 0x7E].map .byte, rejection]⟩

theorem rejecting_leaks : ¬ Releases (connectBootrom .usb none) rejecting := by
  intro releases
  have greets := (connectBootrom_releases_iff .usb none rejecting).mp releases rejecting.device []
    rfl
  have greeted : greeting 200 .crc rejecting.device [] = some (.crc, ⟨[rejection]⟩, []) := by
    decide +kernel
  have asked : ask (wireMessage bslCmdConnect [] .crc) (⟨[rejection]⟩ : Tape) [] =
      some (.ok [0x00, 0x8B, 0x00, 0x00, 0x00, 0x00], ⟨[]⟩, []) := rfl
  have type : parseMessage [0x00, 0x8B, 0x00, 0x00, 0x00, 0x00] = .ok (0x8B, []) := rfl
  simp [Greets, greeted, Acks, asked, type, bslRepAck] at greets

end SprdFlash.PortRelease
