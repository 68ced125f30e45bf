import SprdFlash.PdlFraming

/-!
Lock-step PDL sessions. The agent stays silent until the payload of a command is
written and then sends one response, behind junk without the magic byte and in
pieces with empty reads between them. The host reads the payloads in order, each
with its status, whatever the pieces are.
-/

namespace SprdFlash.PdlSession

open Port Struct Script Exchange Packets PdlFraming

structure Round where
  request : Bytes
  payload : Bytes
  header : Bytes
  body : Bytes
  junk : Bytes
  events : List Event
  sendable : request.length ≤ 65535
  built : Pdl.build payload = .ok (header, body)
  noMagic : Pdl.pdlMagic ∉ junk
  /-- No deadline expires while the response is on its way. -/
  live : Live events
  bytes : received events = junk ++ (header ++ body)

/-- The rest of the session, and whether the payload of a command is due. -/
structure Agent where
  midway : Bool
  rounds : List Round

instance : Device Agent where
  attach a := (a, some [])
  discards _ := true
  onWrite a _ :=
    match a with
    | ⟨false, rounds⟩ => some (⟨true, rounds⟩, [])
    | ⟨true, []⟩ => some (⟨false, []⟩, [])
    | ⟨true, round :: rounds⟩ => some (⟨false, rounds⟩, round.events)

variable {σ α : Type}

/-- A session with one body for each payload, and what it returns. -/
def collect (body : Bytes → Session σ α) : List Bytes → Session σ (List α)
  | [] => pure []
  | payload :: rest => do
    let first ← body payload
    let others ← collect body rest
    return first :: others

def ask [Device σ] (payload : Bytes) : Session σ (ℕ × Bytes) := do
  Pdl.send payload
  Pdl.recv

structure Ready (rounds : List Round) (s : Port Agent) : Prop where
  device : s.device = ⟨false, rounds⟩
  live : Live s.pending
  quiet : received s.pending = []

theorem build_ok {payload header body : Bytes} (h : Pdl.build payload = .ok (header, body)) :
    ∃ fits : payload.length < 65536, header ++ body = (PdlFraming.built payload fits).wire := by
  cases packed : pack .little 2 [payload.length] with
  | error e => simp [Pdl.build, packed, bind, Except.bind] at h
  | ok length =>
    obtain ⟨bound, rfl⟩ := pack_eq_ok packed
    have fits : payload.length < 65536 := by simpa using bound
    simp only [Pdl.build, packed, bind, Except.bind, pure, Except.pure, Except.ok.injEq,
      Prod.mk.injEq] at h
    obtain ⟨rfl, rfl⟩ := h
    exact ⟨fits, (built_wire payload fits).symm⟩

theorem ask_round {round : Round} {rounds : List Round} {s : Port Agent}
    (ready : Ready (round :: rounds) s) :
    ∃ t, ask round.request s = .ok (statusOf round.payload, round.payload) t ∧ Ready rounds t := by
  have small : round.request.length < 65536 := Nat.lt_succ_of_le round.sendable
  obtain ⟨fits, wire⟩ := build_ok round.built
  obtain ⟨device, pending, log, checksum⟩ := s
  obtain ⟨rfl, live, quiet⟩ := ready
  let asked : Port Agent := ⟨⟨false, rounds⟩, pending ++ [] ++ round.events,
    log ++ [.wrote (pdlHeader round.request.length)] ++ [.wrote round.request], checksum⟩
  have sent : Pdl.send round.request ⟨Agent.mk false (round :: rounds), pending, log, checksum⟩ =
      .ok () asked := pdlSend_eq small _
  have arrived : received asked.pending =
      round.junk ++ (PdlFraming.built round.payload fits).wire := by
    rw [received_append, received_append, quiet, round.bytes, wire]
    rfl
  have live' : Live asked.pending := by
    change Live (pending ++ [] ++ round.events)
    rw [List.append_nil]
    exact List.forall_mem_append.mpr ⟨live, round.live⟩
  obtain ⟨rest, read, done, suffix⟩ := recv_packet _ round.noMagic live' arrived
  exact ⟨_, (bind_ok sent).trans read, ⟨rfl, live'.suffix suffix, done⟩⟩

/-- One step of a session from what its body returns. -/
theorem collect_rounds {body : Bytes → Session Agent α} {result : Round → α}
    (step : ∀ {round rounds s}, Ready (round :: rounds) s →
      ∃ t, body round.request s = .ok (result round) t ∧ Ready rounds t)
    {rounds : List Round} {s : Port Agent} (ready : Ready rounds s) :
    ∃ t, collect body (rounds.map Round.request) s = .ok (rounds.map result) t ∧ Ready [] t := by
  induction rounds generalizing s with
  | nil => exact ⟨s, rfl, ready⟩
  | cons round rounds ih =>
    obtain ⟨s', first, ready'⟩ := step ready
    obtain ⟨t, others, done⟩ := ih ready'
    exact ⟨t, (bind_ok first).trans (bind_ok others), done⟩

/-- Every `recv` of a session returns its payload and status, and every command
its payload. -/
theorem session_payloads {rounds : List Round} {s : Port Agent} (ready : Ready rounds s) :
    (∃ t, collect ask (rounds.map Round.request) s =
        .ok (rounds.map fun round => (statusOf round.payload, round.payload)) t) ∧
      ∃ t, collect Pdl.command (rounds.map Round.request) s =
        .ok (rounds.map Round.payload) t := by
  constructor
  · obtain ⟨t, run, -⟩ := collect_rounds ask_round ready
    exact ⟨t, run⟩
  · have command : ∀ {round rounds s}, Ready (round :: rounds) s →
        ∃ t, Pdl.command round.request s = .ok round.payload t ∧ Ready rounds t := by
      intro round rounds s ready
      obtain ⟨t, run, ready'⟩ := ask_round ready
      obtain ⟨_, s', sent, read⟩ := bind_eq_ok run
      exact ⟨t, (bind_ok sent).trans (bind_ok read), ready'⟩
    obtain ⟨t, run, -⟩ := collect_rounds command ready
    exact ⟨t, run⟩

/-- A payload of magic bytes, cut inside its header and behind junk, then a short
one. -/
def rounds : List Round :=
  [{ request := [0x00]
     payload := [0xAE, 0xAE, 0x00, 0x00, 0xAE]
     header := [0xAE, 0x05, 0x00, 0x00, 0x00, 0xFF, 0x00, 0x00]
     body := [0xAE, 0xAE, 0x00, 0x00, 0xAE]
     junk := [0x00, 0x7E]
     events := [.byte 0x00, .idle, .byte 0x7E, .byte 0xAE, .idle, .idle] ++
      [0x05, 0x00, 0x00, 0x00, 0xFF, 0x00, 0x00, 0xAE].map .byte ++ [.idle] ++
      [0xAE, 0x00, 0x00, 0xAE].map .byte
     sendable := by decide
     built := rfl
     noMagic := by decide
     live := by decide
     bytes := rfl },
   { request := []
     payload := [0x01]
     header := [0xAE, 0x01, 0x00, 0x00, 0x00, 0xFF, 0x00, 0x00]
     body := [0x01]
     junk := []
     events := [0xAE, 0x01, 0x00, 0x00, 0x00, 0xFF, 0x00, 0x00, 0x01].map .byte
     sendable := by decide
     built := rfl
     noMagic := by decide
     live := by decide
     bytes := rfl }]

theorem session_rounds : ∃ t,
    collect ask (rounds.map Round.request) (Port.fresh (Agent.mk false rounds)) =
      .ok [(44718, [0xAE, 0xAE, 0x00, 0x00, 0xAE]), (0, [0x01])] t := by
  have ready : Ready rounds (Port.fresh (Agent.mk false rounds)) :=
    ⟨rfl, by simp [Live, Port.fresh], rfl⟩
  exact (session_payloads ready).1

end SprdFlash.PdlSession
