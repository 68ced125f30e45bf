import SprdFlash.PdlTransfer

/-!
What `send_image` makes of the agent's responses. Each message meets one
response or none; a response grants its request with an explicit status 0. The
commands go on whatever the status is, so an image is sent as it should be on
exactly the devices that grant every request of it.
-/

namespace SprdFlash.PdlAcceptance

open Port Struct Script Plan Exchange WireLog FailStop PdlFraming PdlTransfer

/-- An explicit status 0. -/
def Granted (response : Bytes) : Prop :=
  4 ≤ response.length ∧ unpack .little (response.take 4) = 0

instance (response : Bytes) : Decidable (Granted response) := inferInstanceAs (Decidable (_ ∧ _))

/-- Nothing is written behind a response that grants nothing. -/
def Stops : List Act → Prop
  | [] => True
  | .response response :: rest => if Granted response then Stops rest else frames rest = []
  | _ :: rest => Stops rest

/-- Every message, header and payload, has its response, and that grants it. -/
def Confirmed : List Act → Prop
  | [] => True
  | .wrote _ :: .wrote _ :: .response response :: rest => Granted response ∧ Confirmed rest
  | _ => False

/-- A run that stops at the first response that grants nothing, and returns only
when every message is confirmed. -/
def Heeds {σ : Type} (x : Session σ Unit) (s : Port σ) : Prop :=
  ∃ acts, (final (x s)).log = s.log ++ acts ∧ Stops acts ∧
    ((∃ t, x s = .ok () t) → Confirmed acts)

theorem heeds_iff {σ : Type} {x : Session σ Unit} {s : Port σ} {acts : List Act}
    (log : (final (x s)).log = s.log ++ acts) :
    Heeds x s ↔ Stops acts ∧ ((∃ t, x s = .ok () t) → Confirmed acts) := by
  constructor
  · rintro ⟨acts', log', stops, confirmed⟩
    rw [log] at log'
    cases List.append_cancel_left log'
    exact ⟨stops, confirmed⟩
  · exact fun heeds => ⟨acts, log, heeds⟩

theorem stops_block (payload response : Bytes) (acts : List Act) :
    Stops (pdlActs payload ++ [.response response] ++ acts) ↔
      if Granted response then Stops acts else frames acts = [] := Iff.rfl

theorem confirmed_block (payload response : Bytes) (acts : List Act) :
    Confirmed (pdlActs payload ++ [.response response] ++ acts) ↔
      Granted response ∧ Confirmed acts := Iff.rfl

theorem Confirmed.granted {acts : List Act} (confirmed : Confirmed acts) {response : Bytes}
    (h : .response response ∈ acts) : Granted response := by
  fun_induction Confirmed acts with
  | case1 => cases h
  | case2 header payload first rest ih =>
    rcases List.mem_cons.mp h with same | h
    · cases same
    rcases List.mem_cons.mp h with same | h
    · cases same
    rcases List.mem_cons.mp h with same | h
    · cases same
      exact confirmed.1
    · exact ih confirmed.2 h
  | case3 => exact confirmed.elim

theorem pdlImageCrc_lt (data : Bytes) : Pdl.pdlImageCrc data < 2 ^ 32 := by
  let shift := fun crc => if crc &&& 1 ≠ 0 then (crc >>> 1) ^^^ 0xEDB88320 else crc >>> 1
  have shift_lt : ∀ crc : ℕ, crc < 2 ^ 32 → shift crc < 2 ^ 32 := by
    intro crc small
    have half : crc >>> 1 < 2 ^ 32 := by
      rw [Nat.shiftRight_eq_div_pow]
      omega
    simp only [shift]
    split
    · exact Nat.xor_lt_two_pow half (by decide)
    · exact half
  have fold_lt : ∀ crc : ℕ, crc < 2 ^ 32 →
      data.foldl (fun crc b => shift^[8] (crc ^^^ b.toNat)) crc < 2 ^ 32 := by
    induction data with
    | nil => exact fun crc small => small
    | cons b data ih =>
      intro crc small
      have byte : b.toNat < 2 ^ 32 := b.toNat_lt.trans (by decide)
      exact ih _ (Function.Iterate.rec (fun crc : ℕ => crc < 2 ^ 32)
        (Nat.xor_lt_two_pow small byte) shift_lt 8)
  exact Nat.xor_lt_two_pow (fold_lt _ (by decide)) (by decide)

theorem stops_writes {acts : List Act} (h : ∀ act ∈ acts, ∃ bs, act = .wrote bs) : Stops acts := by
  induction acts with
  | nil => trivial
  | cons act acts ih =>
    obtain ⟨bs, rfl⟩ := h act List.mem_cons_self
    exact ih fun a ha => h a (List.mem_cons_of_mem _ ha)

theorem pdlActs_writes {payload : Bytes} {acts : List Act} (part : acts <+: pdlActs payload) :
    ∀ act ∈ acts, ∃ bs, act = .wrote bs := by
  intro act hact
  have mem := part.subset hact
  simp only [pdlActs, List.mem_cons, List.not_mem_nil, or_false] at mem
  rcases mem with rfl | rfl
  · exact ⟨_, rfl⟩
  · exact ⟨_, rfl⟩

variable {σ : Type} [Device σ]

def answer (payload : Bytes) (device : σ) (pending : List Event) :
    Option (Bytes × σ × List Event) :=
  match Device.onWrite device (pdlHeader payload.length) with
  | none => none
  | some (device, early) =>
    match Device.onWrite device payload with
    | none => none
    | some (device, late) =>
      match Pdl.recvLoop [] (pending ++ early ++ late) with
      | (.ok (_, response), unread) => some (response, device, unread)
      | (.error _, _) => none

def answers : List Bytes → σ → List Event → List Bytes
  | [], _, _ => []
  | payload :: rest, device, pending =>
    match answer payload device pending with
    | some (response, device, unread) => response :: answers rest device unread
    | none => []

theorem answer_eq (payload : Bytes) (device : σ) (pending : List Event) :
    answer payload device pending = match pdlWrites payload device pending with
      | none => none
      | some (device, pending) => match Pdl.recvLoop [] pending with
        | (.ok (_, response), unread) => some (response, device, unread)
        | (.error _, _) => none := by
  rw [answer, pdlWrites]
  cases Device.onWrite device (pdlHeader payload.length) with
  | none => rfl
  | some reaction =>
    simp only
    cases Device.onWrite reaction.1 payload <;> rfl

theorem exec_answer (m : Message) (s : Port σ) :
    match answer m.payload s.device s.pending with
    | some (response, device, unread) => m.step.exec s = .ok () ⟨device, unread,
        s.log ++ (pdlActs m.payload ++ [.response response]), s.checksum⟩
    | none => ∃ e t acts, m.step.exec s = .error e t ∧ t.log = s.log ++ acts ∧
        acts <+: pdlActs m.payload ∧ acts ≠ [] := by
  have answered := request_answered m.cmd m.fits s
  rw [answer_eq]
  rcases written : pdlWrites m.payload s.device s.pending with _ | ⟨device, pending⟩
  · rw [Message.payload] at written
    rw [written] at answered
    exact ⟨_, answered⟩
  · rw [Message.payload] at written
    rw [written] at answered
    simp only at answered ⊢
    rcases loop : Pdl.recvLoop [] pending with ⟨e | ⟨status, response⟩, unread⟩
    · rw [loop] at answered
      exact ⟨e, _, pdlActs m.payload, answered, rfl, List.prefix_rfl, by simp [pdlActs]⟩
    · rw [loop] at answered
      simp only [List.append_assoc] at answered
      exact answered

theorem perform_messages_log (ms : List Message) (s : Port σ) :
    ∃ acts, (final (perform Step.exec (ms.map Message.step) s)).log = s.log ++ acts ∧
      (ms ≠ [] → frames acts ≠ []) := by
  induction ms generalizing s with
  | nil => exact ⟨[], (List.append_nil _).symm, fun some => absurd rfl some⟩
  | cons m ms ih =>
    have one := exec_answer m s
    cases met : answer m.payload s.device s.pending with
    | none =>
      rw [met] at one
      obtain ⟨e, t, acts, run, log, part, some⟩ := one
      have failed : perform Step.exec ((m :: ms).map Message.step) s = .error e t :=
        bind_error run
      refine ⟨acts, by rw [failed]; exact log, fun _ nothing => ?_⟩
      obtain ⟨act, rest, rfl⟩ := List.exists_cons_of_ne_nil some
      obtain ⟨bs, rfl⟩ := pdlActs_writes part act List.mem_cons_self
      cases nothing
    | some outcome =>
      obtain ⟨response, device, unread⟩ := outcome
      rw [met] at one
      obtain ⟨acts, log, -⟩ := ih ⟨device, unread,
        s.log ++ (pdlActs m.payload ++ [.response response]), s.checksum⟩
      have next : perform Step.exec ((m :: ms).map Message.step) s = _ := bind_ok one
      refine ⟨pdlActs m.payload ++ [.response response] ++ acts, ?_, fun _ nothing => ?_⟩
      · rw [next]
        exact log.trans (List.append_assoc _ _ _)
      · cases nothing

/-- By induction on the messages: one response each. -/
theorem perform_heeds (ms : List Message) (s : Port σ) :
    Heeds (perform Step.exec (ms.map Message.step)) s ↔
      ∀ response ∈ answers (ms.map Message.payload) s.device s.pending, Granted response := by
  induction ms generalizing s with
  | nil =>
    refine ⟨fun _ => by simp [answers], fun _ => ⟨[], ?_, trivial, fun _ => trivial⟩⟩
    exact (List.append_nil _).symm
  | cons m ms ih =>
    have one := exec_answer m s
    rw [List.map_cons, List.map_cons, answers]
    cases met : answer m.payload s.device s.pending with
    | none =>
      rw [met] at one
      obtain ⟨e, t, acts, run, log, part, -⟩ := one
      have failed : perform Step.exec (m.step :: ms.map Message.step) s = .error e t :=
        bind_error run
      refine ⟨fun _ => by simp, fun _ => ⟨acts, ?_, stops_writes (pdlActs_writes part), ?_⟩⟩
      · rw [failed]
        exact log
      · rw [failed]
        rintro ⟨u, returned⟩
        cases returned
    | some outcome =>
      obtain ⟨response, device, unread⟩ := outcome
      rw [met] at one
      obtain ⟨acts, log, goesOn⟩ := perform_messages_log ms ⟨device, unread,
        s.log ++ (pdlActs m.payload ++ [.response response]), s.checksum⟩
      have next : perform Step.exec (m.step :: ms.map Message.step) s = _ := bind_ok one
      have rest := ih ⟨device, unread, s.log ++
        (pdlActs m.payload ++ [.response response]), s.checksum⟩
      have log' : (final (perform Step.exec (m.step :: ms.map Message.step) s)).log =
          s.log ++ (pdlActs m.payload ++ [.response response] ++ acts) := by
        rw [next]
        exact log.trans (List.append_assoc _ _ _)
      rw [heeds_iff log] at rest
      rw [heeds_iff log', stops_block, confirmed_block, next, List.forall_mem_cons, ← rest]
      by_cases granted : Granted response
      · rw [if_pos granted]
        constructor
        · exact fun ⟨stops, confirmed⟩ => ⟨granted, stops, fun returned => (confirmed returned).2⟩
        · exact fun ⟨_, stops, confirmed⟩ => ⟨stops, fun returned => ⟨granted, confirmed returned⟩⟩
      · rw [if_neg granted]
        constructor
        · rintro ⟨quiet, confirmed⟩
          -- nothing follows, so it was the last message and the run returned
          have last : ms = [] := by
            by_contra more
            exact goesOn more quiet
          subst last
          exact absurd (confirmed ⟨_, rfl⟩).1 granted
        · exact fun ⟨granted', _⟩ => absurd granted' granted

/-- The loader is sent as it should be, and not started behind a response that
grants nothing. -/
def Guarded (addr : ℕ) (data name : Bytes) (checksum : Option UInt32) (s : Port σ) : Prop :=
  let load := Pdl.sendImage addr data name (checksum.map UInt32.toNat)
  Heeds load s ∧
    ∀ acts, (final ((load >>= fun _ => Native.handOver) s)).log = s.log ++ acts →
      (∃ response, .response response ∈ acts ∧ ¬ Granted response) →
      .wrote (pdlPayload .exec 0 0 []) ∉ acts

omit [Device σ] in
theorem exec_not_written (m : Message) (response : Bytes) {acts : List Act}
    (h : acts <+: pdlActs m.payload ++ [.response response]) :
    .wrote (pdlPayload .exec 0 0 []) ∉ acts := by
  intro mem
  have written := h.subset mem
  simp only [pdlActs, List.mem_append, List.mem_cons, List.not_mem_nil, or_false, Act.wrote.injEq,
    reduceCtorEq] at written
  have exec := decodeWrite_pdlPayload .exec (show Packable 0 0 [] by decide)
  rcases written with header | payload
  · rw [header, decodeWrite_pdlHeader] at exec
    cases exec
  · rw [payload, Message.payload, decodeWrite_pdlPayload m.cmd m.fits] at exec
    have other := m.other
    cases code : m.cmd with
    | exec => exact other code
    | _ =>
      rw [code] at exec
      cases exec

theorem messages_unexec (ms : List Message) :
    Appends (σ := Port σ) Port.log (fun act => act ≠ .wrote (pdlPayload .exec 0 0 []))
      (perform Step.exec (ms.map Message.step)) := by
  refine perform_appends (List.forall_mem_map.mpr fun m _ s => ?_)
  have one := exec_answer m s
  cases met : answer m.payload s.device s.pending with
  | none =>
    rw [met] at one
    obtain ⟨e, t, acts, run, log, part, -⟩ := one
    have absent := exec_not_written m [] (part.trans (List.prefix_append _ _))
    exact ⟨acts, fun act hact same => absent (same ▸ hact), by rw [run]; exact log⟩
  | some outcome =>
    obtain ⟨response, device, unread⟩ := outcome
    rw [met] at one
    have absent := exec_not_written m response List.prefix_rfl
    exact ⟨_, fun act hact same => absent (same ▸ hact), by rw [one]; rfl⟩

theorem handOver_unanswered : Appends (σ := Port σ) Port.log
    (fun act => ∀ response, act ≠ .response response) Native.handOver := by
  have sends : ∀ act ∈ execActs, ∀ response, act ≠ .response response := by
    simp [execActs, pdlActs]
  intro s
  cases run : Native.handOver s with
  | ok u t =>
    obtain ⟨kicks, version, flags, written⟩ := handOver_ok run
    refine ⟨_, ?_, written⟩
    intro act hact response
    simp only [List.mem_append, List.mem_singleton] at hact
    rcases hact with (hact | hact) | rfl
    · exact sends act hact response
    · simp [flags act hact]
    · simp
  | error e t =>
    obtain ⟨acts, kicks, part, flags, written⟩ := handOver_error run
    refine ⟨_, ?_, written⟩
    intro act hact response
    rcases List.mem_append.mp hact with hact | hact
    · exact sends act (part.subset hact) response
    · simp [flags act hact]

/-- A loader whose image heeds its responses is not started behind a refusal. -/
theorem heeds_unexec {ms : List Message} {s : Port σ}
    (heeds : Heeds (perform Step.exec (ms.map Message.step)) s) {acts : List Act}
    (log : (final ((perform Step.exec (ms.map Message.step) >>= fun _ => Native.handOver) s)).log =
      s.log ++ acts) {response : Bytes} (hresponse : .response response ∈ acts)
    (refused : ¬ Granted response) : .wrote (pdlPayload .exec 0 0 []) ∉ acts := by
  obtain ⟨loads, unexec, loaded⟩ := messages_unexec ms s
  cases run : perform Step.exec (ms.map Message.step) s with
  | error e t =>
    rw [run] at loaded
    rw [bind_error run, show final (.error e t) = t from rfl,
      show t.log = s.log ++ loads from loaded, List.append_cancel_left_eq] at log
    subst log
    exact fun exec => unexec _ exec rfl
  | ok u t =>
    -- then every message is confirmed, and the start reads no response
    obtain ⟨acts', log', -, confirmed⟩ := heeds
    obtain ⟨starts, unanswered, started⟩ := handOver_unanswered t
    rw [run] at log'
    rw [bind_ok run, started, show t.log = s.log ++ acts' from log', List.append_assoc,
      List.append_cancel_left_eq] at log
    subst log
    rcases List.mem_append.mp hresponse with loading | starting
    · exact absurd ((confirmed ⟨t, run⟩).granted loading) refused
    · exact absurd rfl (unanswered _ starting response)

/-- The commands are safe on exactly the devices that grant every request. -/
theorem sendImage_guarded_iff (addr : ℕ) (data name : Bytes) (checksum : Option UInt32)
    (s : Port σ) : Guarded addr data name checksum s ↔
      (Packable addr data.length name → ∀ response ∈ answers (requests addr data name
        ((checksum.map UInt32.toNat).getD (Pdl.pdlImageCrc data))) s.device s.pending,
          Granted response) := by
  rw [Guarded, sendImage_eq]
  by_cases start : Packable addr data.length name
  · have word : (checksum.map UInt32.toNat).getD (Pdl.pdlImageCrc data) < 2 ^ 32 := by
      cases checksum with
      | none => exact pdlImageCrc_lt data
      | some checksum => exact checksum.toNat_lt
    obtain ⟨ms, steps, payloads, -⟩ := image_messages start word
    rw [← steps, ← payloads, perform_heeds]
    constructor
    · exact fun guarded _ => guarded.1
    · intro granted
      have heeds := (perform_heeds ms s).mpr (granted start)
      exact ⟨granted start, fun acts log ⟨response, hresponse, refused⟩ =>
        heeds_unexec heeds log hresponse refused⟩
  · obtain ⟨e, refused⟩ : ∃ e, Pdl.request .startData addr data.length name s = .error e s :=
      request_unpackable start s
    have failed : perform Step.exec (image addr data name (checksum.map UInt32.toNat)) s =
        .error e s := bind_error refused
    refine ⟨fun _ fits => absurd fits start, fun _ => ⟨⟨[], ?_, trivial, fun _ => trivial⟩, ?_⟩⟩
    · rw [failed]
      exact (List.append_nil _).symm
    · intro acts log
      rw [bind_error failed] at log
      cases List.self_eq_append_right.mp log
      simp

/-- The agent refuses the START of an empty image with status 1 and grants its END. -/
def refusing : Port Tape :=
  Port.fresh ⟨[[], [0xAE, 0x04, 0x00, 0x00, 0x00, 0xFF, 0x00, 0x00, 0x01, 0x00, 0x00,
    0x00].map .byte,
    [], [0xAE, 0x04, 0x00, 0x00, 0x00, 0xFF, 0x00, 0x00, 0x00, 0x00, 0x00, 0x00].map .byte]⟩

theorem refusing_unguarded :
    ¬ Guarded 0x838000 [] [0x50, 0x44, 0x4C, 0x31, 0x00] (some 0) refusing := by
  rintro ⟨heeds, -⟩
  have zero : ((some (0 : UInt32)).map UInt32.toNat).getD (Pdl.pdlImageCrc []) < 2 ^ 32 := by decide
  obtain ⟨ms, steps, payloads, -⟩ := image_messages
    (show Packable 0x838000 ([] : Bytes).length [0x50, 0x44, 0x4C, 0x31, 0x00] by decide) zero
  rw [sendImage_eq, ← steps, perform_heeds, payloads] at heeds
  have refused := heeds [0x01, 0x00, 0x00, 0x00] (by
    simp [requests, answers, answer, refusing, Port.fresh, Device.onWrite, Pdl.recvLoop, readUpTo,
      Pdl.pdlMagic, unpack, fromOctets])
  exact absurd refused (by decide)

end SprdFlash.PdlAcceptance
