import SprdFlash.SpdIO

/-!
What `_read_frame` and `recv` deliver from a byte stream. On a live queue the
reader is the stuffing receiver over the HDLC alphabet, so its results depend
on the bytes alone and not on the empty reads between them. Whole sessions
round-trip, noise costs at most one frame, and `recv` follows the documented
grammar except on bodies whose trailer it never looks at.
-/

namespace SprdFlash.Framing

open Message Port SpdIO Stuffing

variable {σ : Type}

/-- The result of a reading loop on a queue, against what the stuffing receiver
finds in its bytes. -/
def Agrees (found : Option (Bytes × Bytes)) (result : Except Exc Bytes × List Event)
    (events : List Event) : Prop :=
  match found with
  | some (w, rest) => ∃ after, result = (.ok (hdlcUnescape w), after) ∧ received after = rest ∧
      after <:+ events ∧ after.length < events.length
  | none => ∃ msg, result = (.error (.timeoutError msg), [])

theorem Agrees.cons {found : Option (Bytes × Bytes)} {result : Except Exc Bytes × List Event}
    {events : List Event} (h : Agrees found result events) (ev : Event) :
    Agrees found result (ev :: events) := by
  cases found with
  | none => exact h
  | some p =>
    obtain ⟨after, run, bytes, suffix, shorter⟩ := h
    refine ⟨after, run, bytes, suffix.trans (List.suffix_cons ev events), ?_⟩
    rw [List.length_cons]
    omega

theorem readBody_agrees {events : List Event} (live : Live events) (body : Bytes) :
    Agrees (next hdlc (.inside body) (received events)) (readBody body events) events := by
  induction events generalizing body with
  | nil => exact ⟨_, rfl⟩
  | cons ev events ih =>
    cases ev with
    | idle => exact (ih live.tail body).cons _
    | late => exact (ih live.tail body).cons _
    | expired => exact absurd rfl (live _ List.mem_cons_self).1
    | fault => exact absurd rfl (live _ List.mem_cons_self).2
    | byte b =>
      rw [received_byte, next, readBody]
      by_cases isFlag : b = hdlcFlag
      · by_cases empty : body = []
        · have reopened : step hdlc (.inside body) b = (.inside [], none) := by
            simp [step, hdlc, isFlag, empty]
          rw [reopened, if_pos isFlag, if_pos empty]
          exact (ih live.tail []).cons _
        · have delivered : step hdlc (.inside body) b = (.seeking, some body) := by
            simp [step, hdlc, isFlag, empty]
          rw [delivered, if_pos isFlag, if_neg empty]
          exact ⟨events, rfl, rfl, List.suffix_cons _ events, by simp⟩
      · have collected : step hdlc (.inside body) b = (.inside (body ++ [b]), none) := by
          simp [step, hdlc, isFlag]
        rw [collected, if_neg isFlag]
        exact (ih live.tail (body ++ [b])).cons _

theorem seekFlag_agrees {events : List Event} (live : Live events) :
    Agrees (next hdlc .seeking (received events)) (seekFlag events) events := by
  induction events with
  | nil => exact ⟨_, rfl⟩
  | cons ev events ih =>
    cases ev with
    | idle => exact (ih live.tail).cons _
    | late => exact (ih live.tail).cons _
    | expired => exact absurd rfl (live _ List.mem_cons_self).1
    | fault => exact absurd rfl (live _ List.mem_cons_self).2
    | byte b =>
      rw [received_byte, next, seekFlag]
      by_cases isFlag : b = hdlcFlag
      · have opened : step hdlc .seeking b = (.inside [], none) := by
          simp [step, hdlc, isFlag]
        rw [opened, if_pos isFlag]
        exact (readBody_agrees live.tail []).cons _
      · have skipped : step hdlc .seeking b = (.seeking, none) := by
          simp [step, hdlc, isFlag]
        rw [skipped, if_neg isFlag]
        exact (ih live.tail).cons _

theorem readFrame_next {s : Port σ} (live : Live s.pending) {w rest : Bytes}
    (h : next hdlc .seeking (received s.pending) = some (w, rest)) :
    ∃ after, readFrame s = .ok (hdlcUnescape w)
        { s with pending := after, log := s.log ++ [.reply (hdlcUnescape w)] } ∧
      received after = rest ∧ after <:+ s.pending ∧ after.length < s.pending.length := by
  have agrees := seekFlag_agrees live
  rw [h] at agrees
  obtain ⟨after, run, bytes, suffix, shorter⟩ := agrees
  exact ⟨after, readFrame_of_ok run, bytes, suffix, shorter⟩

theorem readFrame_silent {s : Port σ} (live : Live s.pending)
    (h : next hdlc .seeking (received s.pending) = none) :
    ∃ msg, readFrame s = .error (.timeoutError msg) { s with pending := [] } := by
  have agrees := seekFlag_agrees live
  rw [h] at agrees
  obtain ⟨msg, run⟩ := agrees
  exact ⟨msg, readFrame_of_error run⟩

theorem recv_next {s : Port σ} (live : Live s.pending) {w rest : Bytes}
    (h : next hdlc .seeking (received s.pending) = some (w, rest)) :
    ∃ t, recv s = raising (parseMessage (hdlcUnescape w)) t ∧ received t.pending = rest ∧
      t.pending <:+ s.pending ∧ t.checksum = s.checksum ∧ t.device = s.device := by
  obtain ⟨after, run, bytes, suffix, -⟩ := readFrame_next live h
  exact ⟨_, Script.bind_ok run, bytes, suffix, rfl, rfl⟩

theorem recv_silent {s : Port σ} (live : Live s.pending)
    (h : next hdlc .seeking (received s.pending) = none) :
    ∃ msg t, recv s = .error (.timeoutError msg) t := by
  obtain ⟨msg, run⟩ := readFrame_silent live h
  exact ⟨msg, _, Script.bind_error run⟩

structure Built where
  cmd : ℕ
  data : Bytes
  mode : Checksum
  frame : Bytes
  built : buildMessage cmd data mode = .ok frame

namespace Built

def body (m : Built) : Bytes := messageBody m.cmd m.data m.mode

def content (m : Built) : Bytes := escape hdlc m.body

def of (cmd : ℕ) (data : Bytes) (mode : Checksum) (hcmd : cmd < 65536)
    (hdata : data.length < 65536) : Built :=
  ⟨cmd, data, mode, wireMessage cmd data mode, buildMessage_ok hcmd hdata mode⟩

theorem frame_eq (m : Built) : m.frame = enclose hdlc m.content :=
  (buildMessage_eq_ok m.built).2.2

theorem clean (m : Built) : Clean hdlc m.content := clean_escape_messageBody _ _ _

theorem unescape_content (m : Built) : hdlcUnescape m.content = m.body := by
  rw [content, hdlcUnescape_escape]

theorem parse_body (m : Built) : parseMessage m.body = .ok (m.cmd, m.data) :=
  parseMessage_messageBody (buildMessage_eq_ok m.built).1 (buildMessage_eq_ok m.built).2.1 m.mode

end Built

structure Transmission extends Built where
  gap : Bytes
  flags : ℕ
  gapNoFlag : hdlcFlag ∉ gap

def Transmission.wire (t : Transmission) : Bytes :=
  t.gap ++ (List.replicate t.flags hdlcFlag ++ t.frame)

def recvs : ℕ → Session σ (List (ℕ × Bytes))
  | 0 => pure []
  | n + 1 => do
    let first ← recv
    let others ← recvs n
    return first :: others

theorem recv_transmission (m : Transmission) {s : Port σ} (live : Live s.pending)
    {rest : Bytes} (wire : received s.pending = m.wire ++ rest) :
    ∃ t, recv s = .ok (m.cmd, m.data) t ∧ received t.pending = rest ∧ Live t.pending := by
  have framed : received s.pending =
      m.gap ++ (List.replicate m.flags hdlcFlag ++ (enclose hdlc m.content ++ rest)) := by
    rw [wire, Transmission.wire, m.frame_eq]
    simp
  have found := next_enclose hdlc m.gapNoFlag m.clean m.flags rest
  have h : next hdlc .seeking (received s.pending) = some (m.content, rest) := by
    rw [framed]
    exact found
  obtain ⟨t, run, bytes, suffix, -⟩ := recv_next live h
  refine ⟨t, ?_, bytes, live.suffix suffix⟩
  rw [run, m.unescape_content, m.parse_body]
  rfl

/-- Framing round-trips over whole sessions: successive `recv` calls return the
messages in order, and one more call finds nothing. -/
theorem recvs_transmissions (ms : List Transmission) (s : Port σ) (live : Live s.pending)
    (wire : received s.pending = ms.flatMap Transmission.wire) :
    ∃ t, recvs ms.length s = .ok (ms.map fun m => (m.cmd, m.data)) t ∧
      received t.pending = [] ∧ ∃ msg u, recv t = .error (.timeoutError msg) u := by
  induction ms generalizing s with
  | nil =>
    refine ⟨s, rfl, wire, recv_silent live ?_⟩
    rw [wire]
    rfl
  | cons m ms ih =>
    rw [List.flatMap_cons] at wire
    obtain ⟨s', first, bytes, live'⟩ := recv_transmission m live wire
    obtain ⟨t, others, quiet, done⟩ := ih s' live' bytes
    refine ⟨t, ?_, quiet, done⟩
    rw [List.length_cons, recvs, Script.bind_ok first, Script.bind_ok others]
    rfl

def ack : Built := .of bslRepAck [] .sprd (by decide) (by decide)

def greeting : List Transmission :=
  [{ Built.of bslRepVer [0x7E, 0x7D] .crc (by decide) (by decide) with
      gap := [0x00], flags := 2, gapNoFlag := by decide },
    { ack with gap := [], flags := 0, gapNoFlag := by decide }]

def heard (bs : Bytes) : Port Unit := ⟨(), .idle :: bs.map .byte, [], .sprd⟩

theorem heard_live (bs : Bytes) : Live (heard bs).pending := by
  intro ev hev
  rcases List.mem_cons.mp hev with rfl | hev
  · simp
  · obtain ⟨b, -, rfl⟩ := List.mem_map.mp hev
    simp

theorem heard_received (bs : Bytes) : received (heard bs).pending = bs := by
  rw [heard, received_idle, received_bytes]

theorem recvs_greeting : ∃ t, recvs 2 (heard (greeting.flatMap Transmission.wire)) =
    .ok [(bslRepVer, [0x7E, 0x7D]), (bslRepAck, [])] t := by
  obtain ⟨t, run, -⟩ := recvs_transmissions greeting _ (heard_live _) (heard_received _)
  exact ⟨t, run⟩

theorem readBody_length_lt {body out : Bytes} {events rest : List Event}
    (h : readBody body events = (.ok out, rest)) : rest.length < events.length := by
  fun_induction readBody body events with
  | case1 => cases h
  | case2 => cases h
  | case3 => cases h
  | case4 body events ih => exact (ih h).trans (by simp)
  | case5 body events ih => exact (ih h).trans (by simp)
  | case6 events ih => exact (ih h).trans (by simp)
  | case7 body b events => cases h; simp
  | case8 body b events isFlag ih => exact (ih h).trans (by simp)

theorem seekFlag_length_lt {out : Bytes} {events rest : List Event}
    (h : seekFlag events = (.ok out, rest)) : rest.length < events.length := by
  fun_induction seekFlag events with
  | case1 => cases h
  | case2 => cases h
  | case3 => cases h
  | case4 events ih => exact (ih h).trans (by simp)
  | case5 events ih => exact (ih h).trans (by simp)
  | case6 events => exact (readBody_length_lt h).trans (by simp)
  | case7 b events isFlag ih => exact (ih h).trans (by simp)

theorem readFrame_length_lt {s t : Port σ} {body : Bytes} (h : readFrame s = .ok body t) :
    t.pending.length < s.pending.length := by
  rw [readFrame] at h
  split at h
  case h_1 body' rest run =>
    cases h
    exact seekFlag_length_lt run
  case h_2 => cases h

/-- The bodies repeated `_read_frame` calls return until one raises. -/
def readFrames (s : Port σ) : List Bytes :=
  match _run : readFrame s with
  | .ok body t => body :: readFrames t
  | .error _ _ => []
termination_by s.pending.length
decreasing_by exact readFrame_length_lt _run

theorem readFrames_eq_bodies (s : Port σ) (live : Live s.pending) :
    readFrames s = (bodies hdlc .seeking (received s.pending)).map hdlcUnescape := by
  induction hn : s.pending.length using Nat.strong_induction_on generalizing s with
  | _ n ih =>
    rw [bodies_eq_next, readFrames]
    cases h : next hdlc .seeking (received s.pending) with
    | none =>
      obtain ⟨msg, run⟩ := readFrame_silent live h
      rw [run]
      rfl
    | some p =>
      obtain ⟨w, rest⟩ := p
      obtain ⟨after, run, bytes, suffix, shorter⟩ := readFrame_next live h
      rw [run]
      have later := ih after.length (by omega)
        { s with pending := after, log := s.log ++ [.reply (hdlcUnescape w)] }
        (live.suffix suffix) rfl
      rw [bytes] at later
      simp only [List.map_cons, later]

/-- Whatever precedes them, the frames of a run of messages are delivered in
order and last, but for at most the first. -/
theorem readFrames_resync (noise : Bytes) (ms : List Built) (s : Port σ) (live : Live s.pending)
    (wire : received s.pending = noise ++ ms.flatMap Built.frame) :
    ∃ early, readFrames s = early ++ ms.tail.map Built.body := by
  have framed : ms.flatMap Built.frame = stream hdlc (ms.map Built.content) := by
    simp only [stream, List.flatMap_map, funext Built.frame_eq]
  have clean : ∀ w ∈ ms.map Built.content, Clean hdlc w := by
    intro w hw
    obtain ⟨m, -, rfl⟩ := List.mem_map.mp hw
    exact m.clean
  have exact (l : List Built) : (l.map Built.content).map hdlcUnescape = l.map Built.body := by
    simp only [List.map_map]
    exact List.map_congr_left fun m _ => m.unescape_content
  rw [readFrames_eq_bodies s live, wire, framed]
  obtain ⟨early, all | tail⟩ := bodies_resync hdlc noise clean
  · cases ms with
    | nil => exact ⟨_, (List.append_nil _).symm⟩
    | cons m ms =>
      refine ⟨early.map hdlcUnescape ++ [m.body], ?_⟩
      rw [all, List.map_append, exact]
      simp
  · refine ⟨early.map hdlcUnescape, ?_⟩
    rw [tail, List.map_append, ← List.map_tail, exact]

theorem readFrames_noise : ∃ early,
    readFrames (heard ([0x31, 0x7E, 0x32] ++ [ack, ack].flatMap Built.frame)) =
      early ++ [[0x00, 0x80, 0x00, 0x00, 0xFF, 0x7F]] := by
  have last : ([ack, ack].tail).map Built.body = [[0x00, 0x80, 0x00, 0x00, 0xFF, 0x7F]] := by
    decide
  rw [← last]
  exact readFrames_resync [0x31, 0x7E, 0x32] [ack, ack] _ (heard_live _) (heard_received _)

def Carries (s : Port σ) (w : Bytes) : Prop :=
  ∃ early later gap n, s.pending = early ++ later ∧ Live early ∧ hdlcFlag ∉ gap ∧ Clean hdlc w ∧
    received early = gap ++ (List.replicate (n + 1) hdlcFlag ++ (w ++ [hdlcFlag]))

theorem carries_iff_next {s : Port σ} {w : Bytes} :
    Carries s w ↔ ∃ early later, s.pending = early ++ later ∧ Live early ∧
      next hdlc .seeking (received early) = some (w, []) := by
  constructor
  · rintro ⟨early, later, gap, n, split, live, gapNoFlag, clean, wire⟩
    refine ⟨early, later, split, live, ?_⟩
    have found := next_enclose hdlc gapNoFlag clean n []
    have swap : List.replicate (n + 1) hdlcFlag = List.replicate n hdlcFlag ++ [hdlcFlag] :=
      List.replicate_succ'
    rw [wire, swap]
    simpa [enclose, hdlc] using found
  · rintro ⟨early, later, split, live, h⟩
    obtain ⟨clean, gap, n, gapNoFlag, wire⟩ := next_eq_some hdlc h
    exact ⟨early, later, gap, n, split, live, gapNoFlag, clean, wire⟩

theorem readBody_append {body out : Bytes} {events rest : List Event}
    (h : readBody body events = (.ok out, rest)) (later : List Event) :
    readBody body (events ++ later) = (.ok out, rest ++ later) := by
  fun_induction readBody body events with
  | case1 => cases h
  | case2 => cases h
  | case3 => cases h
  | case4 body events ih => exact ih h
  | case5 body events ih => exact ih h
  | case6 events ih => rw [List.cons_append, readBody, if_pos rfl, if_pos rfl, ih h]
  | case7 body events filled =>
    cases h
    rw [List.cons_append, readBody, if_pos rfl, if_neg filled]
  | case8 body b events isFlag ih => rw [List.cons_append, readBody, if_neg isFlag, ih h]

theorem seekFlag_append {out : Bytes} {events rest : List Event}
    (h : seekFlag events = (.ok out, rest)) (later : List Event) :
    seekFlag (events ++ later) = (.ok out, rest ++ later) := by
  fun_induction seekFlag events with
  | case1 => cases h
  | case2 => cases h
  | case3 => cases h
  | case4 events ih => exact ih h
  | case5 events ih => exact ih h
  | case6 events => rw [List.cons_append, seekFlag, if_pos rfl, readBody_append h]
  | case7 b events isFlag ih => rw [List.cons_append, seekFlag, if_neg isFlag, ih h]

def Taken (read : List Event → Except Exc Bytes × List Event) (out : Bytes)
    (events rest : List Event) : Prop :=
  ∃ early, events = early ++ rest ∧ Live early ∧ read early = (.ok out, [])

theorem readBody_taken {body out : Bytes} {events rest : List Event}
    (h : readBody body events = (.ok out, rest)) : Taken (readBody body) out events rest := by
  fun_induction readBody body events with
  | case1 => cases h
  | case2 => cases h
  | case3 => cases h
  | case4 body events ih =>
    obtain ⟨early, rfl, live, run⟩ := ih h
    exact ⟨.idle :: early, rfl, live.cons (by simp), run⟩
  | case5 body events ih =>
    obtain ⟨early, rfl, live, run⟩ := ih h
    exact ⟨.late :: early, rfl, live.cons (by simp), run⟩
  | case6 events ih =>
    obtain ⟨early, rfl, live, run⟩ := ih h
    exact ⟨.byte hdlcFlag :: early, rfl, live.cons (by simp), by
      rw [readBody, if_pos rfl, if_pos rfl, run]⟩
  | case7 body events filled =>
    cases h
    exact ⟨[.byte hdlcFlag], rfl, by simp [Live], by rw [readBody, if_pos rfl, if_neg filled]⟩
  | case8 body b events isFlag ih =>
    obtain ⟨early, rfl, live, run⟩ := ih h
    exact ⟨.byte b :: early, rfl, live.cons (by simp), by rw [readBody, if_neg isFlag, run]⟩

theorem seekFlag_taken {out : Bytes} {events rest : List Event}
    (h : seekFlag events = (.ok out, rest)) : Taken seekFlag out events rest := by
  fun_induction seekFlag events with
  | case1 => cases h
  | case2 => cases h
  | case3 => cases h
  | case4 events ih =>
    obtain ⟨early, rfl, live, run⟩ := ih h
    exact ⟨.idle :: early, rfl, live.cons (by simp), run⟩
  | case5 events ih =>
    obtain ⟨early, rfl, live, run⟩ := ih h
    exact ⟨.late :: early, rfl, live.cons (by simp), run⟩
  | case6 events =>
    obtain ⟨early, rfl, live, run⟩ := readBody_taken h
    exact ⟨.byte hdlcFlag :: early, rfl, live.cons (by simp), by rw [seekFlag, if_pos rfl, run]⟩
  | case7 b events isFlag ih =>
    obtain ⟨early, rfl, live, run⟩ := ih h
    exact ⟨.byte b :: early, rfl, live.cons (by simp), by rw [seekFlag, if_neg isFlag, run]⟩

theorem seekFlag_carried {s : Port σ} {w : Bytes} (carries : Carries s w) :
    ∃ rest, seekFlag s.pending = (.ok (hdlcUnescape w), rest) := by
  obtain ⟨early, later, split, live, h⟩ := carries_iff_next.mp carries
  have agrees := seekFlag_agrees live
  rw [h] at agrees
  obtain ⟨after, run, -⟩ := agrees
  exact ⟨after ++ later, by rw [split, seekFlag_append run later]⟩

theorem recv_carried {s : Port σ} {w : Bytes} (carries : Carries s w) :
    ∃ t, recv s = raising (parseMessage (hdlcUnescape w)) t := by
  obtain ⟨rest, run⟩ := seekFlag_carried carries
  exact ⟨_, Script.bind_ok (readFrame_of_ok run)⟩

theorem Carries.unique {s : Port σ} {w w' : Bytes} (h : Carries s w) (h' : Carries s w') :
    hdlcUnescape w = hdlcUnescape w' := by
  obtain ⟨rest, run⟩ := seekFlag_carried h
  obtain ⟨rest', run'⟩ := seekFlag_carried h'
  rw [run] at run'
  exact Except.ok.inj (Prod.mk.inj run').1

theorem carries_of_recv {s t : Port σ} {message : ℕ × Bytes} (h : recv s = .ok message t) :
    ∃ w, Carries s w := by
  obtain ⟨body, u, read, -⟩ := Script.bind_eq_ok h
  change readFrame s = _ at read
  rw [readFrame] at read
  split at read
  case h_1 body' rest run =>
    obtain ⟨early, split, live, taken⟩ := seekFlag_taken run
    have agrees := seekFlag_agrees live
    cases found : next hdlc .seeking (received early) with
    | none =>
      rw [found] at agrees
      obtain ⟨msg, silent⟩ := agrees
      rw [silent] at taken
      cases taken
    | some p =>
      rw [found] at agrees
      obtain ⟨after, run', bytes, -⟩ := agrees
      rw [run'] at taken
      cases taken
      refine ⟨p.1, carries_iff_next.mpr ⟨early, rest, split, live, ?_⟩⟩
      rw [found, ← Prod.mk.eta (p := p), ← bytes, received_nil]
  case h_2 => cases read

/-- A body of the documented form type | size | data | checksum. -/
def Documented (mode : Checksum) (body : Bytes) (cmd : ℕ) (data : Bytes) : Prop :=
  cmd < 65536 ∧ data.length < 65536 ∧ body = messageBody cmd data mode

/-- `recv` returns exactly the messages that arrive in a documented body, and
rejects every other body with `ValueError`. -/
def FollowsGrammar (s : Port σ) : Prop :=
  (∀ cmd data, (∃ t, recv s = .ok (cmd, data) t) ↔
    ∃ w, Carries s w ∧ Documented s.checksum (hdlcUnescape w) cmd data) ∧
  ∀ w, Carries s w → (∀ cmd data, ¬ Documented s.checksum (hdlcUnescape w) cmd data) →
    ∃ msg t, recv s = .error (.valueError msg) t

def declaredSize (body : Bytes) : ℕ := Struct.unpack .big ((body.drop 2).take 2)

/-- A body that is long enough for its size field, but is not followed by
exactly the two bytes of its checksum: bytes are missing or left over, or the
checksum is another. -/
def Misread (mode : Checksum) (body : Bytes) : Prop :=
  6 ≤ body.length ∧ declaredSize body + 4 ≤ body.length ∧
    (body.length ≠ declaredSize body + 6 ∨
      Struct.unpack .big (body.drop (declaredSize body + 4)) ≠
        checksumFor mode (body.take (declaredSize body + 4)))

theorem parseMessage_ok_iff {body : Bytes} {cmd : ℕ} {data : Bytes} :
    parseMessage body = .ok (cmd, data) ↔
      6 ≤ body.length ∧ declaredSize body + 4 ≤ body.length ∧
        cmd = Struct.unpack .big (body.take 2) ∧
        data = (body.drop 4).take (declaredSize body) := by
  simp only [parseMessage, ← declaredSize.eq_def, List.length_take, List.length_drop]
  split_ifs with short truncated
  · constructor
    · intro h
      cases h
    · rintro ⟨long, -⟩
      omega
  · constructor
    · intro h
      cases h
    · rintro ⟨long, fits, -⟩
      omega
  · simp only [Except.ok.injEq, Prod.mk.injEq]
    constructor
    · rintro ⟨rfl, rfl⟩
      exact ⟨by omega, by omega, rfl, rfl⟩
    · rintro ⟨-, -, rfl, rfl⟩
      exact ⟨rfl, rfl⟩

theorem parseMessage_error {body : Bytes}
    (h : ¬ (6 ≤ body.length ∧ declaredSize body + 4 ≤ body.length)) :
    ∃ msg, parseMessage body = .error (.valueError msg) := by
  simp only [parseMessage, ← declaredSize.eq_def, List.length_take, List.length_drop]
  split_ifs with short truncated
  · exact ⟨_, rfl⟩
  · exact ⟨_, rfl⟩
  · omega

theorem declaredSize_lt (body : Bytes) : declaredSize body < 65536 := by
  have bound := Struct.unpack_lt .big ((body.drop 2).take 2)
  have width : ((body.drop 2).take 2).length ≤ 2 := by
    rw [List.length_take]
    omega
  exact bound.trans_le (Nat.pow_le_pow_right (by norm_num) width)

theorem covered_fields {body : Bytes} (long : 4 ≤ body.length)
    (fits : declaredSize body + 4 ≤ body.length) :
    covered (Struct.unpack .big (body.take 2)) ((body.drop 4).take (declaredSize body)) =
      body.take (declaredSize body + 4) := by
  have cmdField : Struct.field .big 2 (Struct.unpack .big (body.take 2)) = body.take 2 :=
    Struct.field_unpack_of_length .big (by rw [List.length_take]; omega)
  have sizeField : Struct.field .big 2 (declaredSize body) = (body.drop 2).take 2 :=
    Struct.field_unpack_of_length .big (by rw [List.length_take, List.length_drop]; omega)
  have dataLength : ((body.drop 4).take (declaredSize body)).length = declaredSize body := by
    rw [List.length_take, List.length_drop]
    omega
  have header : body.take 2 ++ (body.drop 2).take 2 = body.take 4 := (List.take_add (j := 2)).symm
  calc
    _ = body.take 2 ++ (body.drop 2).take 2 ++ (body.drop 4).take (declaredSize body) := by
      simp only [covered, Struct.fields, List.flatMap_cons, List.flatMap_nil, cmdField,
        dataLength, sizeField, List.append_nil]
    _ = body.take (4 + declaredSize body) := by rw [header, List.take_add]
    _ = _ := by rw [Nat.add_comm]

theorem documented_of_not_misread {mode : Checksum} {body : Bytes} (long : 6 ≤ body.length)
    (fits : declaredSize body + 4 ≤ body.length) (h : ¬ Misread mode body) :
    Documented mode body (Struct.unpack .big (body.take 2))
      ((body.drop 4).take (declaredSize body)) := by
  have exactLength : body.length = declaredSize body + 6 := by
    by_contra other
    exact h ⟨long, fits, .inl other⟩
  have checksum : Struct.unpack .big (body.drop (declaredSize body + 4)) =
      checksumFor mode (body.take (declaredSize body + 4)) := by
    by_contra other
    exact h ⟨long, fits, .inr other⟩
  have trailer : Struct.field .big 2 (checksumFor mode (body.take (declaredSize body + 4))) =
      body.drop (declaredSize body + 4) := by
    rw [← checksum]
    exact Struct.field_unpack_of_length .big (by rw [List.length_drop]; omega)
  refine ⟨?_, ?_, ?_⟩
  · have bound := Struct.unpack_lt .big (body.take 2)
    rwa [List.length_take, Nat.min_eq_left (by omega)] at bound
  · rw [List.length_take]
    have := declaredSize_lt body
    omega
  · rw [messageBody, covered_fields (by omega) fits, trailer, List.take_append_drop]

theorem declaredSize_messageBody {cmd : ℕ} {data : Bytes} (hdata : data.length < 65536)
    (mode : Checksum) : declaredSize (messageBody cmd data mode) = data.length := by
  have split : messageBody cmd data mode = Struct.field .big 2 cmd ++
      (Struct.field .big 2 data.length ++
        (data ++ Struct.field .big 2 (checksumFor mode (covered cmd data)))) := by
    simp [messageBody, covered, Struct.fields]
  rw [declaredSize, split, List.drop_left' (by simp), List.take_left' (by simp)]
  exact Struct.unpack_field .big 2 data.length hdata

theorem not_misread_of_documented {mode : Checksum} {body : Bytes} {cmd : ℕ} {data : Bytes}
    (h : Documented mode body cmd data) : ¬ Misread mode body := by
  obtain ⟨hcmd, hdata, rfl⟩ := h
  have coveredLength : (covered cmd data).length = data.length + 4 := by
    simp [covered, Struct.fields]
    omega
  rintro ⟨-, -, other⟩
  rw [messageBody_length, declaredSize_messageBody hdata] at other
  rcases other with length | checksum
  · exact length rfl
  · rw [messageBody, List.drop_left' coveredLength, List.take_left' coveredLength] at checksum
    exact checksum (Struct.unpack_field .big 2 _ (checksumFor_lt mode _))

/-- `recv` follows the documented grammar on exactly the streams whose next
frame is not one it misreads. -/
theorem recv_followsGrammar_iff (s : Port σ) :
    FollowsGrammar s ↔ ∀ w, Carries s w → ¬ Misread s.checksum (hdlcUnescape w) := by
  constructor
  · intro follows w carries misread
    obtain ⟨t, run⟩ := recv_carried carries
    rw [parseMessage_ok_iff.mpr ⟨misread.1, misread.2.1, rfl, rfl⟩] at run
    obtain ⟨w', carries', documented⟩ := (follows.1 _ _).mp ⟨t, run⟩
    rw [carries'.unique carries] at documented
    exact not_misread_of_documented documented misread
  · intro sound
    refine ⟨fun cmd data => ⟨?_, ?_⟩, fun w carries none => ?_⟩
    · rintro ⟨t, returned⟩
      obtain ⟨w, carries⟩ := carries_of_recv returned
      refine ⟨w, carries, ?_⟩
      obtain ⟨u, run⟩ := recv_carried carries
      rw [returned] at run
      cases parsed : parseMessage (hdlcUnescape w) with
      | error e =>
        rw [parsed] at run
        cases run
      | ok message =>
        rw [parsed] at run
        cases run
        obtain ⟨long, fits, rfl, rfl⟩ := parseMessage_ok_iff.mp parsed
        exact documented_of_not_misread long fits (sound w carries)
    · rintro ⟨w, carries, hcmd, hdata, body⟩
      obtain ⟨t, run⟩ := recv_carried carries
      rw [body, parseMessage_messageBody hcmd hdata] at run
      exact ⟨t, run⟩
    · obtain ⟨t, run⟩ := recv_carried carries
      by_cases long : 6 ≤ (hdlcUnescape w).length ∧
          declaredSize (hdlcUnescape w) + 4 ≤ (hdlcUnescape w).length
      · exact absurd (documented_of_not_misread long.1 long.2 (sound w carries)) (none _ _)
      · obtain ⟨msg, rejected⟩ := parseMessage_error long
        rw [rejected] at run
        exact ⟨msg, t, run⟩

/-- An ACK frame with zeros for its checksum is taken for an ACK. -/
theorem recv_misreads_ack :
    ¬ FollowsGrammar (heard [0x7E, 0x00, 0x80, 0x00, 0x00, 0x00, 0x00, 0x7E]) := by
  intro follows
  obtain ⟨w, carries, -, -, body⟩ := (follows.1 bslRepAck []).mp ⟨_, rfl⟩
  have first : Carries (heard [0x7E, 0x00, 0x80, 0x00, 0x00, 0x00, 0x00, 0x7E])
      [0x00, 0x80, 0x00, 0x00, 0x00, 0x00] :=
    ⟨_, [], [], 0, (List.append_nil _).symm, heard_live _, by decide, ⟨by decide, by decide⟩, rfl⟩
  rw [carries.unique first] at body
  exact absurd body (by decide)

end SprdFlash.Framing
