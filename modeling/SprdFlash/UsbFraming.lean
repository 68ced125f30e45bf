import SprdFlash.UsbTransport
import SprdFlash.Framing
import SprdFlash.Library.Mealy

/-!
The framed layer over the bulk endpoints. Its two loops read the USB port one byte at a
time, and see the bytes of the transfers in order, with an empty read for each transfer
that brings nothing: what the loops on a serial queue see. So a device that answers
messages is heard the same however its answers are cut into transfers.
-/

namespace SprdFlash.UsbFraming

open Message Port SpdIO Stuffing Framing UsbTransport Script

inductive Failure
  | raised (e : Exc)
  | transfer (e : UsbExc)

structure UsbSpd (τ : Type) where
  port : UsbPort τ
  checksum : Checksum

abbrev SpdSession (τ : Type) := EStateM Failure (UsbSpd τ)

variable {τ : Type}

def onPort {α : Type} (x : UsbSession τ α) : SpdSession τ α := fun io =>
  match x io.port with
  | .ok a port => .ok a { io with port }
  | .error e port => .error (.transfer e) { io with port }

def raising {α : Type} (x : Except Exc α) : SpdSession τ α := raisingAs .raised x

theorem onPort_ok {α : Type} {x : UsbSession τ α} {s : UsbSpd τ} {a : α} {t : UsbPort τ}
    (run : x s.port = .ok a t) : onPort x s = .ok a ⟨t, s.checksum⟩ := by
  rw [onPort, run]

theorem onPort_error {α : Type} {x : UsbSession τ α} {s : UsbSpd τ} {e : UsbExc} {t : UsbPort τ}
    (run : x s.port = .error e t) : onPort x s = .error (.transfer e) ⟨t, s.checksum⟩ := by
  rw [onPort, run]

namespace UsbSpd

variable [UsbDevice τ]

/-- The second loop of `_read_frame`. The clock allows so many further reads before the
deadline. -/
def readBody (body : Bytes) : ℕ → SpdSession τ Bytes
  | 0 => throw (.raised (.timeoutError "no response frame (closing flag not seen)"))
  | turns + 1 => do
    let b ← onPort (UsbPort.read 1)
    match b with
    | [] => readBody body turns
    | b :: _ =>
      if b = hdlcFlag then
        if body = [] then readBody [] turns else return hdlcUnescape body
      else readBody (body ++ [b]) turns

def seekFlag : ℕ → SpdSession τ Bytes
  | 0 => throw (.raised (.timeoutError "no response frame (opening flag not seen)"))
  | turns + 1 => do
    let b ← onPort (UsbPort.read 1)
    match b with
    | [] => seekFlag turns
    | b :: _ => if b = hdlcFlag then readBody [] turns else seekFlag turns

def readFrame (turns : ℕ) : SpdSession τ Bytes := seekFlag turns

/-- `_read_frame` by a clock that may allow each frame another number of reads. -/
def nextFrame (clock : UsbPort τ → ℕ) : SpdSession τ Bytes := fun io => readFrame (clock io.port) io

def setChecksum (mode : Checksum) : SpdSession τ Unit := fun io =>
  .ok () { io with checksum := mode }

def isTimeoutOrValue : Failure → Bool
  | .raised e => SpdIO.isTimeoutOrValue e
  | .transfer _ => false

def write (msg : Bytes) : SpdSession τ Unit := do
  let _ ← onPort (UsbPort.write msg)

theorem write_ok {msg : Bytes} {s : UsbSpd τ} {n : ℕ} {t : UsbPort τ}
    (wrote : UsbPort.write msg s.port = .ok n t) : write msg s = .ok () ⟨t, s.checksum⟩ :=
  bind_ok (onPort_ok wrote)

theorem write_error {msg : Bytes} {s : UsbSpd τ} {e : UsbExc} {t : UsbPort τ}
    (failed : UsbPort.write msg s.port = .error e t) :
    write msg s = .error (.transfer e) ⟨t, s.checksum⟩ :=
  bind_error (onPort_error failed)

abbrev usb (clock : UsbPort τ → ℕ) : SerialLike Failure (UsbSpd τ) where
  raised := .raised
  readFrame := nextFrame clock
  write := write
  checksum := UsbSpd.checksum
  setChecksum := setChecksum
  isTimeoutOrValue := isTimeoutOrValue
  note _ := pure ()

end UsbSpd

section Reading

variable [UsbDevice τ]

/-- The transfers of so many bulk IN requests, as a serial port would deliver them. -/
def incoming : ℕ → τ → List Event
  | 0, _ => []
  | k + 1, dev =>
    match UsbDevice.bulkIn dev 4096 with
    | (.ok [], dev) => .idle :: incoming k dev
    | (.ok (b :: chunk), dev) => .byte b :: (chunk.map .byte ++ incoming k dev)
    | (.error e, dev) => if isTimeout e then .idle :: incoming k dev else [.fault]

def transcript : ℕ → UsbPort τ → List Event
  | 0, _ => []
  | n + 1, s =>
    match UsbPort.read 1 s with
    | .ok [] t => .idle :: transcript n t
    | .ok (b :: _) t => .byte b :: transcript n t
    | .error _ _ => [.fault]

def reads : ℕ → UsbPort τ → UsbPort τ
  | 0, s => s
  | n + 1, s => reads n (final (UsbPort.read 1 s))

theorem read_turn (k : ℕ) (s : UsbPort τ) :
    (∃ b t j, UsbPort.read 1 s = .ok [b] t ∧ k ≤ j ∧
      s.rx.map Event.byte ++ incoming (k + 1) s.dev =
        .byte b :: (t.rx.map Event.byte ++ incoming j t.dev)) ∨
    (∃ t, UsbPort.read 1 s = .ok [] t ∧ s.rx.map Event.byte ++ incoming (k + 1) s.dev =
      .idle :: (t.rx.map Event.byte ++ incoming k t.dev)) ∨
    ∃ e t, UsbPort.read 1 s = .error e t ∧ isTimeout e = false ∧
      s.rx.map Event.byte ++ incoming (k + 1) s.dev = [.fault] := by
  obtain ⟨dev, rx, sent, received⟩ := s
  cases rx with
  | cons b rx => exact .inl ⟨b, ⟨dev, rx, sent, received⟩, k + 1, rfl, Nat.le_succ k, rfl⟩
  | nil =>
    simp only [UsbPort.read, UsbPort.devRead, incoming, if_true, List.map_nil, List.nil_append]
    cases bulk : UsbDevice.bulkIn dev 4096 with
    | mk result dev' =>
      cases result with
      | ok chunk =>
        cases chunk with
        | nil => exact .inr (.inl ⟨_, rfl, rfl⟩)
        | cons b chunk => exact .inl ⟨b, _, k, rfl, le_rfl, rfl⟩
      | error e =>
        cases timeout : isTimeout e with
        | true =>
          refine .inr (.inl ⟨⟨dev', [], sent, received ++ [.error e]⟩, ?_, ?_⟩) <;> simp [timeout]
        | false =>
          refine .inr (.inr ⟨e, ⟨dev', [], sent, received ++ [.error e]⟩, ?_, timeout, ?_⟩) <;>
            simp [timeout]

theorem transcript_byte {s t : UsbPort τ} {b : UInt8} (read : UsbPort.read 1 s = .ok [b] t)
    (n : ℕ) : transcript (n + 1) s = .byte b :: transcript n t ∧ reads (n + 1) s = reads n t := by
  rw [transcript, reads, read]
  exact ⟨rfl, rfl⟩

theorem transcript_idle {s t : UsbPort τ} (read : UsbPort.read 1 s = .ok [] t) (n : ℕ) :
    transcript (n + 1) s = .idle :: transcript n t ∧ reads (n + 1) s = reads n t := by
  rw [transcript, reads, read]
  exact ⟨rfl, rfl⟩

theorem transcript_fault {s t : UsbPort τ} {e : UsbExc} (read : UsbPort.read 1 s = .error e t)
    (n : ℕ) : transcript (n + 1) s = [.fault] := by
  rw [transcript, read]

/-- By induction on the reads: they bring the bytes of the transfers in order. -/
theorem transcript_transfers {n k : ℕ} (enough : n ≤ k) (s : UsbPort τ) :
    transcript n s = (s.rx.map Event.byte ++ incoming k s.dev).take n := by
  induction n generalizing k s with
  | zero => rfl
  | succ n ih =>
    obtain ⟨k, rfl⟩ := Nat.exists_eq_succ_of_ne_zero (by omega : k ≠ 0)
    rcases read_turn k s with ⟨b, t, j, read, later, view⟩ | ⟨t, read, view⟩ |
      ⟨e, t, read, -, view⟩
    · have first : n ≤ j := by omega
      rw [(transcript_byte read n).1, view, List.take_succ_cons, ih first]
    · have first : n ≤ k := by omega
      rw [(transcript_idle read n).1, view, List.take_succ_cons, ih first]
    · rw [transcript_fault read, view, List.take_succ_cons, List.take_nil]

theorem reads_sent (n : ℕ) (s : UsbPort τ) : (reads n s).sent = s.sent := by
  induction n generalizing s with
  | zero => rfl
  | succ n ih => rw [reads, ih, (read_recorded 1 s).2]

/-- A loop over the port against the loop on the queue of what the reads bring: the same
outcome after the same reads, or a transfer raised. -/
def Follows (turns : ℕ) (s : UsbSpd τ) (run : EStateM.Result Failure (UsbSpd τ) Bytes)
    (result : Except Exc Bytes × List Event) : Prop :=
  (∃ n, run = raising result.1 ⟨reads n s.port, s.checksum⟩ ∧
    transcript turns s.port = transcript n s.port ++ result.2 ∧
    result.2 = transcript (turns - n) (reads n s.port) ∧ (transcript n s.port).length = n) ∨
  ∃ e t, run = .error (.transfer e) t ∧ isTimeout e = false ∧
    result = (.error (.osError "read failed"), []) ∧ t.port.sent = s.port.sent

theorem Follows.here {turns : ℕ} {s : UsbSpd τ} (result : Except Exc Bytes) :
    Follows turns s (raising result s) (result, transcript turns s.port) :=
  .inl ⟨0, rfl, rfl, rfl, rfl⟩

theorem Follows.cons {turns : ℕ} {s : UsbSpd τ} {t : UsbPort τ} {bs : Bytes} {ev : Event}
    (read : UsbPort.read 1 s.port = .ok bs t)
    (turn : ∀ n, transcript (n + 1) s.port = ev :: transcript n t ∧
      reads (n + 1) s.port = reads n t)
    {run : EStateM.Result Failure (UsbSpd τ) Bytes} {result : Except Exc Bytes × List Event}
    (h : Follows turns ⟨t, s.checksum⟩ run result) : Follows (turns + 1) s run result := by
  rcases h with ⟨n, ended, split, rest, count⟩ | ⟨e, u, failed, hard, ended, sent⟩
  · refine .inl ⟨n + 1, ?_, ?_, ?_, ?_⟩
    · rw [ended, (turn n).2]
    · rw [(turn turns).1, (turn n).1, split, List.cons_append]
    · rw [rest, (turn n).2, Nat.add_sub_add_right]
    · rw [(turn n).1, List.length_cons, count]
  · have same := (read_recorded 1 s.port).2
    rw [read] at same
    exact .inr ⟨e, u, failed, hard, ended, sent.trans same⟩

theorem Follows.fault {turns : ℕ} {s : UsbSpd τ} {e : UsbExc} {t : UsbPort τ}
    (read : UsbPort.read 1 s.port = .error e t) (hard : isTimeout e = false) :
    Follows turns s (.error (.transfer e) ⟨t, s.checksum⟩)
      (.error (.osError "read failed"), []) := by
  have same := (read_recorded 1 s.port).2
  rw [read] at same
  exact .inr ⟨e, _, rfl, hard, rfl, same⟩

/-- By induction on the reads, one for each event. -/
theorem readBody_follows (turns : ℕ) (body : Bytes) (s : UsbSpd τ) :
    Follows turns s (UsbSpd.readBody body turns s)
      (readBody body (transcript turns s.port)) := by
  induction turns generalizing body s with
  | zero => exact Follows.here (s := s) (.error _)
  | succ turns ih =>
    rcases read_turn 0 s.port with ⟨b, t, -, read, -⟩ | ⟨t, read, -⟩ | ⟨e, t, read, hard, -⟩
    · have turn := transcript_byte read
      have ran : UsbSpd.readBody body (turns + 1) s =
          (if b = hdlcFlag then
            if body = [] then UsbSpd.readBody [] turns else pure (hdlcUnescape body)
          else UsbSpd.readBody (body ++ [b]) turns) ⟨t, s.checksum⟩ := by
        rw [UsbSpd.readBody, bind_ok (onPort_ok read)]
      rw [ran, (turn turns).1, readBody]
      by_cases isFlag : b = hdlcFlag
      · by_cases empty : body = []
        · rw [if_pos isFlag, if_pos isFlag, if_pos empty, if_pos empty]
          exact (ih [] ⟨t, s.checksum⟩).cons read turn
        · rw [if_pos isFlag, if_pos isFlag, if_neg empty, if_neg empty]
          exact Follows.cons read turn (.here (.ok _))
      · rw [if_neg isFlag, if_neg isFlag]
        exact (ih _ ⟨t, s.checksum⟩).cons read turn
    · have turn := transcript_idle read
      have ran : UsbSpd.readBody body (turns + 1) s =
        UsbSpd.readBody body turns ⟨t, s.checksum⟩ := by
        rw [UsbSpd.readBody, bind_ok (onPort_ok read)]
      rw [ran, (turn turns).1, readBody]
      exact (ih body ⟨t, s.checksum⟩).cons read turn
    · rw [UsbSpd.readBody, bind_error (onPort_error read), transcript_fault read, readBody]
      exact .fault read hard

theorem seekFlag_follows (turns : ℕ) (s : UsbSpd τ) :
    Follows turns s (UsbSpd.seekFlag turns s) (seekFlag (transcript turns s.port)) := by
  induction turns generalizing s with
  | zero => exact Follows.here (s := s) (.error _)
  | succ turns ih =>
    rcases read_turn 0 s.port with ⟨b, t, -, read, -⟩ | ⟨t, read, -⟩ | ⟨e, t, read, hard, -⟩
    · have turn := transcript_byte read
      have ran : UsbSpd.seekFlag (turns + 1) s =
          (if b = hdlcFlag then UsbSpd.readBody [] turns else UsbSpd.seekFlag turns)
            ⟨t, s.checksum⟩ := by
        rw [UsbSpd.seekFlag, bind_ok (onPort_ok read)]
      rw [ran, (turn turns).1, seekFlag]
      by_cases isFlag : b = hdlcFlag
      · rw [if_pos isFlag, if_pos isFlag]
        exact (readBody_follows turns [] ⟨t, s.checksum⟩).cons read turn
      · rw [if_neg isFlag, if_neg isFlag]
        exact (ih ⟨t, s.checksum⟩).cons read turn
    · have turn := transcript_idle read
      have ran : UsbSpd.seekFlag (turns + 1) s = UsbSpd.seekFlag turns ⟨t, s.checksum⟩ := by
        rw [UsbSpd.seekFlag, bind_ok (onPort_ok read)]
      rw [ran, (turn turns).1, seekFlag]
      exact (ih ⟨t, s.checksum⟩).cons read turn
    · rw [UsbSpd.seekFlag, bind_error (onPort_error read), transcript_fault read, seekFlag]
      exact .fault read hard

/-- `_read_frame` over the USB port is `_read_frame` on a serial queue that holds the kept
bytes and then the transfers, up to the deadline: the same body or timeout, and the events
not read there are what the next reads of the port bring. -/
theorem readFrame_serial (turns : ℕ) (s : UsbSpd τ) :
    let events := (s.port.rx.map Event.byte ++ incoming turns s.port.dev).take turns
    let result := seekFlag events
    (∃ n, UsbSpd.readFrame turns s = raising result.1 ⟨reads n s.port, s.checksum⟩ ∧
      events = transcript n s.port ++ result.2 ∧
      result.2 = transcript (turns - n) (reads n s.port)) ∨
    ∃ e t, UsbSpd.readFrame turns s = .error (.transfer e) t ∧ isTimeout e = false ∧
      result = (.error (.osError "read failed"), []) := by
  have follows := seekFlag_follows turns s
  rw [transcript_transfers le_rfl] at follows
  rcases follows with ⟨n, run, split, rest, -⟩ | ⟨e, t, run, hard, ended, -⟩
  · rw [transcript_transfers le_rfl] at split
    exact .inl ⟨n, run, split, rest⟩
  · exact .inr ⟨e, t, run, hard, ended⟩

end Reading

section Device

inductive Grant
  | part (n : ℕ)
  | silent
  deriving DecidableEq, Repr

/-- What a device makes of one bulk OUT transfer. -/
class Agent (α : Type) where
  hear : α → Bytes → α × Bytes

/-- An agent behind two bulk endpoints. The schedule says how its answers are cut into
transfers; behind it a request takes all it can. -/
structure Gadget (α : Type) where
  agent : α
  outbox : Bytes
  schedule : List Grant

def timedOut : UsbExc := ⟨true, "[Errno 110] Operation timed out"⟩

variable {α : Type}

instance [Agent α] : UsbDevice (Gadget α) where
  bulkOut g piece :=
    let (agent, answer) := Agent.hear g.agent piece
    (.ok (), { g with agent, outbox := g.outbox ++ answer })
  bulkIn g n :=
    match g.schedule with
    | [] =>
      if g.outbox = [] then (.error timedOut, g)
      else (.ok (g.outbox.take n), { g with outbox := g.outbox.drop n })
    | .part m :: schedule =>
      (.ok (g.outbox.take (min m n)), ⟨g.agent, g.outbox.drop (min m n), schedule⟩)
    | .silent :: schedule => (.error timedOut, { g with schedule })

def unread (s : UsbPort (Gadget α)) : Bytes := s.rx ++ s.dev.outbox

/-- Reads that may still bring nothing or a byte before everything is read. -/
def remaining (s : UsbPort (Gadget α)) : ℕ := s.dev.schedule.length + (unread s).length

variable [Agent α]

theorem writeLoop_hears (data : Bytes) (n : ℕ) (s : UsbPort (Gadget α)) :
    ∃ m t, UsbPort.writeLoop data n s = .ok m t ∧ t.rx = s.rx ∧
      t.dev = ⟨(Mealy.run Agent.hear s.dev.agent (Pieces.pieces maxEpChunk (data.drop n))).1,
        s.dev.outbox ++ (Mealy.run Agent.hear s.dev.agent
          (Pieces.pieces maxEpChunk (data.drop n))).2,
        s.dev.schedule⟩ := by
  fun_induction UsbPort.writeLoop (τ := Gadget α) data n generalizing s with
  | case1 n more piece ih =>
    have some : data.drop n ≠ [] := by
      rw [ne_eq, List.drop_eq_nil_iff]
      omega
    have next : data.drop (n + piece.length) = (data.drop n).drop maxEpChunk :=
      Pieces.drop_piece maxEpChunk data n
    have went : UsbPort.devWrite piece s = .ok ()
        ⟨⟨(Agent.hear s.dev.agent piece).1, s.dev.outbox ++ (Agent.hear s.dev.agent piece).2,
          s.dev.schedule⟩, s.rx, s.sent ++ [piece], s.received⟩ := rfl
    obtain ⟨m, t, rest, kept, dev⟩ := ih _
    refine ⟨m, t, (bind_ok went).trans rest, kept, dev.trans ?_⟩
    rw [Pieces.pieces_of_ne_nil maxEpChunk some, ← next, Mealy.run, List.append_assoc]
  | case2 n done =>
    refine ⟨n, s, rfl, rfl, ?_⟩
    rw [List.drop_eq_nil_of_le (by omega), Pieces.pieces, Mealy.run, List.append_nil]

theorem transfer_gadget (g : Gadget α) :
    (∃ chunk g', UsbDevice.bulkIn g 4096 = (.ok chunk, g') ∧ g.outbox = chunk ++ g'.outbox ∧
      g'.agent = g.agent ∧ g'.schedule.length ≤ g.schedule.length ∧
      (chunk = [] → g'.schedule.length < g.schedule.length)) ∨
    ∃ g', UsbDevice.bulkIn g 4096 = (.error timedOut, g') ∧ g'.outbox = g.outbox ∧
      g'.agent = g.agent ∧ g'.schedule.length ≤ g.schedule.length ∧
      (g.schedule.length + g.outbox.length ≠ 0 → g'.schedule.length < g.schedule.length) := by
  obtain ⟨agent, outbox, schedule⟩ := g
  cases schedule with
  | nil =>
    by_cases empty : outbox = []
    · refine .inr ⟨⟨agent, outbox, []⟩, ?_, rfl, rfl, le_rfl, ?_⟩
      · simp only [UsbDevice.bulkIn, if_pos empty]
      · simp [empty]
    · refine .inl ⟨outbox.take 4096, ⟨agent, outbox.drop 4096, []⟩, ?_, ?_, rfl, le_rfl, ?_⟩
      · simp only [UsbDevice.bulkIn, if_neg empty]
      · exact (List.take_append_drop _ _).symm
      · simp [empty]
  | cons grant schedule =>
    cases grant with
    | part m =>
      refine .inl ⟨outbox.take (min m 4096), ⟨agent, outbox.drop (min m 4096), schedule⟩, rfl,
        (List.take_append_drop _ _).symm, rfl, ?_, fun _ => ?_⟩ <;> simp
    | silent =>
      refine .inr ⟨⟨agent, outbox, schedule⟩, rfl, rfl, rfl, ?_, fun _ => ?_⟩ <;> simp

theorem read_gadget (s : UsbPort (Gadget α)) :
    ∃ bs t, UsbPort.read 1 s = .ok bs t ∧ unread s = bs ++ unread t ∧
      t.dev.agent = s.dev.agent ∧ t.dev.schedule.length ≤ s.dev.schedule.length ∧
      remaining t ≤ remaining s - 1 := by
  obtain ⟨g, rx, sent, received⟩ := s
  cases rx with
  | cons b rx =>
    refine ⟨[b], ⟨g, rx, sent, received⟩, rfl, rfl, rfl, le_rfl, ?_⟩
    simp only [remaining, unread, List.cons_append, List.length_cons]
    omega
  | nil =>
    rcases transfer_gadget g with ⟨chunk, g', bulk, split, agent, fewer, none⟩ |
      ⟨g', bulk, same, agent, fewer, more⟩
    · refine ⟨chunk.take 1, ⟨g', chunk.drop 1, sent, received ++ [.ok chunk]⟩, ?_, ?_, agent,
        fewer, ?_⟩
      · rw [UsbPort.read, if_pos rfl, UsbPort.devRead, bulk]
        rfl
      · rw [unread, unread, List.nil_append, split, ← List.append_assoc, List.take_append_drop]
      · cases chunk with
        | nil =>
          have used := none rfl
          simp only [remaining, unread, split, List.drop_nil, List.nil_append]
          omega
        | cons b chunk =>
          simp only [remaining, unread, split, List.drop_succ_cons, List.drop_zero,
            List.nil_append, List.cons_append, List.length_cons]
          omega
    · refine ⟨[], ⟨g', [], sent, received ++ [.error timedOut]⟩, ?_, ?_, agent, fewer, ?_⟩
      · rw [UsbPort.read, if_pos rfl, UsbPort.devRead, bulk]
        simp [timedOut, isTimeout]
      · simp only [unread, same, List.nil_append]
      · simp only [remaining, unread, same, List.nil_append]
        by_cases some : g.schedule.length + g.outbox.length = 0
        · omega
        · have used := more some
          omega

/-- By induction on the reads: they bring a first part of what is unread, and all of it
if they are enough. -/
theorem reads_gadget (n : ℕ) (s : UsbPort (Gadget α)) :
    unread s = received (transcript n s) ++ unread (reads n s) ∧ Live (transcript n s) ∧
      (reads n s).dev.agent = s.dev.agent ∧
      (reads n s).dev.schedule.length ≤ s.dev.schedule.length ∧
      remaining (reads n s) ≤ remaining s - n := by
  induction n generalizing s with
  | zero => exact ⟨rfl, by simp [transcript, Live], rfl, le_rfl, le_rfl⟩
  | succ n ih =>
    obtain ⟨bs, t, run, split, agent, fewer, less⟩ := read_gadget s
    obtain ⟨splits, live, agents, fewers, lesss⟩ := ih t
    have later : remaining (reads n t) ≤ remaining s - (n + 1) := by omega
    rcases read_turn 0 s with ⟨b, u, -, read, -⟩ | ⟨u, read, -⟩ | ⟨e, u, read, -⟩
    · rw [read] at run
      cases run
      obtain ⟨seen, reached⟩ := transcript_byte read n
      rw [seen, reached]
      refine ⟨?_, live.cons (by simp), agents.trans agent, fewers.trans fewer, later⟩
      rw [received_byte, split, splits]
      rfl
    · rw [read] at run
      cases run
      obtain ⟨seen, reached⟩ := transcript_idle read n
      rw [seen, reached]
      refine ⟨?_, live.cons (by simp), agents.trans agent, fewers.trans fewer, later⟩
      rw [received_idle, split, splits]
      rfl
    · rw [read] at run
      cases run

theorem readFrame_gadget {turns : ℕ} {s : UsbSpd (Gadget α)} (enough : remaining s.port ≤ turns)
    {m : Built} {rest : Bytes} (wire : unread s.port = m.frame ++ rest) :
    ∃ t, UsbSpd.readFrame turns s = .ok m.body t ∧ unread t.port = rest ∧
      t.port.dev.agent = s.port.dev.agent ∧
      t.port.dev.schedule.length ≤ s.port.dev.schedule.length ∧ t.checksum = s.checksum := by
  obtain ⟨split, live, -, -, none⟩ := reads_gadget turns s.port
  have all : unread (reads turns s.port) = [] := by
    rw [remaining] at none
    exact List.eq_nil_of_length_eq_zero (by omega)
  rw [all, List.append_nil, wire, m.frame_eq] at split
  have found := next_enclose hdlc (List.not_mem_nil (a := hdlcFlag)) m.clean 0 rest
  simp only [List.replicate_zero, List.nil_append] at found
  have agrees := seekFlag_agrees live
  rw [← split, found] at agrees
  obtain ⟨after, result, left, -⟩ := agrees
  have follows := seekFlag_follows turns s
  rw [result] at follows
  rcases follows with ⟨n, run, seen, -⟩ | ⟨e, t, -, -, failed, -⟩
  · obtain ⟨splits, -, agent, fewer, -⟩ := reads_gadget n s.port
    refine ⟨⟨reads n s.port, s.checksum⟩, ?_, ?_, agent, fewer, rfl⟩
    · rw [← m.unescape_content]
      exact run
    · rw [seen, received_append, left, ← m.frame_eq, ← wire, splits] at split
      exact (List.append_cancel_left split)
  · cases failed

theorem readFrame_nothing (turns : ℕ) {s : UsbSpd (Gadget α)} (quiet : unread s.port = []) :
    ∃ msg t, UsbSpd.readFrame turns s = .error (.raised (.timeoutError msg)) t ∧
      unread t.port = [] ∧ t.port.dev.agent = s.port.dev.agent ∧
      t.port.dev.schedule.length ≤ s.port.dev.schedule.length ∧ t.checksum = s.checksum := by
  obtain ⟨split, live, -⟩ := reads_gadget turns s.port
  rw [quiet] at split
  have agrees := seekFlag_agrees live
  rw [(List.append_eq_nil_iff.mp split.symm).1] at agrees
  obtain ⟨msg, result⟩ := agrees
  have follows := seekFlag_follows turns s
  rw [result] at follows
  rcases follows with ⟨n, run, -⟩ | ⟨e, t, -, -, failed, -⟩
  · obtain ⟨splits, -, agent, fewer, -⟩ := reads_gadget n s.port
    rw [quiet] at splits
    exact ⟨msg, ⟨reads n s.port, s.checksum⟩, run, (List.append_eq_nil_iff.mp splits.symm).2, agent,
      fewer, rfl⟩
  · cases failed

end Device

end SprdFlash.UsbFraming
