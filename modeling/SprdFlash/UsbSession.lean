import SprdFlash.UsbFraming
import SprdFlash.UsbLifecycle
import SprdFlash.Handshake
import SprdFlash.Flasher

/-!
A session over the USB port: the autobaud loop until the loader is awake, then messages
and their answers. The loader misses some flags, greets the first one it hears with its
version, and from then on is a service behind the receiver of the framing.
-/

namespace SprdFlash.UsbFraming

open Message Port Stuffing Framing UsbTransport Script

namespace UsbSpd

variable {τ : Type} [UsbDevice τ]

def connectBootrom {κ : Type} [UsbControl τ] (lib : Libusb κ τ) (clock : UsbPort τ → ℕ) :
    Except Failure (UsbSpd τ × Bytes) :=
  match openUsbPort lib with
  | .error e => .error (.raised e)
  | .ok port =>
    match (usb clock).greet ⟨.fresh port.dev, .sprd⟩ with
    | .ok version io => .ok (io, version)
    | .error e _ => .error e

def conversation (clock : UsbPort τ → ℕ) : List (ℕ × Bytes) → SpdSession τ (List (ℕ × Bytes))
  | [] => pure []
  | (cmd, data) :: rest => do
    (usb clock).send cmd data
    let first ← (usb clock).recv
    let others ← conversation clock rest
    return first :: others

end UsbSpd

/-- A service over messages: it greets, and answers each body it is given. -/
class Server (β : Type) where
  version : β → { m : Built // m.cmd = bslRepVer }
  serve : β → Bytes → β × Built

/-- The service behind the receiver of the framing. As long as it is not awake it counts the
flags it still misses. -/
structure Loader (β : Type) where
  misses : Option ℕ
  reader : Reader UInt8
  server : β

def Loader.ready {β : Type} (server : β) : Loader β := ⟨none, .seeking, server⟩

variable {β : Type} [Server β]

def Loader.feed (a : Loader β) (b : UInt8) : Loader β × Bytes :=
  match a.misses with
  | some misses =>
    if b ≠ hdlcFlag then (a, [])
    else if misses = 0 then (.ready a.server, (Server.version a.server).val.frame)
    else ({ a with misses := some (misses - 1) }, [])
  | none =>
    match step hdlc a.reader b with
    | (reader, none) => ({ a with reader }, [])
    | (reader, some w) =>
      let (server, reply) := Server.serve a.server (hdlcUnescape w)
      (⟨none, reader, server⟩, reply.frame)

/-- It does not see where a transfer ends. -/
instance : Agent (Loader β) where
  hear := Mealy.run Loader.feed

/-- What the service is asked and answers, without any line between. -/
def exchange (server : β) (body : Bytes) : β × List (ℕ × Bytes) :=
  let (server, reply) := Server.serve server body
  (server, [(reply.cmd, reply.data)])

section Conversation

theorem write_fed (data : Bytes) (s : UsbPort (Gadget (Loader β))) :
    ∃ n t, UsbPort.write data s = .ok n t ∧ t.rx = s.rx ∧
      t.dev = ⟨(Mealy.run Loader.feed s.dev.agent data).1,
        s.dev.outbox ++ (Mealy.run Loader.feed s.dev.agent data).2, s.dev.schedule⟩ := by
  have heard := writeLoop_hears data 0 s
  have flat : Mealy.run Agent.hear s.dev.agent (Pieces.pieces maxEpChunk data) =
      Mealy.run Loader.feed s.dev.agent data :=
    (Mealy.run_flatten Loader.feed _ _).trans (by rw [Pieces.pieces_flatten])
  rw [List.drop_zero, flat] at heard
  exact heard

theorem run_enclose (server : β) {w : Bytes} (clean : Clean hdlc w) :
    Mealy.run Loader.feed (Loader.ready server) (enclose hdlc w) =
      (.ready (Server.serve server (hdlcUnescape w)).1,
        (Server.serve server (hdlcUnescape w)).2.frame) := by
  have opened : Loader.feed (Loader.ready server) hdlc.flag = (⟨none, .inside [], server⟩, []) := by
    simp only [Loader.ready, Loader.feed, step, if_true]
  have inside : Mealy.run Loader.feed (⟨none, .inside [], server⟩ : Loader β) w =
      (⟨none, .inside w, server⟩, []) := by
    refine @Mealy.run_gathers _ _ _ Loader.feed
      (fun body => (⟨none, .inside body, server⟩ : Loader β)) [] w ?_
    intro first b later split
    have plain : b ≠ hdlc.flag := by
      rintro rfl
      exact clean.noFlag (by simp [split])
    simp only [Loader.feed, step, if_neg plain, List.nil_append]
  have closed : Loader.feed (⟨none, .inside w, server⟩ : Loader β) hdlc.flag =
      (.ready (Server.serve server (hdlcUnescape w)).1,
        (Server.serve server (hdlcUnescape w)).2.frame) := by
    simp only [Loader.ready, Loader.feed, step, if_true, if_neg clean.nonempty]
  rw [enclose, List.cons_append, Mealy.run, opened, Mealy.run_append, inside, Mealy.run_singleton,
    closed]
  rfl

omit [Server β] in
theorem send_ok {τ : Type} [UsbDevice τ] {clock : UsbPort τ → ℕ} {cmd : ℕ} {data msg : Bytes}
    {s : UsbSpd τ} (built : buildMessage cmd data s.checksum = .ok msg) {n : ℕ} {t : UsbPort τ}
    (wrote : UsbPort.write msg s.port = .ok n t) :
    (UsbSpd.usb clock).send cmd data s = .ok () ⟨t, s.checksum⟩ := by
  have eq : (UsbSpd.usb clock).send cmd data s =
      (raising (buildMessage cmd data s.checksum) >>= UsbSpd.write) s := rfl
  rw [eq, built]
  exact UsbSpd.write_ok wrote

/-- A message is answered once all of its pieces are written. -/
theorem send_served {s : UsbSpd (Gadget (Loader β))} {server : β}
    (ready : s.port.dev.agent = .ready server) {cmd : ℕ} {data : Bytes}
    (framable : cmd < 65536 ∧ data.length < 65536) :
    ∃ t, (UsbSpd.usb clock).send cmd data s = .ok () t ∧
      t.port.dev.agent = .ready (Server.serve server (messageBody cmd data s.checksum)).1 ∧
      unread t.port = unread s.port ++
        (Server.serve server (messageBody cmd data s.checksum)).2.frame ∧
      t.port.dev.schedule = s.port.dev.schedule ∧ t.checksum = s.checksum := by
  have built := buildMessage_ok framable.1 framable.2 s.checksum
  have fed := run_enclose server (clean_escape_messageBody cmd data s.checksum)
  rw [hdlcUnescape_escape] at fed
  obtain ⟨n, t, wrote, kept, dev⟩ := write_fed (wireMessage cmd data s.checksum) s.port
  rw [wireMessage, ready, fed] at dev
  refine ⟨⟨t, s.checksum⟩, send_ok built wrote, by rw [dev], ?_, by rw [dev], rfl⟩
  rw [unread, kept, dev]
  exact (List.append_assoc _ _ _).symm

omit [Server β] in
theorem recv_gadget {α : Type} [Agent α] {clock : UsbPort (Gadget α) → ℕ} {s : UsbSpd (Gadget α)}
    (enough : remaining s.port ≤ clock s.port) {m : Built} (wire : unread s.port = m.frame) :
    ∃ t, (UsbSpd.usb clock).recv s = .ok (m.cmd, m.data) t ∧ unread t.port = [] ∧
      t.port.dev.agent = s.port.dev.agent ∧
      t.port.dev.schedule.length ≤ s.port.dev.schedule.length ∧ t.checksum = s.checksum := by
  rw [← List.append_nil m.frame] at wire
  obtain ⟨t, read, rest⟩ := readFrame_gadget enough wire
  refine ⟨t, ?_, rest⟩
  have next : UsbSpd.nextFrame clock s = .ok m.body t := read
  rw [FrameSource.recv, bind_ok next, m.parse_body]
  rfl

/-- By induction on the messages: the service behind the link is the service itself. -/
theorem conversation_served (clock : UsbPort (Gadget (Loader β)) → ℕ) (requests : List (ℕ × Bytes))
    {s : UsbSpd (Gadget (Loader β))} {server : β} (ready : s.port.dev.agent = .ready server)
    (quiet : unread s.port = []) (framable : ∀ r ∈ requests, r.1 < 65536 ∧ r.2.length < 65536)
    (timely : ∀ (server : β) body port, s.port.dev.schedule.length +
      (Server.serve server body).2.frame.length ≤ clock port) :
    let ended := Mealy.run exchange server (requests.map fun r => messageBody r.1 r.2 s.checksum)
    ∃ t, UsbSpd.conversation clock requests s = .ok ended.2 t ∧
      t.port.dev.agent = .ready ended.1 ∧ unread t.port = [] := by
  induction requests generalizing s server with
  | nil => exact ⟨s, rfl, ready, quiet⟩
  | cons r rest ih =>
    obtain ⟨cmd, data⟩ := r
    rw [List.forall_mem_cons] at framable
    obtain ⟨u, sent, asked, owed, schedule, mode⟩ := send_served ready framable.1
    rw [quiet, List.nil_append] at owed
    have enough : remaining u.port ≤ clock u.port := by
      rw [remaining, owed, schedule]
      exact timely _ _ _
    obtain ⟨v, heard, none, agent, fewer, same⟩ := recv_gadget enough owed
    have fewer : v.port.dev.schedule.length ≤ s.port.dev.schedule.length := by
      rwa [schedule] at fewer
    obtain ⟨t, others, left⟩ := ih (agent.trans asked) none framable.2 fun server body port =>
      (Nat.add_le_add_right fewer _).trans (timely server body port)
    rw [same, mode] at others left
    refine ⟨t, ?_, left⟩
    rw [UsbSpd.conversation, bind_ok sent, bind_ok heard, bind_ok others]
    rfl

end Conversation

section Waking

theorem flag_written {s : UsbSpd (Gadget (Loader β))} {misses : ℕ} {reader : Reader UInt8}
    {server : β} (asleep : s.port.dev.agent = ⟨some misses, reader, server⟩)
    (quiet : unread s.port = []) :
    ∃ t, UsbSpd.write [hdlcFlag] s = .ok () ⟨t, s.checksum⟩ ∧
      t.dev.schedule = s.port.dev.schedule ∧
      ((misses = 0 ∧ t.dev.agent = .ready server ∧
          unread t = (Server.version server).val.frame) ∨
        ∃ fewer, misses = fewer + 1 ∧ t.dev.agent = ⟨some fewer, reader, server⟩ ∧
          unread t = []) := by
  obtain ⟨n, t, wrote, kept, dev⟩ := write_fed [hdlcFlag] s.port
  rw [asleep, Mealy.run_singleton] at dev
  obtain ⟨none, empty⟩ := List.append_eq_nil_iff.mp quiet
  refine ⟨t, UsbSpd.write_ok wrote, by rw [dev], ?_⟩
  cases misses with
  | zero =>
    have fed : Loader.feed (⟨some 0, reader, server⟩ : Loader β) hdlcFlag =
        (.ready server, (Server.version server).val.frame) := by simp [Loader.feed]
    rw [fed, empty, List.nil_append] at dev
    refine .inl ⟨rfl, by rw [dev], ?_⟩
    rw [unread, kept, none, dev, List.nil_append]
  | succ fewer =>
    have fed : Loader.feed (⟨some (fewer + 1), reader, server⟩ : Loader β) hdlcFlag =
        (⟨some fewer, reader, server⟩, []) := by simp [Loader.feed]
    rw [fed, empty, List.nil_append] at dev
    refine .inr ⟨fewer, rfl, by rw [dev], ?_⟩
    rw [unread, kept, none, dev, List.nil_append]

def tuned (old : Checksum) (greeting : Built) : Checksum := (detectChecksum greeting.body).getD old

section Attempts

variable (clock : UsbPort (Gadget (Loader β)) → ℕ) (total attempts : ℕ)
    {s : UsbSpd (Gadget (Loader β))}
variable {server : β} (quiet : unread s.port = [])
include quiet

theorem autobaudFrom_woken (asleep : s.port.dev.agent = ⟨some 0, .seeking, server⟩)
    (timely : ∀ port, s.port.dev.schedule.length +
      (Server.version server).val.frame.length ≤ clock port) :
    ∃ t, t.port.dev.schedule.length ≤ s.port.dev.schedule.length ∧ unread t.port = [] ∧
      t.port.dev.agent = .ready server ∧ t.checksum = tuned s.checksum (Server.version server).val ∧
      (UsbSpd.usb clock).autobaudFrom total (attempts + 1) s =
        .ok (Server.version server).val.data t := by
  obtain ⟨u, wrote, schedule, ⟨-, awake, owed⟩ | ⟨fewer, never, -⟩⟩ := flag_written asleep quiet
  · have enough : remaining u ≤ clock u := by rw [remaining, owed, schedule]; exact timely u
    rw [← List.append_nil (Built.frame _)] at owed
    obtain ⟨v, read, rest, agent, less, mode⟩ := readFrame_gadget (s := ⟨u, s.checksum⟩) enough owed
    have next : UsbSpd.nextFrame clock ⟨u, s.checksum⟩ = .ok _ v := read
    rw [schedule] at less
    refine ⟨⟨v.port, tuned s.checksum (Server.version server).val⟩, less, rest,
      agent.trans awake, rfl, ?_⟩
    rw [SerialLike.autobaudFrom_step, bind_ok wrote, bind_ok (SerialLike.tryFrame_ok _ next)]
    simp only [SerialLike.settle, (Server.version server).val.parse_body,
      (Server.version server).property, if_true]
    rw [tuned, ← mode]
    cases detectChecksum (Server.version server).val.body <;> rfl
  · cases never

theorem autobaudFrom_missed {fewer : ℕ}
    (asleep : s.port.dev.agent = ⟨some (fewer + 1), .seeking, server⟩) :
    ∃ v, v.port.dev.schedule.length ≤ s.port.dev.schedule.length ∧ unread v.port = [] ∧
      v.port.dev.agent = ⟨some fewer, .seeking, server⟩ ∧ v.checksum = s.checksum ∧
      (UsbSpd.usb clock).autobaudFrom total (attempts + 1) s =
        (UsbSpd.usb clock).autobaudFrom total attempts v := by
  obtain ⟨u, wrote, schedule, ⟨never, -⟩ | ⟨left, more, still, none⟩⟩ := flag_written asleep quiet
  · cases never
  · cases more
    obtain ⟨msg, v, timeout, rest, agent, less, mode⟩ :=
      readFrame_nothing (clock u) (s := ⟨u, s.checksum⟩) none
    have missed : UsbSpd.nextFrame clock ⟨u, s.checksum⟩ = .error _ v := timeout
    rw [schedule] at less
    refine ⟨v, less, rest, agent.trans still, mode, ?_⟩
    rw [SerialLike.autobaudFrom_step, bind_ok wrote,
      bind_ok (SerialLike.tryFrame_caught _ missed rfl)]
    rfl

end Attempts

/-- By induction on the attempts: the loop returns the version of a loader that hears one of
its flags, in the mode of the greeting, and gives up on any other. -/
theorem autobaudFrom_wakes (clock : UsbPort (Gadget (Loader β)) → ℕ) (total attempts : ℕ)
    {s : UsbSpd (Gadget (Loader β))} {misses : ℕ} {server : β}
    (asleep : s.port.dev.agent = ⟨some misses, .seeking, server⟩) (quiet : unread s.port = [])
    (timely : ∀ port, s.port.dev.schedule.length +
      (Server.version server).val.frame.length ≤ clock port) :
    ∃ t, t.port.dev.schedule.length ≤ s.port.dev.schedule.length ∧ unread t.port = [] ∧
      ((misses < attempts ∧ t.port.dev.agent = .ready server ∧
          t.checksum = tuned s.checksum (Server.version server).val ∧
          (UsbSpd.usb clock).autobaudFrom total attempts s =
            .ok (Server.version server).val.data t) ∨
        (attempts ≤ misses ∧ t.port.dev.agent = ⟨some (misses - attempts), .seeking, server⟩ ∧
          t.checksum = s.checksum ∧ (UsbSpd.usb clock).autobaudFrom total attempts s =
            .error (.raised (.protocolError s!"no VER response after {total} autobaud attempts"))
              t)) := by
  induction attempts generalizing s misses with
  | zero => exact ⟨s, le_rfl, quiet, .inr ⟨Nat.zero_le _, asleep, rfl, rfl⟩⟩
  | succ attempts ih =>
    cases misses with
    | zero =>
      obtain ⟨t, less, empty, ready, tuning, run⟩ :=
        autobaudFrom_woken clock total attempts quiet asleep timely
      exact ⟨t, less, empty, .inl ⟨Nat.succ_pos _, ready, tuning, run⟩⟩
    | succ fewer =>
      obtain ⟨v, less, rest, still, mode, again⟩ :=
        autobaudFrom_missed clock total attempts quiet asleep
      obtain ⟨t, later, empty, ended⟩ := ih still rest
        fun port => (Nat.add_le_add_right less _).trans (timely port)
      rw [again]
      refine ⟨t, later.trans less, empty, ?_⟩
      rcases ended with ⟨few, ready, tuning, run⟩ | ⟨many, deaf, kept, run⟩
      · refine .inl ⟨by omega, ready, ?_, run⟩
        rw [tuning, mode]
      · refine .inr ⟨by omega, ?_, kept.trans mode, run⟩
        rw [deaf, Nat.add_sub_add_right]

/-- A whole session, however the answers are cut into transfers and whatever timeouts stand
between them. If one of the flags wakes the loader, the host has its version and uses the
mode of its greeting, and every message gets the answer of the service to its body in that
mode; if none does, `autobaud` raises and the service was asked nothing. -/
theorem session_served (clock : UsbPort (Gadget (Loader β)) → ℕ) (attempts : ℕ)
    (requests : List (ℕ × Bytes)) (s : UsbSpd (Gadget (Loader β))) (misses : ℕ) (server : β)
    (asleep : s.port.dev.agent = ⟨some misses, .seeking, server⟩) (quiet : unread s.port = [])
    (framable : ∀ r ∈ requests, r.1 < 65536 ∧ r.2.length < 65536)
    (greeted : ∀ port, s.port.dev.schedule.length +
      (Server.version server).val.frame.length ≤ clock port)
    (answered : ∀ (server : β) body port, s.port.dev.schedule.length +
      (Server.serve server body).2.frame.length ≤ clock port) :
    let mode := tuned s.checksum (Server.version server).val
    let ended := Mealy.run exchange server (requests.map fun r => messageBody r.1 r.2 mode)
    (misses < attempts → ∃ t u,
      (UsbSpd.usb clock).autobaud attempts s = .ok (Server.version server).val.data t ∧
      t.checksum = mode ∧ UsbSpd.conversation clock requests t = .ok ended.2 u ∧
      u.port.dev.agent = .ready ended.1 ∧ unread u.port = []) ∧
    (attempts ≤ misses → ∃ msg t,
      (UsbSpd.usb clock).autobaud attempts s = .error (.raised (.protocolError msg)) t ∧
      t.port.dev.agent.server = server) := by
  obtain ⟨t, fewer, rest, ⟨few, ready, tuning, run⟩ | ⟨many, deaf, -, run⟩⟩ :=
    autobaudFrom_wakes clock attempts attempts asleep quiet greeted
  · refine ⟨fun _ => ?_, fun many => absurd few (Nat.not_lt.mpr many)⟩
    obtain ⟨u, served, left⟩ := conversation_served clock requests ready rest framable
      fun server body port => (Nat.add_le_add_right fewer _).trans (answered server body port)
    rw [tuning] at served left
    exact ⟨t, u, run, tuning, served, left⟩
  · refine ⟨fun few => absurd few (Nat.not_lt.mpr many), fun _ => ⟨_, t, run, ?_⟩⟩
    rw [deaf]

end Waking

section Connecting

theorem command_answered (expect : ℕ) (what : String) {clock : UsbPort (Gadget (Loader β)) → ℕ}
    {cmd : ℕ} {data : Bytes} {s : UsbSpd (Gadget (Loader β))} {server : β}
    (ready : s.port.dev.agent = .ready server)
    (quiet : unread s.port = []) (framable : cmd < 65536 ∧ data.length < 65536)
    (timely : ∀ port, s.port.dev.schedule.length +
      (Server.serve server (messageBody cmd data s.checksum)).2.frame.length ≤ clock port) :
    let reply := (Server.serve server (messageBody cmd data s.checksum)).2
    ∃ t, unread t.port = [] ∧ t.checksum = s.checksum ∧
      (UsbSpd.usb clock).command cmd data expect what s =
        if reply.cmd = expect then .ok reply.data t else .error (.raised (.protocolError
          s!"{what}: expected {repName expect}, got {repName reply.cmd}")) t := by
  obtain ⟨u, sent, asked, owed, schedule, mode⟩ := send_served ready framable
  rw [quiet, List.nil_append] at owed
  have enough : remaining u.port ≤ clock u.port := by
    rw [remaining, owed, schedule]
    exact timely u.port
  obtain ⟨v, heard, none, -, -, same⟩ := recv_gadget enough owed
  refine ⟨v, none, same.trans mode, ?_⟩
  rw [SerialLike.command, bind_ok sent, bind_ok heard]
  by_cases expected : (Server.serve server (messageBody cmd data s.checksum)).2.cmd = expect
  · simp only [expected, ne_eq, not_true_eq_false, if_false, if_true]
    rfl
  · simp only [expected, ne_eq, not_false_eq_true, if_false, if_true]
    rfl

section Open

variable {τ κ : Type} [UsbDevice τ] [UsbControl τ] {lib : Libusb κ τ} {port : Handle τ}
variable {clock : UsbPort τ → ℕ} {io : UsbSpd τ} (opened : openUsbPort lib = .ok port)
include opened

omit [Server β] in
theorem connectBootrom_ok {version : Bytes}
    (run : (UsbSpd.usb clock).greet ⟨.fresh port.dev, .sprd⟩ = .ok version io) :
    UsbSpd.connectBootrom lib clock = .ok (io, version) := by
  simp only [UsbSpd.connectBootrom, opened, run]

omit [Server β] in
theorem connectBootrom_error {e : Failure}
    (run : (UsbSpd.usb clock).greet ⟨.fresh port.dev, .sprd⟩ = .error e io) :
    UsbSpd.connectBootrom lib clock = .error e := by
  simp only [UsbSpd.connectBootrom, opened, run]

end Open

/-- The handshake over the port returns exactly if one of 200 flags wakes the loader and it
acknowledges CONNECT, and raises `ProtocolError` otherwise. -/
theorem connectBootrom_iff {κ : Type} [UsbControl (Gadget (Loader β))]
    {lib : Libusb κ (Gadget (Loader β))} {port : Handle (Gadget (Loader β))} {misses : ℕ}
    {clock : UsbPort (Gadget (Loader β)) → ℕ} {server : β} (opened : openUsbPort lib = .ok port)
    (asleep : port.dev.agent = ⟨some misses, .seeking, server⟩) (quiet : port.dev.outbox = [])
    (greeted : ∀ io, port.dev.schedule.length + (Server.version server).val.frame.length ≤ clock io)
    (answered : ∀ body io, port.dev.schedule.length +
      (Server.serve server body).2.frame.length ≤ clock io) :
    let mode := tuned .crc (Server.version server).val
    let reply := (Server.serve server (messageBody bslCmdConnect [] mode)).2
    (misses < 200 ∧ reply.cmd = bslRepAck → ∃ io,
      UsbSpd.connectBootrom lib clock = .ok (io, (Server.version server).val.data) ∧
      io.checksum = mode ∧ unread io.port = []) ∧
    (¬ (misses < 200 ∧ reply.cmd = bslRepAck) →
      ∃ msg, UsbSpd.connectBootrom lib clock = .error (.raised (.protocolError msg))) := by
  intro mode reply
  obtain ⟨t, fewer, rest, ⟨few, ready, tuning, run⟩ | ⟨many, -, -, run⟩⟩ :=
    autobaudFrom_wakes clock 200 200 (s := ⟨.fresh port.dev, .crc⟩) asleep quiet greeted
  · obtain ⟨u, none, same, acked⟩ := command_answered bslRepAck "CONNECT"
      ready rest (show bslCmdConnect < 65536 ∧ ([] : Bytes).length < 65536 by decide)
      fun io => (Nat.add_le_add_right fewer _).trans (answered _ io)
    rw [tuning] at acked
    have start : (UsbSpd.usb clock).greet ⟨.fresh port.dev, .sprd⟩ =
        ((UsbSpd.usb clock).connect >>= fun _ => pure (Server.version server).val.data) t := by
      rw [SerialLike.greet]
      exact bind_ok run
    by_cases ack : reply.cmd = bslRepAck
    · rw [if_pos ack] at acked
      have connected : (UsbSpd.usb clock).connect t = .ok () u := bind_ok acked
      refine ⟨fun _ => ⟨u, connectBootrom_ok opened (start.trans (bind_ok connected)), ?_, none⟩,
        fun other => absurd ⟨few, ack⟩ other⟩
      exact same.trans tuning
    · rw [if_neg ack] at acked
      have refused := bind_error (f := fun _ => pure ()) acked
      exact ⟨fun both => absurd both.2 ack, fun _ =>
        ⟨_, connectBootrom_error opened (start.trans (bind_error refused))⟩⟩
  · have failed : (UsbSpd.usb clock).greet ⟨.fresh port.dev, .sprd⟩ = _ :=
      bind_error (x := (UsbSpd.usb clock).autobaud 200) run
    exact ⟨fun both => absurd both.1 (Nat.not_lt.mpr many), fun _ =>
      ⟨_, connectBootrom_error opened failed⟩⟩

end Connecting

section Example

theorem ver_short : bslRepVer < 65536 := by decide

theorem flags_short : ([0x7E, 0x7D] : Bytes).length < 65536 := by decide

def drowsyVersion : { m : Built // m.cmd = bslRepVer } :=
  ⟨.of bslRepVer [0x7E, 0x7D] .sprd ver_short flags_short, rfl⟩

/-- A service that acknowledges every message and counts them. -/
structure Counter where
  count : ℕ
  deriving DecidableEq

instance : Server Counter where
  version _ := drowsyVersion
  serve c _ := (⟨c.count + 1⟩, ack)

/-- It misses two flags; a timeout stands in front of its greeting, which is cut in two, and an
empty transfer behind. -/
def drowsy : UsbSpd (Gadget (Loader Counter)) :=
  ⟨.fresh ⟨⟨some 2, .seeking, ⟨0⟩⟩, [], [.silent, .part 3, .part 0, .part 5]⟩, .crc⟩

theorem drowsy_served : ∃ t u, (UsbSpd.usb fun _ => 24).autobaud 200 drowsy = .ok [0x7E, 0x7D] t ∧
    t.checksum = .sprd ∧
    UsbSpd.conversation (fun _ => 24) [(bslCmdConnect, []), (bslCmdMidstData, [0x7E])] t =
      .ok [(bslRepAck, []), (bslRepAck, [])] u ∧
    u.port.dev.agent = .ready ⟨2⟩ ∧ unread u.port = [] := by
  have tuned : tuned .crc drowsyVersion.val = .sprd := by decide +kernel
  obtain ⟨t, u, run, mode, rest⟩ := (session_served (fun _ => 24) 200
    [(bslCmdConnect, []), (bslCmdMidstData, [0x7E])] drowsy 2 ⟨0⟩ rfl rfl (by decide)
    (fun _ => by decide +kernel) fun _ _ _ =>
    (by decide +kernel : 4 + ack.frame.length ≤ 24)).1 (by decide)
  exact ⟨t, u, run, mode.trans tuned, rest⟩

@[reducible] def composite (δ : Type) : UsbControl δ where
  getActiveConfiguration d := (.ok [⟨0, 0x02, [⟨0x83, 0x03⟩]⟩,
    ⟨1, 0x0A, [⟨0x02, 0x02⟩, ⟨0x81, 0x02⟩]⟩], d)
  isKernelDriverActive d _ := (.ok true, d)
  detachKernelDriver d intf := (if intf = 0 then .error (.other "Access denied") else .ok (), d)
  claimInterface d _ := (.ok (), d)
  ctrlTransfer d _ _ _ _ := (.ok (), d)
  releaseInterface d _ := (.ok (), d)
  disposeResources d := (.ok (), d)

def plugged {δ : Type} (dev : δ) : Libusb Unit δ :=
  ⟨true, .ok none, fun _ pid _ => .ok (if pid = 0x4D11 then some dev else none)⟩

instance : UsbControl (Gadget (Loader Counter)) := composite _

theorem plugged_connects : ∃ io, UsbSpd.connectBootrom (plugged drowsy.port.dev)
    (fun _ => 24) = .ok (io, [0x7E, 0x7D]) ∧
    io.checksum = .sprd ∧ unread io.port = [] := by
  have tuned : tuned .crc drowsyVersion.val = .sprd := by decide +kernel
  have opened : openUsbPort (plugged drowsy.port.dev) = .ok ⟨drowsy.port.dev, 1, 0x02, 0x81, true,
      [(.detach 0, false), (.detach 1, true), (.claim 1, true), (.kick, true)]⟩ := rfl
  have asleep : drowsy.port.dev.agent = ⟨some 2, .seeking, ⟨0⟩⟩ := rfl
  have greeted : 4 + drowsyVersion.val.frame.length ≤ 24 := by decide +kernel
  have answered : 4 + ack.frame.length ≤ 24 := by decide +kernel
  obtain ⟨io, run, mode, none⟩ :=
    (connectBootrom_iff opened asleep rfl (fun _ => greeted) fun _ _ => answered).1 ⟨by decide, rfl⟩
  exact ⟨io, run, mode.trans tuned, none⟩

end Example

end SprdFlash.UsbFraming
