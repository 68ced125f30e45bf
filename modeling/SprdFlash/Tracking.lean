import SprdFlash.Line
import SprdFlash.WireLog
import SprdFlash.Library.Hoare

/-!
The checksum mode of the session against the one the device uses. The mode is
set in four places; what keeps it right is that every handshake ends with a VER
frame of the device's present mode, that the frame tells the modes apart, and
that no frame of an earlier mode is left to be read.
-/

namespace SprdFlash.Tracking

open Message Port Pac SpdIO Flasher Struct Script Hoare Plan Exchange Stuffing Handshake Line

/-- The modes of a device in its BootROM and under FDL1, and where it is. -/
structure Dialect (α : Type) where
  bootrom : Checksum
  loader : Checksum
  started : α → Bool

namespace Dialect

variable {α : Type} (D : Dialect α)

def modeAt (started : Bool) : Checksum := if started then D.loader else D.bootrom

def mode (a : α) : Checksum := D.modeAt (D.started a)

end Dialect

/-- A VER frame in a mode, with any version bytes whose two checksums differ. -/
def Telling (mode : Checksum) (v : Bytes × Checksum) : Prop :=
  v.1.length < 65536 ∧ v.2 = mode ∧
    checksumFor .sprd (covered bslRepVer v.1) ≠ checksumFor .crc (covered bslRepVer v.1)

/-- The device answers flags with VER frames in its mode, and no other frames, and
every command with one ACK. Its first EXEC_DATA starts FDL1. -/
structure Speaks {α : Type} [Agent α] (D : Dialect α) : Prop where
  flag : ∀ a, D.started (Agent.respond a [hdlcFlag]).1 = D.started a ∧
    ∃ vs, (∀ v ∈ vs, Telling (D.mode a) v) ∧
      (Agent.respond a [hdlcFlag]).2 = stream hdlc (wires vs)
  command : ∀ (a : α) (cmd : ℕ) (data : Bytes) (mode : Checksum), Framable cmd data →
    D.started (Agent.respond a (wireMessage cmd data mode)).1 =
        (D.started a || decide (cmd = bslCmdExecData)) ∧
      ∃ reply : Bytes × Checksum, reply.1.length < 65536 ∧
        (Agent.respond a (wireMessage cmd data mode)).2 = wireMessage bslRepAck reply.1 reply.2

/-- A frame whose checksum verifies in a mode. -/
def Carries (mode : Checksum) (bs : Bytes) : Prop :=
  ∃ body, bs = enclose hdlc (escape hdlc body) ∧ Verifies mode body

theorem verifies_messageBody (cmd : ℕ) (data : Bytes) (mode mode' : Checksum) :
    Verifies mode' (messageBody cmd data mode) ↔
      checksumFor mode (covered cmd data) = checksumFor mode' (covered cmd data) := by
  have length : (messageBody cmd data mode).length - 2 = (covered cmd data).length := by
    simp [messageBody]
  have front : (messageBody cmd data mode).take ((messageBody cmd data mode).length - 2) =
      covered cmd data := by
    rw [length, messageBody, List.take_left]
  have back : (messageBody cmd data mode).drop ((messageBody cmd data mode).length - 2) =
      field .big 2 (checksumFor mode (covered cmd data)) := by
    rw [length, messageBody, List.drop_left]
  rw [Verifies, front, back, unpack_field .big 2 _ (checksumFor_lt mode _), messageBody_length]
  simp

theorem detect_telling {mode : Checksum} {v : Bytes × Checksum} (telling : Telling mode v)
    (old : Checksum) : (detectChecksum (verBody v)).getD old = mode := by
  obtain ⟨-, rfl, differ⟩ := telling
  rw [detectChecksum_eq, verBody]
  simp only [verifies_messageBody]
  cases v.2 with
  | sprd => simp
  | crc => simp [differ.symm]

theorem carries_wireMessage (cmd : ℕ) (data : Bytes) (mode : Checksum) :
    Carries mode (wireMessage cmd data mode) :=
  ⟨messageBody cmd data mode, rfl, (verifies_messageBody cmd data mode mode).mpr rfl⟩

section Runs

variable {α : Type} [Agent α]

/-- Every command frame that was heard verifies in the mode the device was using. -/
def Tracks (D : Dialect α) (s : Port (Slow α)) : Prop :=
  ∀ entry ∈ s.device.heard, entry.2 ≠ [hdlcFlag] → Carries (D.mode entry.1) entry.2

/-- In front of a handshake: whatever is on its way is a VER frame of the present mode. -/
structure Calling (D : Dialect α) (started : Bool) (s : Port (Slow α)) : Prop where
  tracks : Tracks D s
  greeted : Greeted (fun a => D.started a = started) (Telling (D.modeAt started)) s

/-- Behind a handshake the session uses that mode too. -/
structure Tuned (D : Dialect α) (started : Bool) (s : Port (Slow α)) : Prop
    extends Calling D started s where
  tuned : s.checksum = D.modeAt started

omit [Agent α] in
theorem calling_of_quiet {D : Dialect α} {s : Port (Slow α)} (tracks : Tracks D s)
    (faultless : Faultless s) (nothing : outstanding s = []) :
    Calling D (D.started s.device.agent) s :=
  ⟨tracks, faultless, rfl, [], by simp, .inl nothing⟩

theorem setChecksum_calling {D : Dialect α} (started : Bool) (mode : Checksum) :
    Triple (Calling D started) (Step.setChecksum mode).exec (Calling D started) (Tracks D) := by
  intro s calling
  exact ⟨calling.tracks, calling.greeted.faultless, calling.greeted.agent, calling.greeted.tail⟩

theorem speaks_greets {D : Dialect α} (speaks : Speaks D) (started : Bool) :
    Greets (fun a => D.started a = started) (Telling (D.modeAt started)) where
  small _ telling := telling.1
  flag a here := by
    obtain ⟨same, vs, telling, answer⟩ := speaks.flag a
    rw [Dialect.mode, here] at telling
    exact ⟨same.trans here, vs, telling, answer⟩

theorem autobaudFrom_heard (total attempts : ℕ) :
    Appends (fun s : Port (Slow α) => s.device.heard) (fun entry => entry.2 = [hdlcFlag])
      (autobaudFrom total attempts) := by
  induction attempts with
  | zero => exact Appends.of_same fun s => rfl
  | succ attempts ih =>
    intro s
    obtain ⟨t, sent, heard⟩ : ∃ t, write [hdlcFlag] s = .ok () t ∧
        t.device.heard = s.device.heard ++ [(s.device.agent, [hdlcFlag])] := ⟨_, rfl, rfl⟩
    have kept : (final (readFrame t)).device = t.device := by
      unfold readFrame
      split <;> rfl
    rw [autobaudFrom_write total attempts sent]
    have more (u : Port (Slow α)) (same : u.device = t.device) : ∃ items : List (α × Bytes),
        (∀ entry ∈ items, entry.2 = [hdlcFlag]) ∧
          (final (autobaudFrom total attempts u)).device.heard = s.device.heard ++ items := by
      obtain ⟨items, flags, added⟩ := ih u
      have added' : (final (autobaudFrom total attempts u)).device.heard =
          u.device.heard ++ items := added
      refine ⟨(s.device.agent, [hdlcFlag]) :: items, List.forall_mem_cons.mpr ⟨rfl, flags⟩, ?_⟩
      rw [added', same, heard, List.append_assoc]
      rfl
    have last (u : Port (Slow α)) (same : u.device = t.device) : ∃ items : List (α × Bytes),
        (∀ entry ∈ items, entry.2 = [hdlcFlag]) ∧ u.device.heard = s.device.heard ++ items :=
      ⟨[(s.device.agent, [hdlcFlag])], by simp, by rw [same, heard]⟩
    cases run : readFrame t with
    | ok body u =>
      rw [run] at kept
      simp only
      cases version body with
      | some data => exact last u kept
      | none => exact more u kept
    | error e u =>
      rw [run] at kept
      simp only
      split
      · exact more u kept
      · exact last u kept

variable {D : Dialect α} (speaks : Speaks D)
include speaks

theorem autobaud_tuned (started : Bool) (attempts : ℕ) :
    Triple (Calling D started) (Step.autobaud attempts).exec (Tuned D started) (Tracks D) := by
  intro s calling
  obtain ⟨items, flags, heard⟩ := autobaudFrom_heard attempts attempts s
  have line := autobaudFrom_line (speaks_greets speaks started) attempts attempts calling.greeted
  have tracks : Tracks D (final (autobaudFrom attempts attempts s)) := by
    intro entry mem other
    simp only at heard
    rw [heard] at mem
    rcases List.mem_append.mp mem with old | new
    · exact calling.tracks entry old other
    · exact absurd (flags entry new) other
  have step : (Step.autobaud attempts).exec s =
      (autobaudFrom attempts attempts >>= fun _ => pure ()) s := rfl
  rw [step]
  cases run : autobaudFrom attempts attempts s with
  | ok data t =>
    rw [run] at line tracks
    obtain ⟨greeted, -, v, old, telling, -, mode⟩ := line
    rw [bind_ok run]
    exact ⟨⟨tracks, greeted⟩, mode.trans (detect_telling telling old)⟩
  | error e t =>
    rw [run] at tracks
    rw [bind_error run]
    exact tracks

theorem command_tuned (started : Bool) (cmd : ℕ) (data : Bytes) (what : String) :
    Triple (Tuned D started) (Step.command cmd data what).exec
      (fun t => Calling D (started || decide (cmd = bslCmdExecData)) t ∧
        t.checksum = D.modeAt started) (Tracks D) := by
  intro s tuned
  have step : (Step.command cmd data what).exec s =
      (command cmd data bslRepAck what >>= fun _ => pure ()) s := rfl
  rw [step]
  by_cases fits : Framable cmd data
  · obtain ⟨vs, telling, tail⟩ := tuned.greeted.tail
    obtain ⟨moved, reply, small, answer⟩ := speaks.command s.device.agent cmd data s.checksum fits
    have line := command_line fits what tuned.greeted.faultless (fun v hv => (telling v hv).1) tail
      small answer
    have here : D.started s.device.agent = started := tuned.greeted.agent
    have carries : Carries (D.mode s.device.agent) (wireMessage cmd data s.checksum) := by
      rw [Dialect.mode, here, tuned.tuned]
      exact carries_wireMessage cmd data _
    have tracks (t : Port (Slow α)) (heard : t.device.heard =
        s.device.heard ++ [(s.device.agent, wireMessage cmd data s.checksum)]) : Tracks D t := by
      intro entry mem other
      rw [heard] at mem
      rcases List.mem_append.mp mem with old | new
      · exact tuned.tracks entry old other
      · rw [List.mem_singleton.mp new]
        exact carries
    cases run : command cmd data bslRepAck what s with
    | ok rdata t =>
      rw [run] at line
      obtain ⟨-, faultless, nothing, mode, agent, heard, -⟩ := line
      have calling := calling_of_quiet (tracks t heard) faultless nothing
      rw [agent, moved, here] at calling
      rw [bind_ok run]
      exact ⟨calling, mode.trans tuned.tuned⟩
    | error e t =>
      rw [run] at line
      rw [bind_error run]
      exact tracks t line.1
  · obtain ⟨e, same, -⟩ := send_unframable fits s
    have failed : command cmd data bslRepAck what s = .error e s := bind_error same
    rw [bind_error failed]
    exact tuned.tracks

def Steady (started : Bool) : Step → Prop
  | .command cmd _ _ => cmd = bslCmdExecData → started = true
  | .fail _ => True
  | _ => False

omit [Agent α] speaks in
theorem stage_steady (started : Bool) (addr : ℕ) (data : Bytes) (chunk : ℕ+) :
    ∀ i ∈ stage addr data chunk, Steady started i := by
  have other {cmd : ℕ} (h : cmd ≠ bslCmdExecData) (data : Bytes) (what : String) :
      Steady started (.command cmd data what) := fun exec => absurd exec h
  refine forall_given (fun _ => trivial) _ fun start => ?_
  rw [List.forall_mem_cons, List.forall_mem_append, List.forall_mem_map, List.forall_mem_singleton]
  exact ⟨other (by decide) _ _, fun piece _ => other (by decide) _ _, other (by decide) _ _⟩

theorem steady_tuned (started : Bool) {i : Step} (steady : Steady started i) :
    Triple (Tuned D started) i.exec (Tuned D started) (Tracks D) := by
  cases i with
  | command cmd data what =>
    have stays : (started || decide (cmd = bslCmdExecData)) = started := by
      by_cases exec : cmd = bslCmdExecData
      · simp [steady exec]
      · simp [exec]
    refine (command_tuned speaks started cmd data what).weaken fun s ⟨calling, mode⟩ => ⟨?_, mode⟩
    rwa [stays] at calling
  | fail e => exact Triple.throw (fun s tuned => tuned.tracks) e
  | _ => exact steady.elim

theorem exec_calling (data : Bytes) (what : String) :
    Triple (Tuned D false) (Step.command bslCmdExecData data what).exec (Calling D true)
      (Tracks D) :=
  (command_tuned speaks false bslCmdExecData data what).weaken fun _ outcome => outcome.1

/-- A handshake, in the mode the session is set to or in any other. -/
theorem greeting_tuned (started : Bool) (mode : Checksum) (attempts : ℕ) (data : Bytes)
    (what : String) :
    Triple (Calling D started)
      (perform Step.exec [.setChecksum mode, .autobaud attempts, .command bslCmdConnect data what])
      (Tuned D started) (Tracks D) := by
  refine (setChecksum_calling started mode).cons ((autobaud_tuned speaks started attempts).cons ?_)
  rw [perform_singleton]
  have other : bslCmdConnect ≠ bslCmdExecData := by decide
  exact steady_tuned speaks started fun exec => absurd exec other

theorem steady_perform (started : Bool) {steps : List Step}
    (steady : ∀ i ∈ steps, Steady started i) :
    Triple (Tuned D started) (perform Step.exec steps) (Tuned D started) (Tracks D) :=
  Triple.perform fun i hi => steady_tuned speaks started (steady i hi)

/-- By the four parts: FDL1 in the old mode, its EXEC, the handshake under it, and
FDL2 in the new mode. -/
theorem fdls_tuned (info : PacInfo) (content : Bytes) (chunk : ℕ+) :
    Triple (Tuned D false) (perform Step.exec (fdls info content chunk)) (Tuned D true)
      (Tracks D) := by
  have given_tuned {β : Type} (x : Except Exc β) {steps : β → List Step}
      (h : ∀ b, Triple (Tuned D false) (perform Step.exec (steps b)) (Tuned D true) (Tracks D)) :
      Triple (Tuned D false) (perform Step.exec (given x steps)) (Tuned D true) (Tracks D) := by
    cases x with
    | ok b => exact h b
    | error e =>
      rw [given, perform_singleton]
      exact Triple.throw (fun s tuned => tuned.tracks) e
  refine given_tuned _ fun fdl1 => given_tuned _ fun fdl2 => ?_
  cases fdl1 with
  | none =>
    rw [perform_singleton]
    exact Triple.throw (fun s tuned => tuned.tracks) _
  | some fdl1 =>
    refine (steady_perform speaks false (stage_steady false _ _ _)).append ?_
    refine Triple.append ((exec_calling speaks [] "EXEC FDL1").cons
      (greeting_tuned speaks true .sprd 10 [] "CONNECT")) (steady_perform speaks true ?_)
    cases fdl2 with
    | none => exact fun i hi => absurd hi List.not_mem_nil
    | some fdl2 =>
      simp only
      rw [List.forall_mem_append, List.forall_mem_singleton]
      exact ⟨stage_steady true _ _ _, fun _ => rfl⟩

end Runs

section Flow

variable {σ : Type} [Device σ]

/-- The BSL flow, with any stages behind the two loaders. -/
def flow (transport : Transport) (device : Option String) (info : PacInfo) (content : Bytes)
    (chunk : ℕ+) (stages : List (ℕ × Bytes × ℕ+)) : Session σ Unit := do
  let _ ← connectBootrom transport device
  loadFdls info content chunk
  stages.forM fun (addr, data, chunk) => sendStage addr data chunk

theorem flow_eq (transport : Transport) (device : Option String) (info : PacInfo) (content : Bytes)
    (chunk : ℕ+) (stages : List (ℕ × Bytes × ℕ+)) :
    flow (σ := σ) transport device info content chunk stages =
      openTransport transport device >>= fun _ => perform Step.exec
        (handshake ++ (fdls info content chunk ++
          stages.flatMap fun (addr, data, chunk) => stage addr data chunk)) := by
  rw [flow, connectBootrom_eq, loadFdls_eq, perform_append, perform_append, ← forM_perform]
  simp only [sendStage_eq]

variable {α : Type} [Agent α]

def cold (a : α) (schedule : List (List Tick)) : Port (Slow α) := Port.fresh ⟨a, [], schedule, []⟩

/-- Every command frame of the flow verifies in the mode the device is using as it
hears it, wherever the flow ends. -/
theorem flow_tracks {D : Dialect α} (speaks : Speaks D) {a : α} (bootrom : D.started a = false)
    (schedule : List (List Tick)) (transport : Transport) (device : Option String) (info : PacInfo)
    (content : Bytes) (chunk : ℕ+) (stages : List (ℕ × Bytes × ℕ+)) :
    Tracks D (final (flow transport device info content chunk stages (cold a schedule))) := by
  have start : Triple (· = cold a schedule) (openTransport transport device) (Calling D false)
      (Tracks D) := by
    rintro s rfl
    have opened : Calling D false
        { cold a schedule with log := [.opened] } :=
      ⟨fun entry mem => absurd mem List.not_mem_nil, fun fault => absurd fault List.not_mem_nil,
        bootrom, [], by simp, .inl rfl⟩
    cases transport with
    | usb => exact opened
    | serial =>
      rw [openTransport]
      by_cases missing : device.getD "" = ""
      · rw [if_pos missing]
        exact fun entry mem => absurd mem List.not_mem_nil
      · rw [if_neg missing]
        exact opened
  have rest : Triple (Calling D false) (perform Step.exec (handshake ++
      (fdls info content chunk ++ stages.flatMap fun (addr, data, chunk) => stage addr data chunk)))
      (Tuned D true) (Tracks D) := by
    refine (greeting_tuned speaks false .crc 200 [] "CONNECT").append
      ((fdls_tuned speaks info content chunk).append (steady_perform speaks true ?_))
    rw [List.forall_mem_flatMap]
    exact fun (addr, data, chunk) _ => stage_steady true addr data chunk
  rw [flow_eq]
  exact (start.bind fun _ => rest).final (fun s tuned => tuned.tracks) rfl

end Flow

section Talker

structure Talker where
  loaded : Bool
  deriving DecidableEq, Repr

namespace Talker

def dialect : Dialect Talker := ⟨.crc, .sprd, loaded⟩

def answer (d : Talker) (bs : Bytes) : Talker × Bytes :=
  match WireLog.decodeWrite bs with
  | some (.bsl cmd _) => (⟨d.loaded || decide (cmd = bslCmdExecData)⟩,
    wireMessage bslRepAck [] .crc)
  | _ => (d, wireMessage bslRepVer [0x31, 0x2E, 0x30] (dialect.mode d))

instance : Agent Talker := ⟨answer⟩

theorem speaks : Speaks dialect where
  flag d := by
    refine ⟨rfl, [([0x31, 0x2E, 0x30], dialect.mode d)], ?_, (List.append_nil _).symm⟩
    rw [List.forall_mem_singleton]
    have differ : checksumFor .sprd (covered bslRepVer [0x31, 0x2E, 0x30]) ≠
        checksumFor .crc (covered bslRepVer [0x31, 0x2E, 0x30]) := by decide +kernel
    exact ⟨show 3 < 65536 by decide, rfl, differ⟩
  command d cmd data mode fits := by
    change dialect.started (answer d _).1 = _ ∧ ∃ reply : Bytes × Checksum, _ ∧ (answer d _).2 = _
    rw [answer, WireLog.decodeWrite_wireMessage fits]
    exact ⟨rfl, ([], .crc), show 0 < 65536 by decide, rfl⟩

def info : PacInfo where
  version := []
  productName := []
  productVersion := []
  size := 2
  fileCount := 1
  mode := 0
  flashType := 0
  magic := 0
  headerCrcOk := true
  payloadCrcOk := none
  entries := [⟨['F', 'D', 'L'], [], 2, 0, 0x5500, 0, 0⟩]

def prompt : Port (Slow Talker) := cold ⟨false⟩ (List.replicate 16 (List.replicate 11 .arrive))

theorem tracks_both :
    Tracks dialect (final (flow .usb none info [0x7E, 1] defaultChunk
      [(0x9000, [1, 2, 3], 2)] prompt)) ∧
      (⟨false⟩, wireMessage bslCmdExecData [] .crc) ∈ (final (flow .usb none info [0x7E, 1]
        defaultChunk [(0x9000, [1, 2, 3], 2)] prompt)).device.heard ∧
      (⟨true⟩, wireMessage bslCmdEndData [] .sprd) ∈ (final (flow .usb none info [0x7E, 1]
        defaultChunk [(0x9000, [1, 2, 3], 2)] prompt)).device.heard :=
  ⟨flow_tracks speaks rfl _ .usb none info [0x7E, 1] defaultChunk _, by decide +kernel,
    by decide +kernel⟩

end Talker

end Talker

end SprdFlash.Tracking
