import SprdFlash.Obedience
import SprdFlash.Runs

/-!
Runs that break off. Whatever a device answers, what a run has sent is an initial part
of its plan, so the strict modem refuses none of it, and what it leaves in the memory
are the first images of the plan, the last one perhaps cut short. A complete run behind
any number of such attempts leaves what it would have left without them.
-/

namespace SprdFlash.Modem

open Message Port Pac Flasher Native Script Struct Plan Exchange WireLog Runs Transfers
  Package Overlay
open Acknowledging

section Memory

/-- A command that is taken between two transfers and leaves the memory alone. -/
def Aside (c : Sent) : Prop :=
  ∀ core : Core, ∃ after, core.hear c = core.between after ∧ after.memory = core.memory ∧
    after.job = core.job

/-- How the modem takes a command that the list of transfers reads in one of its ways. -/
inductive Reading (c : Sent) : Prop
  | start (address declared : ℕ) (sum : Option ℕ) (summed : Bool)
      (opens : startOf c = some (address, declared, summed)) (noPiece : pieceOf c = none)
      (order : orderOf c = .start address declared sum)
  | piece (numbered : Option (ℕ × ℕ)) (bytes : Bytes) (noStart : startOf c = none)
      (piece : pieceOf c = some bytes) (order : orderOf c = .midst numbered bytes)
  | finish (noStart : startOf c = none) (noPiece : pieceOf c = none) (order : orderOf c = .finish)
  | aside (noStart : startOf c = none) (noPiece : pieceOf c = none) (aside : Aside c)
  | unknown (order : orderOf c = .unknown)

theorem reading_bsl (cmd : ℕ) (data : Bytes) : Reading (.bsl cmd data) := by
  by_cases connect : cmd = bslCmdConnect
  · subst connect
    exact .aside rfl rfl fun core => ⟨core, rfl, rfl, rfl⟩
  by_cases start : cmd = bslCmdStartData
  · subst start
    by_cases two : data.length = 8
    · refine .start _ _ none (decide (data.length = 12)) rfl rfl ?_
      simp only [orderOf, if_neg connect, if_pos, two, List.drop_zero]
    by_cases three : data.length = 12
    · refine .start _ _ (some (unpack .big ((data.drop 8).take 4)))
        (decide (data.length = 12)) rfl rfl ?_
      simp only [orderOf, if_neg connect, if_pos, three, List.drop_zero]
      rfl
    exact .unknown (by simp only [orderOf, if_neg connect, if_pos, if_neg two, if_neg three])
  by_cases midst : cmd = bslCmdMidstData
  · subst midst
    exact .piece none data rfl rfl rfl
  have noStart : startOf (.bsl cmd data) = none := by rw [startOf, if_neg start]
  have noPiece : pieceOf (.bsl cmd data) = none := by rw [pieceOf, if_neg midst]
  by_cases finish : cmd = bslCmdEndData
  · subst finish
    exact .finish noStart noPiece rfl
  by_cases exec : cmd = bslCmdExecData
  · subst exec
    exact .aside noStart noPiece fun core => ⟨_, rfl, rfl, rfl⟩
  by_cases erase : cmd = bslCmdEraseFlash
  · subst erase
    exact .aside noStart noPiece fun core => ⟨_, rfl, rfl, rfl⟩
  by_cases reset : cmd = bslCmdNormalReset
  · subst reset
    exact .aside noStart noPiece fun core => ⟨_, rfl, rfl, rfl⟩
  exact .unknown (by simp only [orderOf, if_neg connect, if_neg start, if_neg midst, if_neg finish,
    if_neg exec, if_neg erase, if_neg reset])

theorem reading_pdl (code arg1 arg2 : ℕ) (extra : Bytes) : Reading (.pdl code arg1 arg2 extra) := by
  by_cases connect : code = Pdl.Command.connect.code
  · subst connect
    exact .aside rfl rfl fun core => ⟨core, rfl, rfl, rfl⟩
  by_cases start : code = Pdl.Command.startData.code
  · subst start
    exact .start arg1 arg2 none false rfl rfl rfl
  by_cases midst : code = Pdl.Command.midstData.code
  · subst midst
    exact .piece (some (arg1, arg2)) extra rfl rfl rfl
  have noStart : startOf (.pdl code arg1 arg2 extra) = none := by rw [startOf, if_neg start]
  have noPiece : pieceOf (.pdl code arg1 arg2 extra) = none := by rw [pieceOf, if_neg midst]
  by_cases finish : code = Pdl.Command.endData.code
  · subst finish
    exact .finish noStart noPiece rfl
  by_cases exec : code = Pdl.Command.exec.code
  · subst exec
    exact .aside noStart noPiece fun core => ⟨_, rfl, rfl, rfl⟩
  exact .unknown (by simp only [orderOf, if_neg connect, if_neg start, if_neg midst, if_neg finish,
    if_neg exec])

theorem reading (c : Sent) : Reading c := by
  cases c with
  | bsl cmd data => exact reading_bsl cmd data
  | pdl code arg1 arg2 extra => exact reading_pdl code arg1 arg2 extra

namespace Core

def pending (core : Core) (sents : List Sent) : List (Block UInt8) :=
  core.job.toList.map fun job => ⟨job.address + job.taken.length, (contents sents).1⟩

/-- Behind a run without refusals the memory holds the images of its transfers. -/
theorem memory_of_content {core : Core} {sents : List Sent} (clean : core.Content sents) :
    (core.hears sents).memory =
      puts core.memory (core.pending sents ++ (transfers sents).map block) := by
  induction sents generalizing core with
  | nil =>
    rw [hears_nil, pending]
    cases core.job with
    | none => rfl
    | some job => exact (put_nil _ _).symm
  | cons c sents ih =>
    obtain ⟨ack, rest⟩ := Content.cons_iff.mp clean
    have taken : Taken core (orderOf c) (core.hear c).1 := (core.obey_outcome _).of_ack ack
    rw [hears_cons, ih rest, pending, pending]
    cases reading c with
    | start address declared sum summed opens noPiece order =>
      generalize (core.hear c).1 = after at taken
      rw [order] at taken
      cases taken with
      | start idle => simp [idle, transfers, opens, block]
    | piece numbered bytes noStart isPiece order =>
      generalize (core.hear c).1 = after at taken
      rw [order] at taken
      cases taken with
      | midst opened fits =>
        simp only [opened, transfers, noStart, contents, isPiece]
        simp [← put_append, Nat.add_assoc]
    | finish noStart noPiece order =>
      generalize (core.hear c).1 = after at taken
      rw [order] at taken
      cases taken with
      | finish opened all good =>
        simp only [opened, transfers, noStart, contents, noPiece]
        simp [put_nil]
    | aside noStart noPiece aside =>
      obtain ⟨after, order, memory, job⟩ := aside core
      rcases core.between_cases after with ⟨idle, taken⟩ | refused
      · rw [order, taken, memory, job, idle, transfers, noStart]
        rfl
      · rw [order, refused] at ack
        exact absurd ack (by simp [refuse, bslRepInvalidCmd, bslRepAck])
    | unknown order =>
      generalize (core.hear c).1 = after at taken
      rw [order] at taken
      cases taken

end Core

end Memory

section Runs

theorem commands_begun (steps : List Step) : commands steps <+: steps.flatMap emits := by
  obtain ⟨rest, split⟩ := List.takeWhile_prefix (l := steps) fun i => !halts i
  refine ⟨rest.flatMap emits, ?_⟩
  rw [commands, live, ← List.flatMap_append, split]

/-- Whatever a run of the steps has sent, its transfers are a part of the blocks. -/
def Starts (steps : List Step) (blocks : List (Block UInt8)) : Prop :=
  ∀ part, part <+: commands steps → Part ((transfers part).map block) blocks

theorem begins_of_partly {ts begun : List Transfer} (h : List.Forall₂ Partly ts begun) :
    List.Forall₂ Block.Begins (ts.map block) (begun.map block) := by
  rw [List.forall₂_map_left_iff, List.forall₂_map_right_iff]
  exact h.imp fun _ _ partly => ⟨partly.address, partly.image⟩

theorem part_of_prefix {part whole : List Sent} (h : part <+: whole) {blocks : List (Block UInt8)}
    (first : (transfers whole).map block <+: blocks) :
    Part ((transfers part).map block) blocks := by
  obtain ⟨begun, later, split, partly⟩ := transfers_prefix h
  obtain ⟨rest, rfl⟩ := first
  refine ⟨begun.map block, later.map block ++ rest, ?_, begins_of_partly partly⟩
  rw [split, List.map_append, List.append_assoc]

theorem Starts.append {xs ys : List Step} {ts : List Transfer} {blocks : List (Block UInt8)}
    (rest : Starts ys blocks) (yields : Yields xs ts) :
    Starts (xs ++ ys) (ts.map block ++ blocks) := by
  intro part initial
  have alone : (transfers (xs.flatMap emits)).map block <+: ts.map block ++ blocks := by
    have only := yields []
    simp only [List.append_nil, transfers] at only
    rw [only]
    exact List.prefix_append _ _
  by_cases sound : Sound xs
  · rw [commands_append sound] at initial
    rcases List.prefix_or_prefix_of_prefix initial (List.prefix_append _ _) with
      early | ⟨later, rfl⟩
    · exact part_of_prefix early alone
    · rw [yields, List.map_append]
      exact (rest later ((List.prefix_append_right_inj _).mp initial)).behind _
  · have stops : ∃ i ∈ xs, halts i = true := by simpa [Sound] using sound
    rw [commands, live_append_of_exists ys stops] at initial
    exact part_of_prefix (initial.trans (commands_begun xs)) alone

theorem starts_fail (e : Exc) (steps : List Step) (blocks : List (Block UInt8)) :
    Starts (.fail e :: steps) blocks := by
  intro part initial
  rw [commands, live_cons_of_halts steps rfl, List.flatMap_nil, List.prefix_nil] at initial
  rw [initial]
  exact Part.nil blocks

theorem starts_nil {steps : List Step} (silent : Yields steps []) : Starts steps [] := by
  have nothing : Starts [] [] := fun part initial => by
    rw [List.prefix_nil.mp initial]
    exact Part.nil []
  have only := nothing.append silent
  rwa [List.append_nil] at only

section Package

variable {info : PacInfo} (narrow : Narrow info.entries) (content : Bytes)
include narrow

theorem partitions_start (chunk : ℕ+) (doReset : Bool) {entries : List PacEntry}
    (h : ∀ e ∈ entries, e ∈ flashableEntries info) :
    Starts ((entries.flatMap fun e => given (Flasher.readEntry content e) fun data =>
      stage e.address data chunk) ++ reset doReset) (entries.map (ownBlock content)) := by
  induction entries with
  | nil => exact starts_nil (reset_yields doReset)
  | cons e entries ih =>
    rw [List.forall_mem_cons] at h
    have role : classify e = .flash := by simpa using List.of_mem_filter h.1
    have reads := @Completion.readEntry_eq content e (role_size role (by decide))
    rw [List.flatMap_cons, List.append_assoc, List.map_cons]
    by_cases inside : InFile content e
    · rw [reads.1 inside]
      have entry := narrow e (flashable_mem h.1)
      have length := (readEntry_length_le content e).trans_lt entry.1
      exact (ih h.2).append (stage_yields entry.2 length chunk)
    · obtain ⟨err, refused⟩ := reads.2 inside
      rw [refused]
      exact starts_fail _ _ _

theorem flash_starts (options : FlashOptions) :
    Starts (flash info content options) (ownBlocks info content) := by
  by_cases loaderless : Completion.Loaderless info content
  · obtain ⟨err, refused⟩ := Completion.fdls_loaderless loaderless options.chunk
    rw [flash, refused]
    exact starts_fail _ _ _
  obtain ⟨⟨fdl1, found, -⟩, -⟩ := Completion.loaders_inFile loaderless
  have first := loaderEntry_narrow narrow found content
  have loaded := stage_yields first.1 first.2 options.chunk
  have greeted : Yields [.command bslCmdExecData [] "EXEC FDL1", .setChecksum .sprd, .autobaud 10,
      .command bslCmdConnect [] "CONNECT"] [] := yields_nil (by decide)
  have second : Yields ((fdl2Of info).toList.flatMap fun e =>
      stage e.address (Native.readEntry content e) options.chunk ++
        [.command bslCmdExecData [] "EXEC FDL2"])
      ((fdl2Of info).toList.map fun e => written e.address (Native.readEntry content e)) :=
    yields_flatMap fun e he => by
      have bounds := loaderEntry_narrow narrow (Option.mem_toList.mp he) content
      have started : Yields [.command bslCmdExecData [] "EXEC FDL2"] [] := yields_nil (by decide)
      exact (stage_yields bounds.1 bounds.2 options.chunk).append started
  have partitions := partitions_start narrow content options.chunk options.doReset
    fun e (he : e ∈ flashableEntries info) => he
  have whole := partitions.append (loaded.append (greeted.append second))
  rw [flash, Completion.fdls_loaded found loaderless, List.append_assoc]
  rw [ownBlocks, loaders, found, List.map_append]
  convert whole using 2
  simp [block, written, ownBlock]

/-- The native flow writes them up to the first marker without room for its slot. -/
theorem native_starts {fdl1 : PacEntry} (found : fdl1Of info = some fdl1)
    (options : NativeOptions) :
    Starts (native info fdl1 content options)
      (nativeBlocks info fdl1 content options.formatFs) := by
  have markers : ((reached info content).map (writtenMarker info content)).map block <+:
      markerBlocks info content := by
    obtain ⟨rest, split⟩ := List.takeWhile_prefix (l := dataMarkers info) fun e =>
      Roomy info content e
    refine ⟨rest.flatMap fun e => if Roomy info content e then
      [block (writtenMarker info content e)] else [], ?_⟩
    rw [markerBlocks, ← split, List.flatMap_append, List.map_map, List.map_eq_flatMap]
    congr 1
    refine List.flatMap_congr fun e he => ?_
    rw [if_pos (mem_reached he).2]
    rfl
  intro part initial
  refine part_of_prefix initial ?_
  rw [native_transfers narrow found, planned, List.map_append, nativeBlocks]
  have images : (written fdl1.address (Native.readEntry content fdl1) ::
      ((fdl2Of info).toList.map (fun e => written e.address (Native.readEntry content e)) ++
        (flashableEntries info).map fun e =>
          written e.address (imageOf content (flashableEntries info) e))).map block =
      imageBlocks info fdl1 content := by
    rw [imageBlocks, List.map_cons, List.map_append, List.map_map, List.map_map]
    rfl
  rw [images, List.prefix_append_right_inj]
  cases options.formatFs with
  | false => exact List.prefix_rfl
  | true => exact markers

/-- The modem takes every command of the flow over BSL alone, wherever it stops. -/
theorem flash_takes (options : FlashOptions) : ∃ f, Does (flash info content options) f := by
  have partitions : ∀ entries : List PacEntry, (∀ e ∈ entries, e ∈ flashableEntries info) →
      ∃ f, Does (entries.flatMap fun e => given (Flasher.readEntry content e) fun data =>
        stage e.address data options.chunk) f := by
    intro entries
    induction entries with
    | nil => exact fun _ => ⟨_, Does.nil⟩
    | cons e entries ih =>
      rw [List.forall_mem_cons]
      intro ⟨he, rest⟩
      obtain ⟨f, done⟩ := ih rest
      rw [List.flatMap_cons]
      by_cases inside : InFile content e
      · exact ⟨_, (partition_loads narrow content he inside options.chunk).does.append done⟩
      · have role : classify e = .flash := by simpa using List.of_mem_filter he
        obtain ⟨err, refused⟩ := (Completion.readEntry_eq (role_size role (by decide))).2 inside
        rw [refused]
        exact ⟨_, (does_silent rfl).append done⟩
  obtain ⟨f, written⟩ := partitions _ fun e he => he
  rw [flash]
  by_cases loaderless : Completion.Loaderless info content
  · obtain ⟨err, refused⟩ := Completion.fdls_loaderless loaderless options.chunk
    rw [refused]
    exact ⟨_, ((does_silent rfl).append written).append (reset_does options.doReset)⟩
  · obtain ⟨⟨fdl1, found, -⟩, -⟩ := Completion.loaders_inFile loaderless
    exact ⟨_, ((fdls_does narrow content found loaderless options.chunk).append written).append
      (reset_does options.doReset)⟩

end Package

end Runs

section Flows

variable {σ : Type} [Device σ]

theorem openTransport_log (transport : Transport) (device : Option String) (s : Port σ) :
    (∃ t, openTransport transport device s = .ok () t ∧ t.log = s.log ++ [.opened]) ∨
      ∃ e t, openTransport transport device s = .error e t ∧ t.log = s.log := by
  cases transport with
  | usb => exact attach_log _ s
  | serial =>
    simp only [openTransport]
    split
    · exact .inr ⟨_, s, rfl, rfl⟩
    · exact attach_log _ s

def greeted (info : PacInfo) (content : Bytes) (options : FlashOptions) : List Step :=
  handshake ++ flash info content options

theorem flashPac_sent (path : PacFile) (options : FlashOptions) (s : Port σ) :
    sentCmds (final (flashPac path options s)).log = sentCmds s.log ∨
    ∃ info, Accepted path info ∧ ∃ part, part <+: commands (greeted info path.content options) ∧
      sentCmds (final (flashPac path options s)).log = sentCmds s.log ++ part := by
  by_cases usable : ∃ info, Accepted path info
  · obtain ⟨info, accepted⟩ := usable
    have sound : ∀ i ∈ handshake, halts i = false := by decide
    rw [flashPac_eq accepted]
    rcases openTransport_log options.transport options.device s with
      ⟨s₁, run, opened⟩ | ⟨e, t, run, same⟩
    · have silent : sentCmds s₁.log = sentCmds s.log := by
        rw [opened, sentCmds_append]
        exact List.append_nil _
      rw [bind_ok run]
      refine .inr ⟨info, accepted, ?_⟩
      rw [greeted, commands_append sound]
      cases greets : perform Step.exec handshake s₁ with
      | error e t =>
        obtain ⟨part, initial, written⟩ :=
          sent_traced.perform_error (fun _ _ => trivial) trivial greets
        rw [live_eq_self sound] at initial
        rw [bind_error greets]
        exact ⟨part, initial.trans (List.prefix_append _ _), silent ▸ written⟩
      | ok u s₂ =>
        obtain ⟨-, -, connected⟩ := sent_traced.perform_ok (fun _ _ => trivial) trivial greets
        obtain ⟨part, initial, written⟩ := perform_sent (flash info path.content options) s₂
        rw [bind_ok greets, closing_log, sentCmds_append, written, connected, silent]
        refine ⟨handshake.flatMap emits ++ part, (List.prefix_append_right_inj _).mpr initial, ?_⟩
        rw [List.append_assoc, List.append_assoc]
        exact congrArg _ (congrArg _ (List.append_nil _))
    · rw [bind_error run]
      exact .inl (congrArg sentCmds same)
  · obtain ⟨e, refused⟩ := flashPac_refused (fun info accepted => usable ⟨info, accepted⟩) options s
    rw [refused]
    exact .inl rfl

theorem handshake_does : Does handshake fun core => core :=
  (does_silent rfl).append ((does_silent rfl).append (connect_does "CONNECT"))

/-- A flow of which no run is refused by the strict modem and that writes the blocks in
their order, each run as many of them as it comes to. -/
def Keeps (flow : Session σ Unit) (blocks : List (Block UInt8)) : Prop :=
  ∀ (d : σ) (core : Core), core.job = none →
    let sents := sentCmds (final (flow (Port.fresh d))).log
    core.Content sents ∧ ∃ some, Part some blocks ∧
      (core.hears sents).memory = puts core.memory some

omit [Device σ] in
theorem quiet_keeps {flow : Session σ Unit} (quiet : ∀ (d : σ) (core : Core), core.job = none →
      core.hears (sentCmds (final (flow (Port.fresh d))).log) = core)
    (blocks : List (Block UInt8)) : Keeps flow blocks :=
  fun d core idle => ⟨congrArg Core.refused (quiet d core idle), [], Part.nil blocks,
    congrArg Core.memory (quiet d core idle)⟩

theorem begun_keeps {steps : List Step} {f : Core → Core} {blocks : List (Block UInt8)}
    (does : Does steps f) (starts : Starts steps blocks) {sents : List Sent}
    (begun : sents <+: commands steps) {core : Core} (idle : core.job = none) :
    core.Content sents ∧ ∃ some, Part some blocks ∧
      (core.hears sents).memory = puts core.memory some := by
  have clean : core.Content sents := (does.content idle).of_begun
    (begun.trans (commands_begun steps))
  refine ⟨clean, _, starts _ begun, ?_⟩
  rw [Core.memory_of_content clean, Core.pending, idle]
  rfl

variable {path : PacFile} {info : PacInfo} (accepted : Accepted path info)
include accepted

theorem nativeFlash_keeps {fdl1 : PacEntry} (found : fdl1Of info = some fdl1)
    (options : NativeOptions) :
    Keeps (σ := σ) (nativeFlash path options)
      (nativeBlocks info fdl1 path.content options.formatFs) := by
  have narrow := accepted_narrow accepted
  refine fun d core idle => begun_keeps (native_does narrow path.content fdl1 options)
    (native_starts narrow path.content found options) ?_ idle
  rcases nativeFlash_sent path options (Port.fresh d) with
    nothing | ⟨info', fdl1', accepted', found', part, initial, written⟩
  · rw [nothing]
    exact List.nil_prefix
  · cases accepted.parsed.symm.trans accepted'.parsed
    cases found.symm.trans found'
    rw [written]
    exact initial

theorem flashPac_begun (options : FlashOptions) (d : σ) :
    sentCmds (final (flashPac path options (Port.fresh d))).log <+:
      commands (handshake ++ flash info path.content options) := by
  rcases flashPac_sent path options (Port.fresh d) with
    nothing | ⟨info', accepted', part, initial, written⟩
  · rw [nothing]
    exact List.nil_prefix
  · cases accepted.parsed.symm.trans accepted'.parsed
    rw [written]
    exact initial

omit [Device σ] in
theorem flash_keeps (options : FlashOptions) {sents : List Sent}
    (begun : sents <+: commands (handshake ++ flash info path.content options)) {core : Core}
    (idle : core.job = none) :
    core.Content sents ∧ ∃ some, Part some (ownBlocks info path.content) ∧
      (core.hears sents).memory = puts core.memory some := by
  have narrow := accepted_narrow accepted
  obtain ⟨f, done⟩ := flash_takes narrow path.content options
  have silent : Yields handshake [] := yields_nil (by decide)
  exact begun_keeps (handshake_does.append done)
    ((flash_starts narrow path.content options).append silent) begun idle

theorem flashPac_keeps (options : FlashOptions) :
    Keeps (σ := σ) (flashPac path options) (ownBlocks info path.content) :=
  fun d _ idle => flash_keeps accepted options (flashPac_begun accepted options d) idle

end Flows

section Returns

variable {σ : Type} [Device σ]

omit [Device σ] in
theorem closing_returned {body : Session σ Unit} {s t : Port σ} (h : closing body s = .ok () t) :
    ∃ t', body s = .ok () t' ∧ t.log = t'.log ++ [.closed] := by
  obtain ⟨t', run⟩ := closing_ok ⟨t, h⟩
  have log := closing_log body s
  rw [h, run] at log
  exact ⟨t', run, log⟩

theorem perform_returned {steps : List Step} {s t : Port σ}
    (h : closing (perform Step.exec steps) s = .ok () t) :
    Sound steps ∧ sentCmds t.log = sentCmds s.log ++ steps.flatMap emits := by
  obtain ⟨t', run, log⟩ := closing_returned h
  obtain ⟨sound, -, written⟩ := sent_traced.perform_ok (fun _ _ => trivial) trivial run
  refine ⟨sound, ?_⟩
  rw [log, sentCmds_append, written]
  exact List.append_nil _

theorem nativeFlash_hears {path : PacFile} {options : NativeOptions} {d : σ} {t : Port σ}
    (h : nativeFlash path options (Port.fresh d) = .ok () t) :
    ∃ info fdl1, Accepted path info ∧ fdl1Of info = some fdl1 ∧
      ∀ core : Core, core.job = none → core.hears (sentCmds t.log) =
        core.installed info (nativeBlocks info fdl1 path.content options.formatFs)
          (nativeErases info options.formatFs) options.doReset := by
  rcases nativeFlash_run path options (Port.fresh d) with
    ⟨e, t', run, -⟩ | ⟨info, fdl1, accepted, found, s, opened, run⟩
  · rw [run] at h
    cases h
  · rw [run] at h
    obtain ⟨-, written⟩ := perform_returned h
    have nothing : sentCmds s.log = [] := by
      rw [opened]
      rfl
    refine ⟨info, fdl1, accepted, found, fun core idle => ?_⟩
    rw [written, nothing]
    exact (native_does (accepted_narrow accepted) path.content fdl1 options core idle).1

/-- Whatever the device: behind a run that returns a strict modem holds what the flow put
together for the package, which is every byte of its loaders and partitions where the
table keeps them apart. -/
theorem nativeFlash_returned {path : PacFile} {options : NativeOptions} {d : σ} {t : Port σ}
    (h : nativeFlash path options (Port.fresh d) = .ok () t) :
    ∃ info fdl1, Accepted path info ∧ fdl1Of info = some fdl1 ∧
      ∀ core : Core, core.job = none →
        core.hears (sentCmds t.log) =
          core.installed info (nativeBlocks info fdl1 path.content options.formatFs)
            (nativeErases info options.formatFs) options.doReset ∧
        (Placed info fdl1 path.content options.formatFs →
          ∀ e ∈ loaders info ++ flashableEntries info,
            Lies path.content (core.hears (sentCmds t.log)).memory e) := by
  obtain ⟨info, fdl1, accepted, found, hears⟩ := nativeFlash_hears h
  refine ⟨info, fdl1, accepted, found, fun core idle => ⟨hears core idle, fun placed => ?_⟩⟩
  rw [hears core idle]
  exact placed.lies path.content found core.memory

open PacImage

theorem package_nativeFlash_returned : ∃ t,
    nativeFlash (package 2) ⟨"COM3", 0, true, true⟩ (Port.fresh Acker.mk) = .ok () t ∧
      ((Core.blank.hears (sentCmds t.log)).memory 0x60010001 = some 0x22) ∧
      (Core.blank.hears (sentCmds t.log)).memory (0x60010000 + 2) =
        (package 2).content[payloadOffset 3 + 2 + 2]? := by
  obtain ⟨info, accepted, entries⟩ := package_accepted (show 2 < 2 ^ 32 by decide)
  have found := package_fdl1 entries
  have sound := (native_sound_iff (accepted_narrow accepted) found (package 2).content
    ⟨"COM3", 0, true, true⟩).mpr fun _ => package_roomy entries
  obtain ⟨t, -, ⟨-, run⟩ | ⟨⟨i, hi, stops⟩, -⟩⟩ :=
    nativeFlash_acknowledged accepted found ⟨"COM3", 0, true, true⟩ Acker.mk
  · obtain ⟨info', fdl1, accepted', found', hears⟩ := nativeFlash_returned run
    cases accepted.parsed.symm.trans accepted'.parsed
    cases found.symm.trans found'
    obtain ⟨installed, lies⟩ := hears Core.blank rfl
    have partition : entry ['A', 'P'] 0x60010000 (payloadOffset 3 + 2) 3 ∈
        loaders info ++ flashableEntries info := by
      rw [package_flashable entries (by decide)]
      simp
    refine ⟨t, run, ?_, lies (package_placed entries) _ partition 2 (by decide)⟩
    rw [installed, Core.installed, (package_blocks entries).1]
    rfl
  · rw [sound i hi] at stops
    cases stops

end Returns

section Attempts

/-- A modem switched off and on: what lies in its memory stays, an open transfer does not. -/
def Core.restarted (core : Core) : Core :=
  { core with loader := .rom, job := none, rebooted := false }

/-- Runs of some flows, each against a device of its own that may break it off anywhere.
The modem hears what the run has sent and is restarted behind it. -/
inductive Attempts (allowed : (∀ (σ : Type) [Device σ], Session σ Unit) → Prop) : Core → Core → Prop
  | never (core : Core) : Attempts allowed core core
  | again {core core' : Core} {flow : ∀ (σ : Type) [Device σ], Session σ Unit} (σ : Type) [Device σ]
      (d : σ) : allowed flow → Attempts allowed core core' →
        Attempts allowed core (core'.hears (sentCmds (final (flow σ (Port.fresh d))).log)).restarted

variable {allowed : (∀ (σ : Type) [Device σ], Session σ Unit) → Prop} {core core' : Core}

/-- What attempts leave as it was, if each of their flows keeps to some cells. -/
theorem Attempts.keep {covered : ℕ → Prop}
    (keeps : ∀ flow, allowed flow → ∀ (σ : Type) [Device σ],
      ∃ blocks, (∀ b ∈ blocks, ∀ a, b.Covers a → covered a) ∧ Keeps (flow σ) blocks)
    (h : Attempts allowed core core') (idle : core.job = none) :
    core'.job = none ∧ core'.refused = core.refused ∧
      ∀ a, ¬ covered a → core'.memory a = core.memory a := by
  induction h with
  | never => exact ⟨idle, rfl, fun _ _ => rfl⟩
  | again σ d mayRun earlier ih =>
    obtain ⟨between, clean, same⟩ := ih
    obtain ⟨blocks, inside, keeps⟩ := keeps _ mayRun σ
    obtain ⟨taken, some, part, memory⟩ := keeps d _ between
    refine ⟨rfl, taken.trans clean, fun a outside => Eq.trans ?_ (same a outside)⟩
    refine (congrFun memory a).trans (puts_outside (fun b mem reaches => outside ?_) _)
    obtain ⟨c, inBlocks, covers⟩ := part.covers mem reaches
    exact inside c inBlocks a covers

/-- Runs of either flow on one package, with any options. -/
inductive OnPackage (path : PacFile) : (∀ (σ : Type) [Device σ], Session σ Unit) → Prop
  | native (options : NativeOptions) : OnPackage path fun _ => nativeFlash path options
  | bsl (options : FlashOptions) : OnPackage path fun _ => flashPac path options

/-- An address in the range of an entry, which may be as long as a namesake of its kind. -/
def Reached (entries : List PacEntry) (a : ℕ) : Prop :=
  ∃ e ∈ entries, ∃ f ∈ entries, f.fileId = e.fileId ∧ classify f = classify e ∧
    e.address ≤ a ∧ a < e.address + f.size

section Ranges

variable {info : PacInfo} (content : Bytes)

theorem reached_of_read {e f : PacEntry} (he : e ∈ info.entries) (hf : f ∈ info.entries)
    (named : f.fileId = e.fileId) (kind : classify f = classify e) {a : ℕ}
    (covers : (⟨e.address, Native.readEntry content f⟩ : Block UInt8).Covers a) :
    Reached info.entries a := by
  have short := readEntry_length_le content f
  exact ⟨e, he, f, hf, named, kind, covers.1, covers.2.trans_le (Nat.add_le_add_left short _)⟩

theorem ownBlock_reached {e : PacEntry} (he : e ∈ info.entries) {a : ℕ}
    (covers : (ownBlock content e).Covers a) : Reached info.entries a :=
  reached_of_read content he he rfl rfl covers

theorem ownBlocks_reached {b : Block UInt8} (mem : b ∈ ownBlocks info content) {a : ℕ}
    (covers : b.Covers a) : Reached info.entries a := by
  obtain ⟨e, he, rfl⟩ := List.mem_map.mp mem
  refine ownBlock_reached content ?_ covers
  rcases List.mem_append.mp he with loader | partition
  · exact loader_mem loader
  · exact flashable_mem partition

theorem markerBlock_reached {e : PacEntry} (he : e ∈ dataMarkers info)
    (roomy : Roomy info content e)
    {a : ℕ} (covers : (block (writtenMarker info content e)).Covers a) :
    Reached info.entries a := by
  obtain ⟨mem, named⟩ := standIn_mem he
  have kind {f : PacEntry} (hf : f ∈ dataMarkers info) : classify f = .marker := by
    have kept := (List.mem_filter.mp hf).2
    simp only [Bool.and_eq_true, decide_eq_true_eq] at kept
    exact kept.1.1
  refine reached_of_read content (dataMarkers_mem he) (dataMarkers_mem mem) named
    ((kind mem).trans (kind he).symm) ?_
  have length : (block (writtenMarker info content e)).cells.length =
      (imageOf content (dataMarkers info) e).length := by
    rw [writtenMarker]
    by_cases isNv : upper e.fileId = nvId
    · rw [if_pos isNv]
      exact nvFixed_length (roomy isNv)
    · rw [if_neg isNv]
      rfl
  have base : (block (writtenMarker info content e)).base = e.address := by
    rw [writtenMarker]
    split <;> rfl
  rw [Block.Covers, length, base] at covers
  exact covers

theorem nativeBlocks_reached {fdl1 : PacEntry} (found : fdl1Of info = some fdl1) (formatFs : Bool)
    {b : Block UInt8} (mem : b ∈ nativeBlocks info fdl1 content formatFs) {a : ℕ}
    (covers : b.Covers a) : Reached info.entries a := by
  rcases List.mem_append.mp mem with image | marker
  · rcases List.mem_cons.mp image with rfl | image
    · exact ownBlock_reached content (find_role found).1 covers
    rcases List.mem_append.mp image with second | partition
    · obtain ⟨e, he, rfl⟩ := List.mem_map.mp second
      exact ownBlock_reached content (find_role (Option.mem_toList.mp he)).1 covers
    · obtain ⟨e, he, rfl⟩ := List.mem_map.mp partition
      obtain ⟨mem, named⟩ := standIn_mem he
      have kind {f : PacEntry} (hf : f ∈ flashableEntries info) : classify f = .flash := by
        simpa using (List.mem_filter.mp hf).2
      exact reached_of_read content (flashable_mem he) (flashable_mem mem) named
        ((kind mem).trans (kind he).symm) covers
  · cases formatFs with
    | false => simp at marker
    | true =>
      obtain ⟨e, he, inBlock⟩ := List.mem_flatMap.mp marker
      by_cases roomy : Roomy info content e
      · rw [if_pos roomy, List.mem_singleton] at inBlock
        rw [inBlock] at covers
        exact markerBlock_reached content he roomy covers
      · rw [if_neg roomy] at inBlock
        cases inBlock

end Ranges

theorem onPackage_keeps {path : PacFile} {info : PacInfo} (accepted : Accepted path info)
    {flow : ∀ (σ : Type) [Device σ], Session σ Unit} (mayRun : OnPackage path flow) (σ : Type)
    [Device σ] : ∃ blocks, (∀ b ∈ blocks, ∀ a, b.Covers a → Reached info.entries a) ∧
      Keeps (flow σ) blocks := by
  cases mayRun with
  | native options =>
    cases found : fdl1Of info with
    | some fdl1 =>
      exact ⟨_, fun b mem a covers => nativeBlocks_reached path.content found _ mem covers,
        nativeFlash_keeps accepted found options⟩
    | none =>
      refine ⟨[], by simp, quiet_keeps (fun d core idle => ?_) []⟩
      have loaderless : ∀ info' fdl1, Accepted path info' → fdl1Of info' ≠ some fdl1 := by
        intro info' fdl1 accepted'
        cases accepted.parsed.symm.trans accepted'.parsed
        simp [found]
      obtain ⟨e, refused⟩ := nativeFlash_refused loaderless options (Port.fresh d)
      simp only [refused]
      rfl
  | bsl options =>
    exact ⟨_, fun b mem a covers => ownBlocks_reached path.content mem covers,
      flashPac_keeps accepted options⟩

/-- Whatever devices they run against and wherever they break off, runs on a package send
no command that a modem between two transfers refuses, and touch no cell outside the ranges
of its table. -/
theorem attempts_harmless {path : PacFile} {info : PacInfo} (accepted : Accepted path info)
    (idle : core.job = none) (h : Attempts (OnPackage path) core core') :
    core'.refused = core.refused ∧
      (∀ a, core'.memory a ≠ core.memory a → Reached info.entries a) ∧
      ((info.entries.map PacEntry.fileId).Nodup → ∀ a, core'.memory a ≠ core.memory a →
        ∃ e ∈ info.entries, e.address ≤ a ∧ a < e.address + e.size) := by
  obtain ⟨-, clean, outside⟩ := h.keep (fun flow mayRun σ _ =>
    onPackage_keeps accepted mayRun σ) idle
  have reached (a : ℕ) (changed : core'.memory a ≠ core.memory a) : Reached info.entries a :=
    not_not.mp fun bare => changed (outside a bare)
  refine ⟨clean, reached, fun distinct a changed => ?_⟩
  obtain ⟨e, he, f, hf, named, -, range⟩ := reached a changed
  cases List.inj_on_of_nodup_map distinct hf he named
  exact ⟨e, he, range⟩

open PacImage in
theorem package_attempts_harmless : ∃ core',
    Attempts (OnPackage (package 2)) Core.blank core' ∧ core'.refused = [] ∧
      core'.memory 0x60010003 = none := by
  obtain ⟨info, accepted, entries⟩ := package_accepted (show 2 < 2 ^ 32 by decide)
  have runs : Attempts (OnPackage (package 2)) Core.blank _ :=
    .again Acker Acker.mk (.native ⟨"COM3", 0, true, true⟩)
      (.again Acker Acker.mk (.bsl ⟨.usb, none, defaultChunk, true⟩) (.never _))
  obtain ⟨clean, -, own⟩ := attempts_harmless accepted rfl runs
  refine ⟨_, runs, clean, not_not.mp fun changed => ?_⟩
  obtain ⟨e, he, range⟩ := own (by rw [entries]; decide) _ changed
  rw [entries] at he
  revert e
  decide

end Attempts

end SprdFlash.Modem
