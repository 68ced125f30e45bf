import SprdFlash.Acknowledging
import SprdFlash.PacImage
import SprdFlash.Package

/-!
The second phase is fail-stop. Whatever the device replies, the frames written
behind the VER frame are an initial part of those an acknowledging device gets
for the same package, and a run that returns has written all of them and read
an ACK for each but the reset and the end of an NV image.
-/

namespace SprdFlash.FailStop

open Message Port Pac SpdIO Flasher Native Struct Script Plan Exchange WireLog Runs Package
open Acknowledging

def isVersion : Act → Bool
  | .version _ => true
  | _ => false

/-- The part of a log behind the VER frame. -/
def afterVersion (log : List Act) : List Act := (log.dropWhile fun act => !isVersion act).tail

def writtenBytes : Act → Option Bytes
  | .wrote bs => some bs
  | _ => none

def replyBody : Act → Option Bytes
  | .reply body => some body
  | _ => none

def frames (log : List Act) : List Bytes := log.filterMap writtenBytes

def replies (log : List Act) : List Bytes :=
  (log.takeWhile fun act => (writtenBytes act).isNone).filterMap replyBody

def exchanges : List Act → List (Bytes × List Bytes)
  | [] => []
  | .wrote bs :: rest => (bs, replies rest) :: exchanges rest
  | _ :: rest => exchanges rest

/-- Every frame but a reset has one reply, an ACK or, for an END_DATA after the
START_DATA of an NV image, any well-formed frame. -/
inductive Obeyed : Bool → List (Bytes × List Bytes) → Prop
  | done (nv : Bool) : Obeyed nv []
  | reset {nv : Bool} {bs data : Bytes} {replies : List Bytes} {rest : List (Bytes × List Bytes)}
      (frame : decodeWrite bs = some (.bsl bslCmdNormalReset data)) (later : Obeyed nv rest) :
      Obeyed nv ((bs, replies) :: rest)
  | answered {nv : Bool} {cmd rtype : ℕ} {bs data body rdata : Bytes}
      {rest : List (Bytes × List Bytes)} (frame : decodeWrite bs = some (.bsl cmd data))
      (reply : parseMessage body = .ok (rtype, rdata))
      (acked : rtype = bslRepAck ∨ nv = true ∧ cmd = bslCmdEndData)
      -- an NV image is opened by a START_DATA of three words
      (later : Obeyed (if cmd = bslCmdStartData then data.length = 12 else nv) rest) :
      Obeyed nv ((bs, [body]) :: rest)

def Quiet (log : List Act) : Prop := ∀ act ∈ log, isVersion act = false

theorem Quiet.append {xs ys : List Act} (hx : Quiet xs) (hy : Quiet ys) : Quiet (xs ++ ys) := by
  intro act hact
  rcases List.mem_append.mp hact with hact | hact
  · exact hx act hact
  · exact hy act hact

theorem afterVersion_quiet {log : List Act} (quiet : Quiet log) : afterVersion log = [] := by
  have all : log.dropWhile (fun act => !isVersion act) = [] :=
    List.dropWhile_eq_nil_iff.mpr fun act hact => by simp [quiet act hact]
  rw [afterVersion, all, List.tail_nil]

theorem afterVersion_append {before : List Act} (quiet : Quiet before) (v : Bytes)
    (rest : List Act) : afterVersion (before ++ .version v :: rest) = rest := by
  rw [afterVersion, List.dropWhile_append_of_pos fun act hact => by simp [quiet act hact],
    List.dropWhile_cons_of_neg (by simp [isVersion]), List.tail_cons]

theorem frames_append (xs ys : List Act) : frames (xs ++ ys) = frames xs ++ frames ys :=
  List.filterMap_append

def Plain : Step → Prop
  | .handOver => False
  | .autobaud _ => False
  | _ => True

def Bsl : Step → Prop
  | .command _ _ _ => True
  | .lenient _ _ _ => True
  | .send _ _ => True
  | .fail _ => True
  | _ => False

theorem Bsl.plain {i : Step} (h : Bsl i) : Plain i := by
  cases i with
  | handOver => exact h
  | autobaud attempts => exact h
  | _ => trivial

theorem quiet_pdlActs (payload : Bytes) : Quiet (pdlActs payload) := by
  simp [Quiet, pdlActs, isVersion]

theorem quiet_kicks {acts : List Act} (h : ∀ act ∈ acts, act = .wrote [hdlcFlag]) : Quiet acts := by
  intro act hact
  rw [h act hact]
  rfl

variable {σ : Type} [Device σ]

theorem exec_quiet {i : Step} (plain : Plain i) :
    Appends (σ := Port σ) Port.log (fun act => isVersion act = false) i.exec := by
  refine exec_appends (fun _ => rfl) (fun _ => rfl) (fun _ => rfl) fun sought => ?_
  rcases sought with rfl | ⟨attempts, rfl⟩
  · exact plain.elim
  · exact plain.elim

omit [Device σ] in
theorem plain_loader (fdl1 : PacEntry) (data : Bytes) (endChecksum : UInt32) :
    ∀ i ∈ loader fdl1 data endChecksum, Plain i := by
  rw [loader, image, List.forall_mem_cons, List.forall_mem_cons, List.forall_mem_append,
    List.forall_mem_map]
  refine ⟨trivial, trivial, fun block _ =>
    trivial, forall_given (fun _ => trivial) _ fun trailer => ?_⟩
  rw [List.forall_mem_singleton]
  trivial

/-- A plan of two phases raises before the VER frame, or its second phase runs
behind it. -/
theorem run_split (fdl1 : PacEntry) (data : Bytes) (endChecksum : UInt32) (rest : List Step)
    {s : Port σ} (quiet : Quiet s.log) :
    (∃ e t, perform Step.exec (loader fdl1 data endChecksum ++
        .handOver :: .setChecksum .sprd :: rest) s = .error e t ∧ Quiet t.log) ∨
      ∃ t before v, Quiet before ∧ t.log = before ++ [.version v] ∧ t.checksum = .sprd ∧
        perform Step.exec (loader fdl1 data endChecksum ++
          .handOver :: .setChecksum .sprd :: rest) s = perform Step.exec rest t := by
  obtain ⟨acts, silent, written⟩ := perform_appends
    (fun i hi => exec_quiet (plain_loader fdl1 data endChecksum i hi)) s
  rw [perform_append]
  cases loaded : perform Step.exec (loader fdl1 data endChecksum) s with
  | error e t =>
    rw [loaded] at written
    refine .inl ⟨e, t, bind_error loaded, ?_⟩
    rw [show t.log = s.log ++ acts from written]
    exact quiet.append silent
  | ok u s₁ =>
    rw [loaded] at written
    have quiet₁ : Quiet s₁.log := by
      rw [show s₁.log = s.log ++ acts from written]
      exact quiet.append silent
    rw [bind_ok loaded, perform, Step.exec]
    cases handed : handOver s₁ with
    | error e t =>
      obtain ⟨done, kicks, part, flags, log⟩ := handOver_error handed
      refine .inl ⟨e, t, bind_error handed, ?_⟩
      rw [log]
      have first : Quiet done := fun act hact => quiet_pdlActs _ act (part.subset hact)
      exact quiet₁.append (first.append (quiet_kicks flags))
    | ok u s₂ =>
      obtain ⟨kicks, v, flags, log⟩ := handOver_ok handed
      refine .inr ⟨{ s₂ with checksum := .sprd }, s₁.log ++ (execActs ++ kicks), v, ?_, ?_, rfl, ?_⟩
      · exact quiet₁.append ((quiet_pdlActs _).append (quiet_kicks flags))
      · rw [List.append_assoc]
        exact log
      · rw [bind_ok handed]
        rfl

def framesOf : Step → List Bytes
  | .command cmd data _ => [wireMessage cmd data .sprd]
  | .lenient cmd data _ => [wireMessage cmd data .sprd]
  | .send cmd data => [wireMessage cmd data .sprd]
  | _ => []

theorem frames_wrote (bs : Bytes) {acts : List Act} (h : Replies acts) :
    frames (.wrote bs :: acts) = [bs] := by
  have none : frames acts = [] := by
    rw [frames, List.filterMap_eq_nil_iff]
    intro act hact
    obtain ⟨body, rfl⟩ := h act hact
    rfl
  rw [frames, List.filterMap_cons_some (show writtenBytes (.wrote bs) = some bs from rfl)]
  exact congrArg (bs :: ·) none

theorem command_frames {cmd : ℕ} {data : Bytes} {what : String} {s t : Port σ} {e : Exc}
    (mode : s.checksum = .sprd) (h : command cmd data bslRepAck what s = .error e t) :
    ∃ part, part <+: [wireMessage cmd data .sprd] ∧
      (decide (¬ Framable cmd data) = true → part = []) ∧ frames t.log = frames s.log ++ part := by
  rcases command_error h with ⟨large, same, _⟩ | ⟨fits, _, read, plain, written, _⟩
  · exact ⟨[], List.nil_prefix, fun _ => rfl, by rw [same, List.append_nil]⟩
  · refine ⟨[wireMessage cmd data .sprd], List.prefix_rfl, by simp [fits], ?_⟩
    rw [written, frames_append, mode, frames_wrote _ plain]

theorem frames_traced : Traced (Step.exec (σ := σ)) Bsl (fun s => s.checksum = .sprd)
    (fun s => frames s.log) framesOf halts where
  ok := by
    intro i s t bsl mode run
    cases i with
    | command cmd data what =>
      obtain ⟨rdata, hcommand⟩ := voided_ok run
      obtain ⟨fits, same, body, written, -⟩ := command_ok hcommand
      refine ⟨by simp [halts, fits], same.trans mode, ?_⟩
      rw [written, frames_append, mode, frames_wrote _ (by simp [Replies])]
      rfl
    | lenient cmd data what =>
      rcases tolerating_ok run with returned | ⟨msg, refused⟩
      · obtain ⟨rdata, hcommand⟩ := voided_ok returned
        obtain ⟨fits, same, body, written, -⟩ := command_ok hcommand
        refine ⟨by simp [halts, fits], same.trans mode, ?_⟩
        rw [written, frames_append, mode, frames_wrote _ (by simp [Replies])]
        rfl
      · rcases command_error (voided_error refused) with
          ⟨-, -, other⟩ | ⟨fits, same, read, plain, written, -⟩
        · exact absurd rfl (other msg)
        · refine ⟨by simp [halts, fits], same.trans mode, ?_⟩
          rw [written, frames_append, mode, frames_wrote _ plain]
          rfl
    | send cmd data =>
      obtain ⟨fits, same, written⟩ := send_ok run
      refine ⟨by simp [halts, fits], same.trans mode, ?_⟩
      rw [written, frames_append, mode, frames_wrote _ (by simp [Replies])]
      rfl
    | fail e => cases run
    | _ => exact bsl.elim
  error := by
    intro i s e t bsl mode run
    cases i with
    | command cmd data what => exact command_frames mode (voided_error run)
    | lenient cmd data what => exact command_frames mode (voided_error (tolerating_error run))
    | send cmd data =>
      rcases (send_error run).2 with ⟨large, same⟩ | ⟨fits, -, written⟩
      · exact ⟨[], List.nil_prefix, fun _ => rfl, by rw [same, List.append_nil]⟩
      · refine ⟨[wireMessage cmd data .sprd], List.prefix_rfl, by simp [halts, fits], ?_⟩
        rw [written, frames_append, mode, frames_wrote _ (by simp [Replies])]
    | fail e =>
      cases run
      exact ⟨[], List.nil_prefix, fun _ => rfl, by rw [List.append_nil]⟩
    | _ => exact bsl.elim

theorem frames_after {rest : List Step} (bsl : ∀ i ∈ rest, Bsl i) {s : Port σ}
    (mode : s.checksum = .sprd) :
    ∃ acts, (final (perform Step.exec rest s)).log = s.log ++ acts ∧
      frames acts <+: (live halts rest).flatMap framesOf ∧
      ((∃ t, perform Step.exec rest s = .ok () t) →
        frames acts = (live halts rest).flatMap framesOf) := by
  obtain ⟨acts, -, written⟩ := perform_appends (fun i hi => exec_quiet (bsl i hi).plain) s
  refine ⟨acts, written, ?_⟩
  cases run : perform Step.exec rest s with
  | ok u t =>
    obtain ⟨sound, -, all⟩ := frames_traced.perform_ok bsl mode run
    rw [run] at written
    rw [show t.log = s.log ++ acts from written, frames_append, List.append_cancel_left_eq,
      ← live_eq_self sound] at all
    rw [live_eq_self sound] at all ⊢
    exact ⟨all ▸ List.prefix_rfl, fun _ => all⟩
  | error e t =>
    obtain ⟨part, initial, some⟩ := frames_traced.perform_error bsl mode run
    rw [run] at written
    rw [show t.log = s.log ++ acts from written, frames_append, List.append_cancel_left_eq] at some
    exact ⟨some ▸ initial, fun returned => by simp at returned⟩

section Replies

def Block : Step → List Act → Prop
  | .command cmd data _, acts => Framable cmd data ∧ ∃ body rdata,
      acts = [.wrote (wireMessage cmd data .sprd), .reply body] ∧
        parseMessage body = .ok (bslRepAck, rdata)
  | .lenient cmd data _, acts => Framable cmd data ∧ ∃ body m,
      acts = [.wrote (wireMessage cmd data .sprd), .reply body] ∧ parseMessage body = .ok m
  | .send cmd data, acts => Framable cmd data ∧ acts = [.wrote (wireMessage cmd data .sprd)]
  | _, _ => False

theorem exec_block {i : Step} {s t : Port σ} (bsl : Bsl i) (mode : s.checksum = .sprd)
    (run : i.exec s = .ok () t) :
    t.checksum = .sprd ∧ ∃ block, Block i block ∧ t.log = s.log ++ block := by
  cases i with
  | command cmd data what =>
    obtain ⟨rdata, hcommand⟩ := voided_ok run
    obtain ⟨fits, same, body, written, parsed⟩ := command_ok hcommand
    rw [mode] at written
    exact ⟨same.trans mode, _, ⟨fits, body, rdata, rfl, parsed⟩, written⟩
  | lenient cmd data what =>
    rcases tolerating_ok run with returned | ⟨msg, refused⟩
    · obtain ⟨rdata, hcommand⟩ := voided_ok returned
      obtain ⟨fits, same, body, written, parsed⟩ := command_ok hcommand
      rw [mode] at written
      exact ⟨same.trans mode, _, ⟨fits, body, _, rfl, parsed⟩, written⟩
    · rcases command_error (voided_error refused) with
        ⟨-, -, other⟩ | ⟨fits, same, read, plain, written, answered⟩
      · exact absurd rfl (other msg)
      · obtain ⟨body, m, rfl, parsed⟩ := answered msg rfl
        rw [mode] at written
        exact ⟨same.trans mode, _, ⟨fits, body, m, rfl, parsed⟩, written⟩
  | send cmd data =>
    obtain ⟨fits, same, written⟩ := send_ok run
    rw [mode] at written
    exact ⟨same.trans mode, _, ⟨fits, rfl⟩, written⟩
  | fail e => cases run
  | _ => exact bsl.elim

/-- The only replies that may be refused are those to the END_DATA of an NV
image, and the only ones that are not read are those to a reset. -/
def Marked (nv : Bool) : List Step → Prop
  | [] => True
  | .command cmd data _ :: rest =>
    Marked (if cmd = bslCmdStartData then data.length = 12 else nv) rest
  | .lenient cmd _ _ :: rest => nv = true ∧ cmd = bslCmdEndData ∧ Marked nv rest
  | .send cmd _ :: rest => cmd = bslCmdNormalReset ∧ Marked nv rest
  | _ :: rest => Marked nv rest

omit [Device σ] in
theorem replies_blocks {steps : List Step} {blocks : List (List Act)}
    (h : List.Forall₂ Block steps blocks) : replies (blocks.flatten ++ [.closed]) = [] := by
  cases h with
  | nil => rfl
  | @cons i block steps blocks hblock hblocks =>
    have opens : ∃ bs rest, block = .wrote bs :: rest := by
      cases i with
      | command cmd data what =>
        obtain ⟨-, body, rdata, rfl, -⟩ := hblock
        exact ⟨_, _, rfl⟩
      | lenient cmd data what =>
        obtain ⟨-, body, m, rfl, -⟩ := hblock
        exact ⟨_, _, rfl⟩
      | send cmd data =>
        obtain ⟨-, rfl⟩ := hblock
        exact ⟨_, _, rfl⟩
      | _ => exact hblock.elim
    obtain ⟨bs, rest, rfl⟩ := opens
    rfl

theorem obeyed_blocks {steps : List Step} {blocks : List (List Act)}
    (h : List.Forall₂ Block steps blocks) {nv : Bool} (marked : Marked nv steps) :
    Obeyed nv (exchanges (blocks.flatten ++ [.closed])) := by
  induction h generalizing nv with
  | nil => exact .done nv
  | @cons i block steps blocks hblock hblocks ih =>
    have silent := replies_blocks hblocks
    rw [List.flatten_cons, List.append_assoc]
    cases i with
    | command cmd data what =>
      obtain ⟨fits, body, rdata, rfl, parsed⟩ := hblock
      have one : replies (.reply body :: (blocks.flatten ++ [.closed])) = [body] :=
        congrArg (body :: ·) silent
      rw [List.cons_append, List.singleton_append, exchanges, one]
      exact .answered (decodeWrite_wireMessage fits .sprd) parsed (.inl rfl) (ih marked)
    | lenient cmd data what =>
      obtain ⟨fits, body, m, rfl, parsed⟩ := hblock
      obtain ⟨inNv, rfl, marked⟩ := marked
      have one : replies (.reply body :: (blocks.flatten ++ [.closed])) = [body] :=
        congrArg (body :: ·) silent
      rw [List.cons_append, List.singleton_append, exchanges, one]
      exact .answered (decodeWrite_wireMessage fits .sprd) parsed (.inr ⟨inNv, rfl⟩) (ih marked)
    | send cmd data =>
      obtain ⟨fits, rfl⟩ := hblock
      obtain ⟨rfl, marked⟩ := marked
      exact .reset (decodeWrite_wireMessage fits .sprd) (ih marked)
    | _ => exact hblock.elim

theorem marked_append {xs ys : List Step} {nv : Bool} (hx : Marked nv xs)
    (hy : ∀ nv, Marked nv ys) : Marked nv (xs ++ ys) := by
  induction xs generalizing nv with
  | nil => exact hy nv
  | cons i xs ih =>
    cases i with
    | lenient cmd data what => exact ⟨hx.1, hx.2.1, ih hx.2.2⟩
    | send cmd data => exact ⟨hx.1, ih hx.2⟩
    | _ => exact ih hx

theorem marked_flatMap {α : Type} {items : List α} {f : α → List Step}
    (h : ∀ a ∈ items, ∀ nv, Marked nv (f a)) (nv : Bool) : Marked nv (items.flatMap f) := by
  induction items generalizing nv with
  | nil => trivial
  | cons a items ih =>
    rw [List.flatMap_cons]
    exact marked_append (h a List.mem_cons_self nv) (ih fun b hb => h b (List.mem_cons_of_mem a hb))

theorem marked_given {α : Type} (x : Except Exc α) {steps : α → List Step} {nv : Bool}
    (h : ∀ a, x = .ok a → Marked nv (steps a)) : Marked nv (given x steps) := by
  cases x with
  | ok a => exact h a rfl
  | error e => trivial

theorem marked_pieces (pieces : List Bytes) (what : String) {rest : List Step} {nv : Bool}
    (h : Marked nv rest) :
    Marked nv (pieces.map (.command bslCmdMidstData · what) ++ rest) := by
  induction pieces with
  | nil => exact h
  | cons piece pieces ih => exact ih

theorem marked_stage (addr : ℕ) (data : Bytes) (chunk : ℕ+) (nv : Bool) :
    Marked nv (stage addr data chunk) :=
  marked_given _ fun _ _ => marked_pieces _ _ trivial

theorem marked_nv (addr : ℕ) (template : Bytes) (nv : Bool) :
    Marked nv (Plan.nv addr template) := by
  refine marked_given _ fun data _ => marked_given _ fun start packed => ?_
  have length : start.length = 12 := by
    rw [(pack_eq_ok packed).2, fields_length]
    rfl
  refine marked_pieces _ _ ?_
  rw [if_pos rfl]
  exact ⟨by simp [length], rfl, trivial⟩

theorem marked_phase (info : PacInfo) (content : Bytes) (formatFs doReset nv : Bool) :
    Marked nv (bslWrites info content formatFs ++ reset doReset) := by
  have last : ∀ nv, Marked nv (reset doReset) := by
    intro nv
    cases doReset with
    | false => trivial
    | true => exact ⟨rfl, trivial⟩
  have loaded : ∀ nv data, Marked nv (fdl2Load (fdl2Of info) data) := by
    intro nv data
    cases fdl2Of info with
    | none => trivial
    | some fdl2 => exact marked_append (marked_stage _ _ _ nv) fun _ => trivial
  have partitions : ∀ nv, Marked nv ((flashableEntries info).flatMap
      (fromDict (imageDict content (flashableEntries info)) writePartition)) :=
    marked_flatMap fun e _ nv => marked_given _ fun data _ => marked_stage _ _ _ nv
  have erases : ∀ nv, Marked nv ((eraseOps info).flatMap eraseStep) :=
    marked_flatMap fun op _ nv => by
      rw [eraseStep]
      exact marked_given _ fun target _ => trivial
  have markers : ∀ nv, Marked nv (if formatFs then format info content else []) := by
    intro nv
    cases formatFs with
    | false => trivial
    | true =>
      refine marked_append (erases nv) (marked_flatMap fun e _ nv =>
        marked_given _ fun data _ => ?_)
      unfold writeMarkerSteps
      split
      · exact marked_nv _ _ nv
      · exact marked_stage _ _ _ nv
  refine marked_append (marked_append ?_ fun nv => marked_append (partitions nv) markers) last
  exact loaded _ _

end Replies

theorem bsl_phase (info : PacInfo) (content : Bytes) (formatFs doReset : Bool) :
    ∀ i ∈ bslWrites info content formatFs ++ reset doReset, Bsl i := by
  rw [List.forall_mem_append]
  refine ⟨fun i hi => ?_, fun i hi => ?_⟩
  · have exchanged := exchanged_bslWrites info content formatFs i hi
    cases i with
    | command cmd data what => trivial
    | lenient cmd data what => trivial
    | fail e => trivial
    | _ => exact exchanged.elim
  · rw [mem_reset hi]
    trivial

theorem native_phases (info : PacInfo) (fdl1 : PacEntry) (content : Bytes)
    (options : NativeOptions) : native info fdl1 content options =
      loader fdl1 (Native.readEntry content fdl1) options.fdl1EndChecksum ++
        .handOver :: .setChecksum .sprd ::
          (bslWrites info content options.formatFs ++ reset options.doReset) := by
  simp [native]

def phaseFrames (info : PacInfo) (content : Bytes) (options : NativeOptions) : List Bytes :=
  (live halts (bslWrites info content options.formatFs ++ reset options.doReset)).flatMap framesOf

/-- A run against any device. -/
theorem native_frames (info : PacInfo) (fdl1 : PacEntry) (content : Bytes)
    (options : NativeOptions) {s : Port σ} (quiet : Quiet s.log) :
    frames (afterVersion ((final (perform Step.exec (native info fdl1 content options) s)).log ++
        [.closed])) <+: phaseFrames info content options ∧
      ((∃ t, perform Step.exec (native info fdl1 content options) s = .ok () t) →
        frames (afterVersion
          ((final (perform Step.exec (native info fdl1 content options) s)).log ++ [.closed])) =
            phaseFrames info content options ∧
        Obeyed false (exchanges (afterVersion
          ((final (perform Step.exec (native info fdl1 content options) s)).log ++
            [.closed])))) := by
  have bsl := bsl_phase info content options.formatFs options.doReset
  rw [native_phases]
  rcases run_split fdl1 (Native.readEntry content fdl1) options.fdl1EndChecksum
      (bslWrites info content options.formatFs ++ reset options.doReset) quiet with
    ⟨e, t, run, silent⟩ | ⟨t, before, v, silent, log, mode, run⟩
  · have closed : Quiet (t.log ++ [.closed]) := silent.append (by simp [Quiet, isVersion])
    rw [run, final, afterVersion_quiet closed]
    exact ⟨List.nil_prefix, fun returned => by simp at returned⟩
  · obtain ⟨acts, written, initial, whole⟩ := frames_after bsl mode
    have behind : afterVersion ((final (perform Step.exec
        (bslWrites info content options.formatFs ++ reset options.doReset) t)).log ++ [.closed]) =
        acts ++ [.closed] := by
      rw [written, log, List.append_assoc, List.append_assoc, List.singleton_append,
        afterVersion_append silent]
    have same : frames (acts ++ [.closed]) = frames acts := by
      rw [frames_append]
      exact List.append_nil _
    rw [run, behind, same]
    refine ⟨initial, fun returned => ⟨whole returned, ?_⟩⟩
    obtain ⟨u, returned⟩ := returned
    obtain ⟨blocks, hblocks, added⟩ := perform_blocks exec_block bsl mode returned
    rw [returned, final, added, List.append_cancel_left_eq] at written
    rw [← written]
    exact obeyed_blocks hblocks (marked_phase info content options.formatFs options.doReset false)

omit [Device σ] in
theorem live_native {info : PacInfo} {fdl1 : PacEntry} (narrow : Narrow info.entries)
    (found : fdl1Of info = some fdl1) (content : Bytes) (options : NativeOptions) :
    live halts (native info fdl1 content options) =
      loader fdl1 (Native.readEntry content fdl1) options.fdl1EndChecksum ++
        .handOver :: .setChecksum .sprd :: live halts
          (bslWrites info content options.formatFs ++ reset options.doReset) := by
  have bounds := loaderEntry_narrow narrow found content
  rw [native_phases, live_append_of_forall _
    (loader_sound bounds.1 bounds.2 options.fdl1EndChecksum)]
  rfl

/-- A run against an acknowledging device. -/
theorem acknowledged_frames [AckDevice σ] {path : PacFile} {info : PacInfo} {fdl1 : PacEntry}
    (accepted : Accepted path info) (found : fdl1Of info = some fdl1) (options : NativeOptions)
    (d : σ) :
    frames (afterVersion (final (nativeFlash path options (Port.fresh d))).log) =
      phaseFrames info path.content options := by
  obtain ⟨s, t, opened, reached, log⟩ := nativeFlash_live accepted found options d
  have quiet : Quiet s.log := by
    rw [opened]
    simp [Quiet, isVersion]
  have runs : ∀ i ∈ live halts
      (bslWrites info path.content options.formatFs ++ reset options.doReset), halts i = false :=
    fun i hi => by simpa using List.mem_takeWhile_imp hi
  rw [live_native (accepted_narrow accepted) found] at reached
  rcases run_split fdl1 (Native.readEntry path.content fdl1) options.fdl1EndChecksum
      (live halts (bslWrites info path.content options.formatFs ++
        reset options.doReset)) quiet with
    ⟨e, t', run, -⟩ | ⟨t', before, v, silent, log', mode, run⟩
  · rw [reached] at run
    cases run
  · rw [reached] at run
    have bsl : ∀ i ∈ live halts
        (bslWrites info path.content options.formatFs ++ reset options.doReset), Bsl i :=
      fun i hi => bsl_phase info path.content options.formatFs options.doReset i
        (List.takeWhile_subset _ hi)
    obtain ⟨acts, written, -, whole⟩ := frames_after bsl mode
    have all := whole ⟨t, run.symm⟩
    rw [live_eq_self runs] at all
    rw [← run, final, log'] at written
    rw [log, written, List.append_assoc, List.append_assoc, List.singleton_append,
      afterVersion_append silent, frames_append, all]
    exact List.append_nil _

/-- The second phase is fail-stop. -/
theorem nativeFlash_failStop {τ : Type} [Device τ] [AckDevice τ] (d : σ) (acker : τ)
    (path : PacFile) (options : NativeOptions) :
    frames (afterVersion (final (nativeFlash path options (Port.fresh d))).log) <+:
        frames (afterVersion (final (nativeFlash path options (Port.fresh acker))).log) ∧
      ((∃ t, nativeFlash path options (Port.fresh d) = .ok () t) →
        frames (afterVersion (final (nativeFlash path options (Port.fresh d))).log) =
          frames (afterVersion (final (nativeFlash path options (Port.fresh acker))).log) ∧
        Obeyed false
          (exchanges (afterVersion (final (nativeFlash path options (Port.fresh d))).log))) := by
  rcases nativeFlash_run path options (Port.fresh d) with
    ⟨e, t, run, same⟩ | ⟨info, fdl1, accepted, found, s, opened, run⟩
  · rw [run, final, same]
    exact ⟨List.nil_prefix, fun returned => by simp at returned⟩
  · have quiet : Quiet s.log := by
      rw [opened]
      simp [Quiet, isVersion, Port.fresh]
    obtain ⟨initial, whole⟩ := native_frames info fdl1 path.content options quiet
    rw [acknowledged_frames accepted found options acker, run, closing_log]
    exact ⟨initial, fun returned => whole (closing_ok returned)⟩

section Package

open PacImage

theorem package_returns :
    ∃ t, nativeFlash (package 2) ⟨"COM3", 0, true, true⟩ (Port.fresh Acker.mk) = .ok () t := by
  have small : 2 < 2 ^ 32 := by decide
  obtain ⟨info, accepted, entries⟩ := package_accepted small
  have found := package_fdl1 entries
  have markers := package_markers entries (by decide)
  have alone : standIn [entry nvId 0xFE000003 (payloadOffset 3 + 5) 2]
      (entry nvId 0xFE000003 (payloadOffset 3 + 5) 2) =
        entry nvId 0xFE000003 (payloadOffset 3 + 5) 2 := rfl
  have slot : Native.readEntry (package 2).content (entry nvId 0xFE000003 (payloadOffset 3 + 5) 2) =
      [0x31, 0x32] := readAt_image "package.pac" (package_layable small) 5 2
  have sound := (native_sound_iff (accepted_narrow accepted) found (package 2).content
    ⟨"COM3", 0, true, true⟩).mpr fun _ e he _ => by
      rw [markers, List.mem_singleton] at he
      rw [he, imageOf, markers, alone, slot]
      decide
  obtain ⟨t, -, ⟨-, returned⟩ | ⟨⟨i, hi, stop⟩, -⟩⟩ :=
    nativeFlash_acknowledged accepted found ⟨"COM3", 0, true, true⟩ Acker.mk
  · exact ⟨t, returned⟩
  · rw [sound i hi] at stop
    cases stop

theorem package_obeyed : ∃ t,
    nativeFlash (package 2) ⟨"COM3", 0, true, true⟩ (Port.fresh Acker.mk) = .ok () t ∧
      Obeyed false (exchanges (afterVersion t.log)) := by
  obtain ⟨t, returned⟩ := package_returns
  have obeyed := ((nativeFlash_failStop Acker.mk Acker.mk (package 2) ⟨"COM3", 0, true, true⟩).2
    ⟨t, returned⟩).2
  rw [returned] at obeyed
  exact ⟨t, returned, obeyed⟩

end Package

end SprdFlash.FailStop
