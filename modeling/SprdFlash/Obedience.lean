import SprdFlash.Modem
import SprdFlash.Completion
import SprdFlash.NvWrite
import Mathlib.Data.List.Nodup

/-!
What the strict modem makes of the commands of a plan. Every transfer of a plan is
taken whole, so its image lies in the memory behind it, and nothing is refused. What a
run without refusals leaves in the memory are the images of its transfers, each as far
as it came.
-/

namespace SprdFlash.Modem

open Message Port Pac Flasher Native Struct Plan Exchange WireLog Transfers Package Overlay

/-- Where the image of a transfer goes. -/
def block (t : Transfer) : Block UInt8 := ⟨t.address, t.image⟩

section Orders

variable {addr size : ℕ} (haddr : addr < 2 ^ 32)
include haddr

theorem orderOf_start (hsize : size < 2 ^ 32) :
    orderOf (.bsl bslCmdStartData (fields .big 4 [addr, size])) = .start addr size none := by
  obtain ⟨first, second⟩ := unpack_words .big haddr hsize []
  have length : (fields .big 4 [addr, size]).length = 8 := fields_length _ _ _
  simp only [orderOf, List.drop_zero, first, second, length, if_true]
  rfl

theorem orderOf_startNv (hsize : size < 2 ^ 32) {sum : ℕ} (hsum : sum < 2 ^ 32) :
    orderOf (.bsl bslCmdStartData (fields .big 4 [addr, size, sum])) =
      .start addr size (some sum) := by
  obtain ⟨first, second⟩ := unpack_words .big haddr hsize [sum]
  have length : (fields .big 4 [addr, size, sum]).length = 12 := fields_length _ _ _
  have third : unpack .big (((fields .big 4 [addr, size, sum]).drop 8).take 4) = sum := by
    have split : fields .big 4 [addr, size, sum] =
        (field .big 4 addr ++ field .big 4 size) ++ (field .big 4 sum ++ []) := by
      simp [fields]
    rw [split, List.drop_left' (by simp), List.take_left' (by simp), unpack_field .big 4 sum hsum]
  simp only [orderOf, List.drop_zero, first, second, third, length]
  rfl

theorem orderOf_erase (param : Bytes) :
    orderOf (.bsl bslCmdEraseFlash (field .big 4 addr ++ param)) = .erase addr param := by
  have word : unpack .big ((field .big 4 addr ++ param).take 4) = addr := by
    rw [List.take_left' (by simp), unpack_field .big 4 addr haddr]
  have rest : (field .big 4 addr ++ param).drop 4 = param := List.drop_left' (by simp)
  simp only [orderOf, List.drop_zero, word, rest]
  rfl

end Orders

namespace Core

def load (core : Core) (blocks : List (Block UInt8)) : Core :=
  { core with memory := puts core.memory blocks }

theorem load_load (core : Core) (xs ys : List (Block UInt8)) :
    (core.load xs).load ys = core.load (xs ++ ys) := by
  rw [load, load, load, puts_append]

theorem hears_pieces {core : Core} {job : Job} (opened : core.job = some job) {pieces : List Bytes}
    (fits : job.taken.length + pieces.flatten.length ≤ job.declared) :
    core.hears (pieces.map (.bsl bslCmdMidstData ·)) = { core with
      job := some { job with taken := job.taken ++ pieces.flatten }
      memory := put core.memory ⟨job.address + job.taken.length, pieces.flatten⟩ } := by
  induction pieces generalizing core job with
  | nil =>
    obtain ⟨loader, _, memory, erased, refused, rebooted⟩ := core
    cases opened
    simp only [List.map_nil, hears_nil, List.flatten_nil, List.append_nil, put_nil]
  | cons piece pieces ih =>
    rw [List.flatten_cons, List.length_append] at fits
    have room : job.Fits none piece := ⟨by omega, by simp⟩
    have taken : (core.hear (.bsl bslCmdMidstData piece)).1 = { core with
        job := some { job with taken := job.taken ++ piece }
        memory := put core.memory ⟨job.address + job.taken.length, piece⟩ } := by
      simp only [hear, show orderOf (.bsl bslCmdMidstData piece) = .midst none piece from rfl, obey,
        opened, if_pos room]
    rw [List.map_cons, hears_cons, taken, ih rfl (by simp only [List.length_append]; omega)]
    simp only [List.flatten_cons, List.append_assoc, List.length_append,
      ← Nat.add_assoc, put_append]

/-- The blocks of a PDL image carry their number, which is how far the image is. -/
theorem hears_blocks {core : Core} {addr : ℕ} {data : Bytes}
    (opened : core.job = some ⟨addr, data.length, none, []⟩) {k : ℕ}
    (within : k ≤ (data.length + Pdl.pdlChunk - 1) / Pdl.pdlChunk) :
    core.hears ((List.range k).map fun i =>
        let chunk := (data.drop (i * Pdl.pdlChunk)).take Pdl.pdlChunk
        .pdl Pdl.Command.midstData.code i chunk.length chunk) = { core with
      job := some ⟨addr, data.length, none, data.take (k * Pdl.pdlChunk)⟩
      memory := put core.memory ⟨addr, data.take (k * Pdl.pdlChunk)⟩ } := by
  induction k with
  | zero =>
    obtain ⟨loader, _, memory, erased, refused, rebooted⟩ := core
    cases opened
    simp only [List.range_zero, List.map_nil, hears_nil, Nat.zero_mul, List.take_zero, put_nil]
  | succ k ih =>
    have full : k * Pdl.pdlChunk ≤ data.length := by
      simp only [Pdl.pdlChunk] at within ⊢
      omega
    have reached : (data.take (k * Pdl.pdlChunk)).length = k * Pdl.pdlChunk := by
      rw [List.length_take, Nat.min_eq_left full]
    rw [List.range_succ, List.map_append, hears_append, ih (by omega), List.map_singleton,
      hears_cons, hears_nil]
    generalize hchunk : (data.drop (k * Pdl.pdlChunk)).take Pdl.pdlChunk = chunk
    have more : data.take ((k + 1) * Pdl.pdlChunk) = data.take (k * Pdl.pdlChunk) ++ chunk := by
      rw [Nat.add_one_mul, List.take_add, hchunk]
    have room : (⟨addr, data.length, none, data.take (k * Pdl.pdlChunk)⟩ : Job).Fits
        (some (k, chunk.length)) chunk := by
      refine ⟨?_, fun numbered same => ?_⟩
      · simp only
        rw [← List.length_append, ← more, List.length_take]
        exact Nat.min_le_right _ _
      · cases same
        simp only [reached]
        exact ⟨by rw [Nat.mul_div_cancel _ (by decide)], Dvd.intro_left k rfl⟩
    simp only [hear, show ∀ length, orderOf (.pdl Pdl.Command.midstData.code k length chunk) =
      .midst (some (k, length)) chunk from fun _ => rfl, obey, if_pos room]
    rw [more, reached, ← put_append core.memory addr (data.take (k * Pdl.pdlChunk)) chunk, reached]

end Core

/-- Steps whose commands put images into the memory and leave everything else. -/
def Loads (steps : List Step) (blocks : List (Block UInt8)) : Prop :=
  ∀ core : Core, core.job = none → core.hears (steps.flatMap emits) = core.load blocks

theorem Loads.append {xs ys : List Step} {bs cs : List (Block UInt8)} (hx : Loads xs bs)
    (hy : Loads ys cs) : Loads (xs ++ ys) (bs ++ cs) := by
  intro core idle
  rw [List.flatMap_append, Core.hears_append, hx core idle, hy (core.load bs) idle, Core.load_load]

theorem loads_nil : Loads [] [] := fun _ _ => rfl

theorem loads_flatMap {α : Type} {items : List α} {f : α → List Step} {g : α → List (Block UInt8)}
    (h : ∀ a ∈ items, Loads (f a) (g a)) : Loads (items.flatMap f) (items.flatMap g) := by
  induction items with
  | nil => exact loads_nil
  | cons a items ih =>
    rw [List.flatMap_cons, List.flatMap_cons]
    exact (h a List.mem_cons_self).append (ih fun b hb => h b (List.mem_cons_of_mem a hb))

theorem loads_map {α : Type} {items : List α} {f : α → List Step} {g : α → Block UInt8}
    (h : ∀ a ∈ items, Loads (f a) [g a]) : Loads (items.flatMap f) (items.map g) := by
  rw [List.map_eq_flatMap]
  exact loads_flatMap h

/-- START_DATA, pieces, END_DATA, whatever the two link layers call them. -/
theorem hears_transfer {core : Core} (idle : core.job = none) {first last : Sent}
    {middle : List Sent} {addr : ℕ} {sum : Option ℕ} {data : Bytes}
    (opens : orderOf first = .start addr data.length sum)
    (fills : ∀ core : Core, core.job = some ⟨addr, data.length, sum, []⟩ → core.hears middle =
      { core with
        job := some ⟨addr, data.length, sum, data⟩
        memory := put core.memory ⟨addr, data⟩ })
    (closes : orderOf last = .finish)
    (sound : (⟨addr, data.length, sum, data⟩ : Job).verdict = bslRepAck) :
    core.hears (first :: (middle ++ [last])) = core.load [⟨addr, data⟩] := by
  have started : (core.hear first).1 = { core with job := some ⟨addr, data.length, sum, []⟩ } := by
    simp only [Core.hear, opens, Core.obey, idle]
  rw [Core.hears_cons, started, Core.hears_append, fills _ rfl, Core.hears_cons, Core.hears_nil,
    Core.hear, closes]
  simp only [Core.obey, Nat.lt_irrefl, if_false, sound, if_true]
  obtain ⟨loader, job, memory, erased, refused, rebooted⟩ := core
  cases idle
  rfl

theorem hears_bsl {core : Core} (idle : core.job = none) {addr : ℕ} {words : List ℕ}
    {sum : Option ℕ} {data : Bytes} (chunk : ℕ+)
    (opens : orderOf (.bsl bslCmdStartData (fields .big 4 words)) = .start addr data.length sum)
    (sound : (⟨addr, data.length, sum, data⟩ : Job).verdict = bslRepAck) :
    core.hears (.bsl bslCmdStartData (fields .big 4 words) ::
        ((Pieces.pieces chunk data).map (.bsl bslCmdMidstData ·) ++ [.bsl bslCmdEndData []])) =
      core.load [⟨addr, data⟩] := by
  refine hears_transfer idle opens (fun core opened => ?_) rfl sound
  have whole := Pieces.pieces_flatten chunk data
  rw [Core.hears_pieces opened (by rw [whole, List.length_nil, Nat.zero_add]), whole]
  rfl

theorem stage_loads {addr : ℕ} {data : Bytes} (haddr : addr < 2 ^ 32) (hdata : data.length < 2 ^ 32)
    (chunk : ℕ+) : Loads (stage addr data chunk) [⟨addr, data⟩] := by
  intro core idle
  rw [stage_eq haddr hdata, List.flatMap_cons, List.flatMap_append, pieces_sent]
  exact hears_bsl idle chunk (orderOf_start haddr hdata) rfl

theorem nv_loads {addr : ℕ} {template : Bytes} (haddr : addr < 2 ^ 32) (room : 2 ≤ template.length)
    (hdata : template.length < 2 ^ 32) : Loads (nv addr template) [⟨addr, nvFixed template⟩] := by
  intro core idle
  have length := nvFixed_length room
  have slot : unpack .big ((nvFixed template).take 2) = nvCrc16 ((nvFixed template).drop 2) := by
    rw [NvWrite.nvFixed_slot, NvWrite.nvCrc16_eq_crc16]
    rfl
  have opens := orderOf_startNv haddr (length ▸ hdata) (sum32_lt (nvFixed template))
  rw [nv_eq haddr room hdata, ← length, List.flatMap_cons, List.flatMap_append, pieces_sent]
  refine hears_bsl idle bslChunk opens ?_
  simp [Job.verdict, slot]

theorem loader_loads {fdl1 : PacEntry} {data : Bytes} (endChecksum : UInt32) :
    Loads (loader fdl1 data endChecksum) [⟨fdl1.address, data⟩] := by
  intro core idle
  have greeted : (core.hear (.pdl Pdl.Command.connect.code 0 0 [])).1 = core := by
    change (core.between core).1 = core
    rw [Core.between, idle]
  have blocks : ∀ step : ℕ × Bytes → Step,
      (∀ i chunk, step (i, chunk) = .request .midstData i chunk.length chunk) →
        ((Pdl.blocks data).map step).flatMap emits =
          (List.range ((data.length + Pdl.pdlChunk - 1) / Pdl.pdlChunk)).map fun i =>
            let chunk := (data.drop (i * Pdl.pdlChunk)).take Pdl.pdlChunk
            .pdl Pdl.Command.midstData.code i chunk.length chunk := by
    intro step is
    simp only [Pdl.blocks, List.map_eq_flatMap, List.flatMap_assoc,
      List.flatMap_singleton, is, emits]
  have whole : data.take
      ((data.length + Pdl.pdlChunk - 1) / Pdl.pdlChunk * Pdl.pdlChunk) = data := by
    refine List.take_of_length_le ?_
    simp only [Pdl.pdlChunk]
    omega
  rw [loader_eq, List.flatMap_cons, List.flatMap_cons, List.flatMap_append,
    blocks _ fun _ _ => rfl]
  change (core.hear _).1.hears _ = _
  rw [greeted]
  refine hears_transfer idle rfl (fun core opened => ?_) rfl rfl
  rw [Core.hears_blocks opened le_rfl, whole]

/-- Steps whose commands take a modem between two transfers to another such state,
and of which it refuses none. -/
def Does (steps : List Step) (f : Core → Core) : Prop :=
  ∀ core : Core, core.job = none → core.hears (steps.flatMap emits) = f core ∧
    (f core).job = none ∧ (f core).refused = core.refused

namespace Does

variable {xs ys : List Step} {f g : Core → Core}

theorem append (hx : Does xs f) (hy : Does ys g) : Does (xs ++ ys) fun core => g (f core) := by
  intro core idle
  obtain ⟨first, idle', same⟩ := hx core idle
  obtain ⟨rest, idle'', same'⟩ := hy (f core) idle'
  rw [List.flatMap_append, Core.hears_append, first]
  exact ⟨rest, idle'', same'.trans same⟩

theorem congr (h : Does xs f) (same : ∀ core : Core, core.job = none → f core = g core) :
    Does xs g := by
  intro core idle
  rw [← same core idle]
  exact h core idle

theorem content (h : Does xs f) {core : Core} (idle : core.job = none) :
    core.Content (xs.flatMap emits) := by
  obtain ⟨done, -, same⟩ := h core idle
  rw [Core.Content, done, same]

theorem nil : Does [] fun core => core := fun _ idle => ⟨rfl, idle, rfl⟩

end Does

theorem Loads.does {steps : List Step} {blocks : List (Block UInt8)} (h : Loads steps blocks) :
    Does steps (·.load blocks) := fun core idle => ⟨h core idle, idle, rfl⟩

theorem does_order {i : Step} {sent : Sent} {f : Core → Core} (emit : emits i = [sent])
    (order : ∀ core : Core, core.hear sent = core.between (f core))
    (kept : ∀ core, (f core).job = core.job ∧ (f core).refused = core.refused) : Does [i] f := by
  intro core idle
  have done : (core.hear sent).1 = f core := by rw [order, Core.between, idle]
  rw [List.flatMap_singleton, emit, Core.hears_cons, done, Core.hears_nil]
  exact ⟨rfl, (kept core).1.trans idle, (kept core).2⟩

theorem does_silent {i : Step} (emit : emits i = []) : Does [i] fun core => core := by
  intro core idle
  rw [List.flatMap_singleton, emit, Core.hears_nil]
  exact ⟨rfl, idle, rfl⟩

namespace Core

def start (core : Core) : Core := { core with loader := core.loader.next }

def wipe (core : Core) (ops : List (ℕ × Bytes)) : Core := { core with erased := core.erased ++ ops }

def reboot (core : Core) (doReset : Bool) : Core :=
  { core with rebooted := core.rebooted || doReset }

def second (core : Core) (info : PacInfo) (content : Bytes) : Core :=
  match fdl2Of info with
  | none => core
  | some e => (core.load [⟨e.address, Native.readEntry content e⟩]).start

end Core

theorem connect_does (what : String) : Does [.command bslCmdConnect [] what] fun core => core :=
  does_order rfl (fun _ => rfl) fun _ => ⟨rfl, rfl⟩

theorem exec_does (what : String) : Does [.command bslCmdExecData [] what] Core.start :=
  does_order rfl (fun _ => rfl) fun _ => ⟨rfl, rfl⟩

theorem handOver_does : Does [.handOver] Core.start :=
  does_order rfl (fun _ => rfl) fun _ => ⟨rfl, rfl⟩

theorem reset_does (doReset : Bool) : Does (reset doReset) (·.reboot doReset) := by
  cases doReset with
  | false => exact Does.nil.congr fun core _ => by rw [Core.reboot, Bool.or_false]
  | true =>
    refine does_order rfl (fun core => ?_) fun _ => ⟨rfl, rfl⟩
    rw [Core.reboot, Bool.or_true]
    rfl

theorem standIn_of_nodup {entries : List PacEntry} (distinct : (entries.map PacEntry.fileId).Nodup)
    {e : PacEntry} (he : e ∈ entries) : standIn entries e = e := by
  obtain ⟨mem, same⟩ := standIn_mem he
  exact List.inj_on_of_nodup_map distinct mem he same

theorem loader_mem {info : PacInfo} {e : PacEntry} (he : e ∈ loaders info) : e ∈ info.entries := by
  rcases List.mem_append.mp he with first | second
  · exact (find_role (Option.mem_toList.mp first)).1
  · exact (find_role (Option.mem_toList.mp second)).1

section Package

variable {info : PacInfo} (narrow : Narrow info.entries) (content : Bytes)
include narrow

theorem erase_does {op : List Char × ℕ × Bytes} (h : op ∈ eraseOps info) :
    Does (eraseStep op) (·.wipe [op.2]) := by
  obtain ⟨what, steps, -⟩ := eraseStep_eq narrow h
  obtain ⟨-, e, he, same⟩ := mem_eraseOpsFrom h
  have address : op.2.1 < 2 ^ 32 := same ▸ (narrow e he).2
  rw [steps]
  refine does_order rfl (fun core => ?_) fun _ => ⟨rfl, rfl⟩
  rw [Core.hear, orderOf_erase address]
  rfl

theorem erases_does {ops : List (List Char × ℕ × Bytes)} (h : ∀ op ∈ ops, op ∈ eraseOps info) :
    Does (ops.flatMap eraseStep) (·.wipe (ops.map Prod.snd)) := by
  induction ops with
  | nil => exact Does.nil.congr fun core _ => by rw [Core.wipe, List.map_nil, List.append_nil]
  | cons op ops ih =>
    rw [List.forall_mem_cons] at h
    refine ((erase_does narrow h.1).append (ih h.2)).congr fun core _ => ?_
    simp only [Core.wipe, List.append_assoc, List.singleton_append, List.map_cons]

theorem marker_loads {e : PacEntry} (he : e ∈ dataMarkers info) :
    Loads (markerSteps info content e)
      (if Roomy info content e then [block (writtenMarker info content e)] else []) := by
  have address := (narrow e (dataMarkers_mem he)).2
  have length := markerImage_length narrow content he
  by_cases roomy : Roomy info content e
  · rw [if_pos roomy, markerSteps, writeMarkerSteps, writtenMarker]
    split
    · rename_i isNv
      exact nv_loads address (roomy isNv) length
    · exact stage_loads address length bslChunk
  · rw [if_neg roomy, markerSteps_halts content roomy]
    exact fun core _ => rfl

theorem second_does (chunk : ℕ+) {more : List Step} (silent : Does more fun core => core) :
    Does ((fdl2Of info).toList.flatMap fun e =>
        stage e.address (Native.readEntry content e) chunk ++
          .command bslCmdExecData [] "EXEC FDL2" :: more)
      (·.second info content) := by
  cases found : fdl2Of info with
  | none => exact Does.nil.congr fun core _ => by rw [Core.second, found]
  | some e =>
    have bounds := loaderEntry_narrow narrow found content
    rw [Option.toList_some, List.flatMap_singleton]
    refine ((stage_loads bounds.1 bounds.2 chunk).does.append
      ((exec_does "EXEC FDL2").append silent)).congr fun core _ => ?_
    rw [Core.second, found]

/-- The loaders and partitions of a package, where the native flow puts them. -/
def imageBlocks (info : PacInfo) (fdl1 : PacEntry) (content : Bytes) : List (Block UInt8) :=
  ⟨fdl1.address, Native.readEntry content fdl1⟩ ::
    ((fdl2Of info).toList.map (fun e => ⟨e.address, Native.readEntry content e⟩) ++
      (flashableEntries info).map fun e => ⟨e.address, imageOf content (flashableEntries info) e⟩)

/-- The data-bearing markers that have room for what is written over them. -/
def markerBlocks (info : PacInfo) (content : Bytes) : List (Block UInt8) :=
  (dataMarkers info).flatMap fun e =>
    if Roomy info content e then [block (writtenMarker info content e)] else []

/-- Everything the native flow writes, in its order. -/
def nativeBlocks (info : PacInfo) (fdl1 : PacEntry) (content : Bytes) (formatFs : Bool) :
    List (Block UInt8) :=
  imageBlocks info fdl1 content ++ if formatFs then markerBlocks info content else []

omit narrow in
theorem nativeBlocks_subset {fdl1 : PacEntry} {content : Bytes} {formatFs formatFs' : Bool}
    (more : formatFs = true → formatFs' = true) :
    nativeBlocks info fdl1 content formatFs ⊆ nativeBlocks info fdl1 content formatFs' := by
  intro b mem
  rcases List.mem_append.mp mem with image | marker
  · exact List.mem_append_left _ image
  · cases format : formatFs with
    | false => simp [format] at marker
    | true =>
      rw [format] at marker
      rw [nativeBlocks, more format]
      exact List.mem_append_right _ marker

def nativeErases (info : PacInfo) (formatFs : Bool) : List (ℕ × Bytes) :=
  if formatFs then (eraseOps info).map Prod.snd else []

def ownBlock (content : Bytes) (e : PacEntry) : Block UInt8 :=
    ⟨e.address, Native.readEntry content e⟩

/-- Everything the flow over BSL alone writes. -/
def ownBlocks (info : PacInfo) (content : Bytes) : List (Block UInt8) :=
  (loaders info ++ flashableEntries info).map (ownBlock content)

/-- The modem behind all commands of a flow. -/
def Core.installed (core : Core) (info : PacInfo) (blocks : List (Block UInt8))
    (erases : List (ℕ × Bytes)) (doReset : Bool) : Core where
  loader := if (fdl2Of info).isSome then .fdl2 else core.loader.next
  job := none
  memory := puts core.memory blocks
  erased := core.erased ++ erases
  refused := core.refused
  rebooted := core.rebooted || doReset

def Lies (content : Bytes) (m : ℕ → Option UInt8) (e : PacEntry) : Prop :=
  ∀ i < e.size, m (e.address + i) = content[e.offset + i]?

omit narrow in
theorem readEntry_getElem? {e : PacEntry} {i : ℕ} (within : i < e.size) :
    (Native.readEntry content e)[i]? = content[e.offset + i]? := by
  rw [Native.readEntry, readAt, List.getElem?_take_of_lt within, List.getElem?_drop]

omit narrow in
/-- Of blocks apart the one of an entry in the file keeps the bytes of the file. -/
theorem ownBlock_lies {blocks : List (Block UInt8)} (apart : Apart blocks) {e : PacEntry}
    (written : ownBlock content e ∈ blocks) (readable : InFile content e) (m : ℕ → Option UInt8) :
    Lies content (puts m blocks) e := by
  intro i within
  have payload : e.size ≠ 0 := by omega
  have long : i < (ownBlock content e).cells.length :=
    within.trans_eq ((readEntry_length_iff payload).mpr readable).symm
  rw [← readEntry_getElem? content within]
  exact puts_apart apart written long m

omit narrow in
/-- With ids of their own the entries are written with their own bytes. -/
theorem ownBlock_mem {fdl1 : PacEntry} (found : fdl1Of info = some fdl1)
    (distinct : ((flashableEntries info).map PacEntry.fileId).Nodup) (formatFs : Bool)
    {e : PacEntry} (he : e ∈ loaders info ++ flashableEntries info) :
    ownBlock content e ∈ nativeBlocks info fdl1 content formatFs := by
  refine List.mem_append_left _ ?_
  rw [imageBlocks]
  rcases List.mem_append.mp he with loader | partition
  · rw [loaders, found, Option.toList_some] at loader
    rcases List.mem_cons.mp loader with rfl | second
    · exact List.mem_cons_self
    · exact List.mem_cons_of_mem _ (List.mem_append_left _ (List.mem_map_of_mem second))
  · refine List.mem_cons_of_mem _ (List.mem_append_right _ (List.mem_map.mpr ⟨e, partition, ?_⟩))
    rw [imageOf, standIn_of_nodup distinct partition]
    rfl

/-- Partitions with ids of their own, images inside the file and no two blocks over one
cell. -/
structure Placed (info : PacInfo) (fdl1 : PacEntry) (content : Bytes) (formatFs : Bool) : Prop where
  distinct : ((flashableEntries info).map PacEntry.fileId).Nodup
  readable : ∀ e ∈ loaders info ++ flashableEntries info, InFile content e
  apart : Apart (nativeBlocks info fdl1 content formatFs)

omit narrow in
theorem Placed.lies {fdl1 : PacEntry} {formatFs : Bool}
    (placed : Placed info fdl1 content formatFs) (found : fdl1Of info = some fdl1)
    (m : ℕ → Option UInt8) : ∀ e ∈ loaders info ++ flashableEntries info,
      Lies content (puts m (nativeBlocks info fdl1 content formatFs)) e :=
  fun e he => ownBlock_lies content placed.apart
    (ownBlock_mem content found placed.distinct formatFs he) (placed.readable e he) m

omit narrow in
theorem next_next (loader : Loader) : loader.next.next = .fdl2 := by cases loader <;> rfl

theorem native_does (fdl1 : PacEntry) (options : NativeOptions) :
    Does (native info fdl1 content options)
      (·.installed info (nativeBlocks info fdl1 content options.formatFs)
        (nativeErases info options.formatFs) options.doReset) := by
  have loaded : Loads (loader fdl1 (Native.readEntry content fdl1) options.fdl1EndChecksum) _ :=
    loader_loads options.fdl1EndChecksum
  have greeted := handOver_does.append ((does_silent (i := .setChecksum .sprd) rfl).append
    (connect_does "CONNECT"))
  have second := second_does narrow content bslChunk (connect_does "CONNECT")
  have partitions : Loads ((flashableEntries info).flatMap fun e =>
      stage e.address (imageOf content (flashableEntries info) e) bslChunk) _ :=
    loads_map fun e he => stage_loads (narrow e (flashable_mem he)).2
      (partitionImage_length narrow content he) bslChunk
  have erases : Does (if options.formatFs then (eraseOps info).flatMap eraseStep else [])
      (·.wipe (nativeErases info options.formatFs)) := by
    cases options.formatFs with
    | true => exact erases_does narrow fun op h => h
    | false => exact erases_does narrow fun op (h : op ∈ []) => absurd h List.not_mem_nil
  have markers : Loads (if options.formatFs then (dataMarkers info).flatMap
    (markerSteps info content)
      else []) (if options.formatFs then markerBlocks info content else []) := by
    cases options.formatFs with
    | true => exact loads_flatMap fun e he => marker_loads narrow content he
    | false => exact loads_nil
  rw [native_eq, opening]
  refine ((loaded.does.append (greeted.append
    (second.append (partitions.does.append erases)))).append
    (markers.does.append (reset_does options.doReset))).congr fun core idle => ?_
  obtain ⟨loader, job, memory, erased, refused, rebooted⟩ := core
  cases idle
  simp only [Core.second, Core.installed, nativeBlocks, imageBlocks]
  cases fdl2Of info with
  | none => simp [Core.load, Core.start, Core.wipe, Core.reboot, puts_append]
  | some e => simp [Core.load, Core.start, Core.wipe, Core.reboot, puts_append, next_next]

theorem fdls_does {fdl1 : PacEntry} (found : fdl1Of info = some fdl1)
    (present : ¬ Completion.Loaderless info content) (chunk : ℕ+) :
    Does (fdls info content chunk)
      fun core => (core.load [ownBlock content fdl1]).start.second info content := by
  have bounds := loaderEntry_narrow narrow found content
  have loaded := (stage_loads bounds.1 bounds.2 chunk).does
  have greeted := (exec_does "EXEC FDL1").append ((does_silent (i := .setChecksum .sprd) rfl).append
    ((does_silent (i := .autobaud 10) rfl).append (connect_does "CONNECT")))
  rw [Completion.fdls_loaded found present]
  exact loaded.append (greeted.append (second_does narrow content chunk Does.nil))

theorem partition_loads {e : PacEntry} (he : e ∈ flashableEntries info)
    (readable : InFile content e) (chunk : ℕ+) :
    Loads (given (Flasher.readEntry content e) fun data => stage e.address data chunk)
      [ownBlock content e] := by
  have role : classify e = .flash := by simpa using List.of_mem_filter he
  rw [(Completion.readEntry_eq (role_size role (by decide))).1 readable]
  exact stage_loads (narrow e (flashable_mem he)).2
    ((readEntry_length_le content e).trans_lt (narrow e (flashable_mem he)).1) chunk

/-- The flow over BSL alone, when it can read what it writes. -/
theorem flash_does {fdl1 : PacEntry} (found : fdl1Of info = some fdl1)
    (readable : ∀ e ∈ loaders info ++ flashableEntries info, InFile content e)
    (options : FlashOptions) :
    Does (flash info content options)
      (·.installed info (ownBlocks info content) [] options.doReset) := by
  have present : ¬ Completion.Loaderless info content := by
    rintro (outside | ⟨e, second, outside⟩)
    · exact outside fdl1 found (readable fdl1 (by simp [loaders, found]))
    · exact outside (readable e (by simp [loaders, second]))
  have partitions : Loads ((flashableEntries info).flatMap fun e =>
      given (Flasher.readEntry content e) fun data => stage e.address data options.chunk) _ :=
    loads_map (g := ownBlock content) fun e he =>
      partition_loads narrow content he (readable e (List.mem_append_right _ he)) options.chunk
  rw [flash]
  refine (((fdls_does narrow content found present options.chunk).append partitions.does).append
    (reset_does options.doReset)).congr fun core idle => ?_
  obtain ⟨loader, job, memory, erased, refused, rebooted⟩ := core
  cases idle
  simp only [Core.second, Core.installed, ownBlocks, loaders, found]
  cases fdl2Of info with
  | none => simp [Core.load, Core.start, Core.reboot, ownBlock]
  | some e => simp [Core.load, Core.start, Core.reboot, ownBlock, next_next]

theorem flash_sound {fdl1 : PacEntry} (found : fdl1Of info = some fdl1) {options : FlashOptions}
    (sendable : ∀ e ∈ loaders info ++ flashableEntries info,
      Completion.Sendable content options.chunk e) :
    Sound (flash info content options) := by
  have first (e : PacEntry) (h : fdl1Of info = some e) :
    Completion.Sendable content options.chunk e :=
    sendable e (by simp [loaders, h])
  have second (e : PacEntry) (h : fdl2Of info = some e) :
    Completion.Sendable content options.chunk e :=
    sendable e (by simp [loaders, h])
  have present : ¬ Completion.Loaderless info content := by
    rintro (outside | ⟨e, h, outside⟩)
    · exact outside fdl1 found (first fdl1 found).1
    · exact outside (second e h).1
  exact (Completion.flash_sound_iff narrow found present options).mpr
    ⟨first, second, fun e he => sendable e (List.mem_append_right _ he)⟩

end Package

section Example

open PacImage

theorem package_reads (i size : ℕ) :
    readAt (package 2).content (payloadOffset 3 + i) size =
      (([0x11, 0x12, 0x21, 0x22, 0x23, 0x31, 0x32] : Bytes).drop i).take size :=
  readAt_image "package.pac" (package_layable (by decide)) i size

theorem package_blocks {info : PacInfo} (entries : info.entries = packageEntries 2) :
    nativeBlocks info (entry hostFdl 0x00838000 (payloadOffset 3) 2) (package 2).content true =
      [⟨0x00838000, [0x11, 0x12]⟩, ⟨0x60010000, [0x21, 0x22, 0x23]⟩, ⟨0xFE000003, [0x00, 0x00]⟩] ∧
    ownBlocks info (package 2).content =
      [⟨0x00838000, [0x11, 0x12]⟩, ⟨0x60010000, [0x21, 0x22, 0x23]⟩] := by
  have second : fdl2Of info = none := by
    rw [fdl2Of, entries]
    rfl
  have first : Native.readEntry (package 2).content (entry hostFdl 0x00838000 (payloadOffset 3) 2) =
      [0x11, 0x12] := package_reads 0 2
  have partition : Native.readEntry (package 2).content
      (entry ['A', 'P'] 0x60010000 (payloadOffset 3 + 2) 3) = [0x21, 0x22, 0x23] :=
        package_reads 2 3
  have nv : Native.readEntry (package 2).content (entry nvId 0xFE000003 (payloadOffset 3 + 5) 2) =
      [0x31, 0x32] := package_reads 5 2
  have alone (e : PacEntry) : standIn [e] e = e :=
    standIn_of_nodup (by simp) List.mem_cons_self
  constructor
  · have markers := package_markers entries (by decide)
    rw [nativeBlocks, imageBlocks, markerBlocks, second,
      package_flashable entries (by decide), markers]
    simp only [Roomy, writtenMarker, imageOf, markers, alone, first, partition, nv,
      Option.toList_none, List.map_nil, List.nil_append, List.map_cons, List.flatMap_cons,
      List.flatMap_nil, List.append_nil, if_true]
    rw [if_pos (by decide), if_pos (by decide)]
    rfl
  · rw [ownBlocks, loaders, second, package_fdl1 entries, package_flashable entries (by decide)]
    simp only [Option.toList_some, Option.toList_none, List.append_nil, List.singleton_append,
      List.map_cons, List.map_nil, ownBlock, first, partition]
    rfl

variable {info : PacInfo} (entries : info.entries = packageEntries 2)
include entries

theorem package_roomy : ∀ e ∈ dataMarkers info, Roomy info (package 2).content e := by
  have markers := package_markers entries (by decide)
  rw [markers, List.forall_mem_singleton]
  intro _
  rw [markers, imageOf, standIn_of_nodup (by simp) List.mem_cons_self]
  have slot : Native.readEntry (package 2).content (entry nvId 0xFE000003 (payloadOffset 3 + 5) 2) =
      [0x31, 0x32] := package_reads 5 2
  rw [slot]
  decide

theorem package_sendable :
    ∀ e ∈ loaders info ++ flashableEntries info,
      Completion.Sendable (package 2).content Flasher.defaultChunk e := by
  have all : ∀ e ∈ packageEntries 2, Completion.Sendable
    (package 2).content Flasher.defaultChunk e := by
    unfold Completion.Sendable InFile
    rw [package_length (show 2 < 2 ^ 32 by decide)]
    decide
  intro e he
  rw [← entries] at all
  rcases List.mem_append.mp he with loader | partition
  · exact all e (loader_mem loader)
  · exact all e (flashable_mem partition)

theorem package_distinct : ((flashableEntries info).map PacEntry.fileId).Nodup := by
  rw [package_flashable entries (by decide)]
  simp

omit entries in
theorem package_apart : Apart ([⟨0x00838000, [0x11, 0x12]⟩, ⟨0x60010000, [0x21, 0x22, 0x23]⟩,
    ⟨0xFE000003, [0x00, 0x00]⟩] : List (Block UInt8)) := by
  simp only [Apart, List.pairwise_cons, Block.Covers]
  simp
  exact ⟨⟨fun a => by omega, fun a => by omega⟩, fun a => by omega⟩

theorem package_placed : Placed info (entry hostFdl 0x00838000 (payloadOffset 3) 2)
    (package 2).content true where
  distinct := package_distinct entries
  readable e he := (package_sendable entries e he).1
  apart := by
    rw [(package_blocks entries).1]
    exact package_apart

end Example

end SprdFlash.Modem
