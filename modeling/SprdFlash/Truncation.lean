import SprdFlash.Acknowledging
import SprdFlash.PacImage
import SprdFlash.Package

/-!
Whether a transfer is as long as its entry says. `native_flash` reads without a
check, so an entry that reaches past the end of the file is sent short, and one
that is shadowed by a longer or shorter entry is sent with that one's length.
-/

namespace SprdFlash.Truncation

open Message Port Pac Flasher Native Script Plan WireLog Runs Transfers Package Acknowledging

def transferred (info : PacInfo) (formatFs : Bool) : List PacEntry :=
  loaders info ++ (flashableEntries info ++ if formatFs then dataMarkers info else [])

/-- A transfer that states the size of an entry inside the file and, when it is
complete, carries so many bytes. -/
structure Whole (content : Bytes) (t : Transfer) (e : PacEntry) : Prop where
  inFile : InFile content e
  declared : t.declared = e.size
  length : t.ended = true → t.image.length = e.size

/-- Whatever the device, the transfers of a run are whole ones of the entries in
their order, and with an entry outside the file it raises before any write. -/
def NeverTruncates (path : PacFile) (info : PacInfo) (options : NativeOptions) : Prop :=
  ∀ (σ : Type) [Device σ] (d : σ),
    (∃ begun, begun <+: transferred info options.formatFs ∧ List.Forall₂ (Whole path.content)
      (transfers (sentCmds (final (nativeFlash path options (Port.fresh d))).log)) begun) ∧
    ((∃ e ∈ transferred info options.formatFs, ¬ InFile path.content e) →
      ∃ e t, nativeFlash path options (Port.fresh d) = .error e t ∧
        ∀ act ∈ t.log, ∀ bs, act ≠ .wrote bs)

def Sized (entries : List PacEntry) (e : PacEntry) : Prop := (standIn entries e).size = e.size

/-- The package is refused for want of FDL1, or every entry lies inside the file
and none that is reached is shadowed by one of another size. -/
def Untruncated (info : PacInfo) (content : Bytes) (formatFs : Bool) : Prop :=
  fdl1Of info = none ∨
    ((∀ e ∈ transferred info formatFs, InFile content e) ∧
      (∀ e ∈ flashableEntries info, Sized (flashableEntries info) e) ∧
      (formatFs = true → ∀ e ∈ reached info content, Sized (dataMarkers info) e))

def assigned (info : PacInfo) (content : Bytes) (formatFs : Bool) : List (PacEntry × Transfer) :=
  (loaders info).map (fun e => (e, written e.address (Native.readEntry content e))) ++
    ((flashableEntries info).map (fun e =>
        (e, written e.address (imageOf content (flashableEntries info) e))) ++
      (if formatFs then reached info content else []).map
        fun e => (e, writtenMarker info content e))

theorem assigned_transfers {info : PacInfo} {fdl1 : PacEntry} (found : fdl1Of info = some fdl1)
    (content : Bytes) (formatFs : Bool) :
    (assigned info content formatFs).map Prod.snd = planned info fdl1 content formatFs := by
  rw [assigned, planned, loaders, found]
  cases formatFs with
  | false => simp [Function.comp_def]
  | true => simp [Function.comp_def]

theorem assigned_entries (info : PacInfo) (content : Bytes) (formatFs : Bool) :
    (assigned info content formatFs).map Prod.fst <+: transferred info formatFs := by
  simp only [assigned, transferred, List.map_append, List.map_map, Function.comp_def, List.map_id',
    List.prefix_append_right_inj]
  cases formatFs with
  | false => exact List.prefix_rfl
  | true => exact List.takeWhile_prefix _

theorem written_whole_iff {content : Bytes} {addr : ℕ} {data : Bytes} {e : PacEntry} :
    Whole content (written addr data) e ↔ InFile content e ∧ data.length = e.size :=
  ⟨fun h => ⟨h.inFile, h.declared⟩, fun h => ⟨h.1, h.2, fun _ => h.2⟩⟩

theorem writtenMarker_whole_iff {info : PacInfo} {content : Bytes} {e : PacEntry}
    (roomy : Roomy info content e) :
    Whole content (writtenMarker info content e) e ↔
      InFile content e ∧ (imageOf content (dataMarkers info) e).length = e.size := by
  by_cases isNv : upper e.fileId = nvId
  · rw [writtenMarker, if_pos isNv]
    refine ⟨fun h => ⟨h.inFile, h.declared⟩, fun h => ⟨h.1, h.2, fun _ => ?_⟩⟩
    exact (nvFixed_length (roomy isNv)).trans h.2
  · rw [writtenMarker, if_neg isNv]
    exact written_whole_iff

theorem imageOf_length {content : Bytes} {entries : List PacEntry} {e : PacEntry}
    (payload : ∀ e ∈ entries, e.size ≠ 0) (inside : ∀ e ∈ entries, InFile content e)
    (he : e ∈ entries) : (imageOf content entries e).length = (standIn entries e).size := by
  have mem := (standIn_mem he).1
  exact (readEntry_length_iff (payload _ mem)).mpr (inside _ mem)

theorem loaders_payload {info : PacInfo} {e : PacEntry} (he : e ∈ loaders info) : e.size ≠ 0 := by
  rcases List.mem_append.mp he with he | he
  · exact role_size (find_role (Option.mem_toList.mp he)).2 (by decide)
  · exact role_size (find_role (Option.mem_toList.mp he)).2 (by decide)

theorem flashable_payload {info : PacInfo} {e : PacEntry} (he : e ∈ flashableEntries info) :
    e.size ≠ 0 := by
  have role : classify e = .flash := by simpa using List.of_mem_filter he
  exact role_size role (by decide)

theorem dataMarkers_payload {info : PacInfo} {e : PacEntry} (he : e ∈ dataMarkers info) :
    e.size ≠ 0 := by
  have kept := List.of_mem_filter he
  simp only [Bool.and_eq_true, decide_eq_true_eq] at kept
  exact kept.1.2

section Inside

variable {info : PacInfo} {content : Bytes} {formatFs : Bool}
variable (inside : ∀ e ∈ transferred info formatFs, InFile content e)
include inside

theorem inside_parts :
    (∀ e ∈ loaders info, InFile content e) ∧ (∀ e ∈ flashableEntries info, InFile content e) ∧
      (formatFs = true → ∀ e ∈ dataMarkers info, InFile content e) := by
  rw [transferred, List.forall_mem_append, List.forall_mem_append] at inside
  refine ⟨inside.1, inside.2.1, fun format => ?_⟩
  have markers := inside.2.2
  rwa [if_pos format] at markers

/-- Inside the file only a shadowing entry makes a transfer of the wrong length. -/
theorem assigned_whole_iff :
    (∀ p ∈ assigned info content formatFs, Whole content p.2 p.1) ↔
      (∀ e ∈ flashableEntries info, Sized (flashableEntries info) e) ∧
        (formatFs = true → ∀ e ∈ reached info content, Sized (dataMarkers info) e) := by
  obtain ⟨first, partitions, markers⟩ := inside_parts inside
  have loaded : ∀ e ∈ loaders info,
      Whole content (written e.address (Native.readEntry content e)) e := fun e he =>
    written_whole_iff.mpr ⟨first e he, (readEntry_length_iff (loaders_payload he)).mpr (first e he)⟩
  have partition : ∀ e ∈ flashableEntries info,
      (Whole content (written e.address (imageOf content (flashableEntries info) e)) e ↔
        Sized (flashableEntries info) e) := by
    intro e he
    rw [written_whole_iff, imageOf_length (fun _ => flashable_payload) partitions he, Sized,
      and_iff_right (partitions e he)]
  have marker : formatFs = true → ∀ e ∈ reached info content,
      (Whole content (writtenMarker info content e) e ↔ Sized (dataMarkers info) e) := by
    intro format e he
    have mem := mem_reached he
    rw [writtenMarker_whole_iff mem.2,
      imageOf_length (fun _ => dataMarkers_payload) (markers format) mem.1, Sized,
      and_iff_right (markers format e mem.1)]
  rw [assigned, List.forall_mem_append, List.forall_mem_append, List.forall_mem_map,
    List.forall_mem_map, List.forall_mem_map, and_iff_right loaded, forall₂_congr partition]
  refine and_congr_right fun _ => ?_
  cases formatFs with
  | false => simp
  | true =>
    simp only [if_true, forall_const]
    exact forall₂_congr (marker rfl)

end Inside

theorem Whole.partly {content : Bytes} {t planned : Transfer} {e : PacEntry}
    (cut : Partly t planned) (whole : Whole content planned e) : Whole content t e where
  inFile := whole.inFile
  declared := cut.declared.trans whole.declared
  length := by
    intro ended
    obtain ⟨image, complete⟩ := cut.ended ended
    rw [image]
    exact whole.length complete

theorem begun_whole {content : Bytes} {some : List Transfer} {all : List (PacEntry × Transfer)}
    (whole : ∀ p ∈ all, Whole content p.2 p.1) {begun later : List Transfer}
    (split : all.map Prod.snd = begun ++ later) (partly : List.Forall₂ Partly some begun) :
    ∃ entries, entries <+: all.map Prod.fst ∧ List.Forall₂ (Whole content) some entries := by
  obtain ⟨first, last, rfl, rfl, -⟩ := List.map_eq_append_iff.mp split
  refine ⟨first.map Prod.fst, ?_, ?_⟩
  · rw [List.map_append]
    exact List.prefix_append _ _
  rw [List.forall₂_map_right_iff, List.forall₂_iff_zip] at partly ⊢
  refine ⟨partly.1, fun hz => Whole.partly (partly.2 hz) ?_⟩
  exact whole _ (List.mem_append_left last (List.of_mem_zip hz).2)

theorem assigned_prefix_whole {content : Bytes} {all : List (PacEntry × Transfer)}
    {entries begun : List PacEntry} (covers : all.map Prod.fst <+: entries)
    (part : begun <+: entries) (whole : List.Forall₂ (Whole content) (all.map Prod.snd) begun) :
    ∀ p ∈ all, Whole content p.2 p.1 := by
  have same : begun = all.map Prod.fst := by
    have length := whole.length_eq
    rw [List.length_map] at length
    exact (List.prefix_of_prefix_length_le part covers (by simp [length])).eq_of_length
      (by simp [length])
  rw [same, List.forall₂_map_left_iff, List.forall₂_map_right_iff, List.forall₂_same] at whole
  exact whole

theorem sentCmds_unwritten {log : List Act} (h : ∀ act ∈ log, ∀ bs, act ≠ .wrote bs) :
    sentCmds log = [] := by
  apply sentCmds_of_forall
  intro act hact
  cases act with
  | wrote bs => exact absurd rfl (h _ hact bs)
  | _ => rfl

/-- With FDL1 the acknowledging device is written to, whatever lies outside the file. -/
theorem neverTruncates_inside {path : PacFile} {info : PacInfo} (accepted : Accepted path info)
    {fdl1 : PacEntry} (found : fdl1Of info = some fdl1) {options : NativeOptions}
    (never : NeverTruncates path info options) :
    ∀ e ∈ transferred info options.formatFs, InFile path.content e := by
  by_contra outside
  obtain ⟨t, written, outcome⟩ := nativeFlash_acknowledged accepted found options Acker.mk
  obtain ⟨e, t', run, silent⟩ := (never Acker Acker.mk).2 (by simpa using outside)
  have same : t' = t := by
    have ends := outcome_final outcome
    rwa [run] at ends
  have planned := native_transfers (accepted_narrow accepted) found path.content options
  rw [← written, ← same, sentCmds_unwritten silent, Package.planned] at planned
  cases planned

/-- No transfer is ever shorter or longer than its entry, and an entry outside the
file is refused, exactly when there is none and no entry is shadowed by one of
another size. -/
theorem nativeFlash_neverTruncates_iff {path : PacFile} {info : PacInfo}
    (accepted : Accepted path info) (options : NativeOptions) :
    NeverTruncates path info options ↔ Untruncated info path.content options.formatFs := by
  cases found : fdl1Of info with
  | none =>
    refine iff_of_true (fun σ _ d => ?_) (.inl found)
    rw [nativeFlash_loaderless accepted found options (Port.fresh d)]
    exact ⟨⟨[], List.nil_prefix, .nil⟩, fun _ => ⟨_, _, rfl, by simp [Port.fresh]⟩⟩
  | some fdl1 =>
    have narrow := accepted_narrow accepted
    have present : fdl1Of info ≠ none := by simp [found]
    rw [Untruncated, or_iff_right present]
    constructor
    · intro never
      obtain ⟨⟨begun, part, whole⟩, -⟩ := never Acker Acker.mk
      obtain ⟨t, written, outcome⟩ := nativeFlash_acknowledged accepted found options Acker.mk
      rw [outcome_final outcome, written, native_transfers narrow found,
        ← assigned_transfers found] at whole
      have inside := neverTruncates_inside accepted found never
      refine ⟨inside, (assigned_whole_iff inside).mp ?_⟩
      exact assigned_prefix_whole (assigned_entries info path.content options.formatFs) part whole
    · rintro ⟨inside, sized⟩ σ _ d
      refine ⟨?_, fun ⟨e, he, outside⟩ => absurd (inside e he) outside⟩
      have whole := (assigned_whole_iff inside).mpr sized
      rcases nativeFlash_sent path options (Port.fresh d) with
        nothing | ⟨info', fdl1', accepted', found', cmds, initial, written⟩
      · rw [nothing]
        exact ⟨[], List.nil_prefix, .nil⟩
      · cases accepted.parsed.symm.trans accepted'.parsed
        cases found.symm.trans found'
        obtain ⟨begun, later, split, partly⟩ := transfers_prefix initial
        rw [native_transfers narrow found, ← assigned_transfers found] at split
        obtain ⟨entries, part, lengths⟩ := begun_whole whole split partly
        refine ⟨entries, part.trans (assigned_entries info path.content options.formatFs), ?_⟩
        rw [written]
        exact lengths

section Package

open PacImage

theorem package_neverTruncates : ∃ info, Accepted (package 2) info ∧
    NeverTruncates (package 2) info ⟨"COM3", 0, true, true⟩ := by
  obtain ⟨info, accepted, entries⟩ := package_accepted (show 2 < 2 ^ 32 by decide)
  have inside : ∀ e ∈ packageEntries 2, InFile (package 2).content e := by
    unfold InFile
    rw [package_length (show 2 < 2 ^ 32 by decide)]
    decide
  have order : transferred info true = packageEntries 2 := by
    rw [transferred, loaders, fdl1Of, fdl2Of, flashableEntries, dataMarkers, entries]
    decide
  have markers := package_markers entries (by decide)
  refine ⟨info, accepted, (nativeFlash_neverTruncates_iff accepted _).mpr (.inr ⟨?_, ?_, ?_⟩)⟩
  · rw [order]
    exact inside
  · rw [package_flashable entries (by decide), List.forall_mem_singleton]
    rfl
  · intro _ e he
    have mem := (mem_reached he).1
    rw [markers, List.mem_singleton] at mem
    rw [markers, mem]
    rfl

def cutEntries : List PacEntry :=
  [entry hostFdl 0x00838000 (payloadOffset 2) 1,
    entry ['A', 'P'] 0x60010000 (payloadOffset 2 + 1) 0x1000]

def cut : PacFile := image "cut.pac" cutEntries [0x11, 0x21]

theorem cut_layable : Layable cutEntries [0x11, 0x21] where
  storable := by decide
  size := by decide

theorem cut_truncated : ∃ info, Accepted cut info ∧
    ¬ NeverTruncates cut info ⟨"COM3", 0, false, true⟩ := by
  obtain ⟨info, accepted, entries⟩ : ∃ info, Accepted cut info ∧ info.entries = cutEntries :=
    (parsePac_image "cut.pac" cut_layable).1
  refine ⟨info, accepted, fun never => ?_⟩
  have found : fdl1Of info = some (entry hostFdl 0x00838000 (payloadOffset 2) 1) := by
    rw [fdl1Of, entries]
    decide
  have order : transferred info false = cutEntries := by
    rw [transferred, loaders, fdl1Of, fdl2Of, flashableEntries, dataMarkers, entries]
    decide
  have inside := neverTruncates_inside accepted found never
  have length : cut.content.length = payloadOffset 2 + 2 := image_length "cut.pac" cut_layable
  rw [order] at inside
  unfold InFile at inside
  rw [length] at inside
  exact absurd inside (by decide)

end Package

end SprdFlash.Truncation
