import SprdFlash.Acknowledging
import SprdFlash.PacImage
import SprdFlash.Package

/-!
Whether every image is written with its own entry's bytes. The images pass
through dictionaries keyed by file id, so of several entries with one id only
the last keeps its bytes; `native_flash` writes what it should exactly when no
entry it reaches is shadowed by a later one with other bytes.
-/

namespace SprdFlash.OwnBytes

open Message Port Pac Flasher Native Script Plan WireLog Runs Transfers Package Acknowledging

variable {σ : Type}

def plainMarkers (markers : List PacEntry) : List PacEntry :=
  markers.filter fun e => upper e.fileId ≠ nvId

def targets (info : PacInfo) (formatFs : Bool) : List PacEntry :=
  flashableEntries info ++ if formatFs then plainMarkers (dataMarkers info) else []

def own (content : Bytes) (e : PacEntry) : ℕ × Bytes × Bool :=
  (e.address, Native.readEntry content e, true)

def carried (t : Transfer) : ℕ × Bytes × Bool := (t.address, t.image, t.ended)

/-- The transfers of a run other than that of an NV image. -/
def plainTransfers (result : EStateM.Result Exc (Port σ) Unit) : List Transfer :=
  (transfers (sentCmds (final result).log)).filter fun t => !t.summed

/-- Transfer by transfer, in PAC order, a run writes the entries' own bytes to
their addresses; it writes all of them if it returns. -/
def WritesOwn (info : PacInfo) (content : Bytes) (formatFs : Bool)
    (result : EStateM.Result Exc (Port σ) Unit) : Prop :=
  let expected := (loaders info ++ targets info formatFs).map (own content)
  (plainTransfers result).map carried <+: expected ∧
    ((∃ t, result = .ok () t) → (plainTransfers result).map carried = expected)

/-- The last entry of a list with the id of `e` has the same bytes in the file. -/
def Unshadowed (content : Bytes) (entries : List PacEntry) (e : PacEntry) : Prop :=
  Native.readEntry content (standIn entries e) = Native.readEntry content e

instance (content : Bytes) (entries : List PacEntry) (e : PacEntry) :
    Decidable (Unshadowed content entries e) := inferInstanceAs (Decidable (_ = _))

/-- The package is refused for want of FDL1, or no partition and no marker that
is reached is shadowed. -/
def NoneShadowed (info : PacInfo) (content : Bytes) (formatFs : Bool) : Prop :=
  fdl1Of info = none ∨
    ((∀ e ∈ flashableEntries info, Unshadowed content (flashableEntries info) e) ∧
      (formatFs = true → ∀ e ∈ plainMarkers (reached info content),
        Unshadowed content (dataMarkers info) e))

def held (content : Bytes) (entries : List PacEntry) (e : PacEntry) : ℕ × Bytes × Bool :=
  (e.address, imageOf content entries e, true)

theorem held_eq_own_iff {content : Bytes} {entries : List PacEntry} {e : PacEntry} :
    held content entries e = own content e ↔ Unshadowed content entries e := by
  simp [held, own, Unshadowed, imageOf]

theorem map_held_eq_iff {content : Bytes} {entries some : List PacEntry} :
    some.map (held content entries) = some.map (own content) ↔
      ∀ e ∈ some, Unshadowed content entries e := by
  simp only [List.map_inj_left, held_eq_own_iff]

theorem writtenMarkers_carried (info : PacInfo) (content : Bytes) (markers : List PacEntry) :
    ((markers.map (writtenMarker info content)).filter fun t => !t.summed).map carried =
      (plainMarkers markers).map (held content (dataMarkers info)) := by
  induction markers with
  | nil => rfl
  | cons e markers ih =>
    rw [plainMarkers] at ih ⊢
    by_cases isNv : upper e.fileId = nvId
    · have summed : (writtenMarker info content e).summed = true := by
        rw [writtenMarker, if_pos isNv]
        rfl
      rw [List.map_cons, List.filter_cons_of_neg (by simp [summed]), ih,
        List.filter_cons_of_neg (by simp [isNv])]
    · have plain : writtenMarker info content e =
          written e.address (imageOf content (dataMarkers info) e) := by
        rw [writtenMarker, if_neg isNv]
      rw [List.map_cons, plain, List.filter_cons_of_pos (by rfl), List.map_cons, ih,
        List.filter_cons_of_pos (by simpa using isNv), List.map_cons]
      rfl

theorem planned_carried {info : PacInfo} {fdl1 : PacEntry} (found : fdl1Of info = some fdl1)
    (content : Bytes) (formatFs : Bool) :
    ((planned info fdl1 content formatFs).filter fun t => !t.summed).map carried =
      (loaders info).map (own content) ++
        ((flashableEntries info).map (held content (flashableEntries info)) ++
          (if formatFs then plainMarkers (reached info content) else []).map
            (held content (dataMarkers info))) := by
  have plain : ∀ (entries : List PacEntry) (image : PacEntry → Bytes),
      ((entries.map fun e => written e.address (image e)).filter fun t => !t.summed) =
        entries.map fun e => written e.address (image e) := by
    intro entries image
    apply List.filter_eq_self.mpr
    intro t ht
    obtain ⟨e, -, rfl⟩ := List.mem_map.mp ht
    rfl
  have markers : ((if formatFs then (reached info content).map (writtenMarker info content)
      else []).filter fun t => !t.summed).map carried =
      (if formatFs then plainMarkers (reached info content) else []).map
        (held content (dataMarkers info)) := by
    cases formatFs with
    | false => rfl
    | true => exact writtenMarkers_carried info content _
  rw [planned, loaders, found, List.filter_append, List.map_append, markers,
    List.filter_cons_of_pos (by rfl), List.filter_append, plain, plain]
  simp only [List.map_cons, List.map_append, List.map_map, Option.toList_some, List.cons_append,
    List.nil_append, List.append_assoc]
  rfl

/-- The comparison of both lists, image by image. -/
theorem held_prefix_iff {info : PacInfo} {content : Bytes} {formatFs : Bool} :
    ((flashableEntries info).map (held content (flashableEntries info)) ++
        (if formatFs then plainMarkers (reached info content) else []).map
          (held content (dataMarkers info)) <+:
      (targets info formatFs).map (own content)) ↔
      (∀ e ∈ flashableEntries info, Unshadowed content (flashableEntries info) e) ∧
        (formatFs = true → ∀ e ∈ plainMarkers (reached info content),
          Unshadowed content (dataMarkers info) e) := by
  obtain ⟨later, all⟩ : plainMarkers (reached info content) <+: plainMarkers (dataMarkers info) :=
    (List.takeWhile_prefix _).filter _
  rw [targets, List.map_append, ← map_held_eq_iff, ← map_held_eq_iff]
  constructor
  · rintro ⟨rest, whole⟩
    rw [List.append_assoc] at whole
    obtain ⟨partitions, markers⟩ := List.append_inj whole (by simp)
    refine ⟨partitions, fun format => ?_⟩
    rw [if_pos format, if_pos format, ← all, List.map_append] at markers
    exact (List.append_inj markers (by simp)).1
  · rintro ⟨partitions, markers⟩
    rw [partitions, List.prefix_append_right_inj]
    cases formatFs with
    | false => exact List.prefix_rfl
    | true =>
      simp only [if_true]
      rw [markers rfl, ← all, List.map_append]
      exact List.prefix_append _ _

section Runs

variable [Device σ] [AckDevice σ] (d : σ) {path : PacFile} {info : PacInfo}

theorem nativeFlash_carried (accepted : Accepted path info) {fdl1 : PacEntry}
    (found : fdl1Of info = some fdl1) (options : NativeOptions) :
    (plainTransfers (nativeFlash path options (Port.fresh d))).map carried =
        (loaders info).map (own path.content) ++
          ((flashableEntries info).map (held path.content (flashableEntries info)) ++
            (if options.formatFs then plainMarkers (reached info path.content) else []).map
              (held path.content (dataMarkers info))) ∧
      ((∃ t, nativeFlash path options (Port.fresh d) = .ok () t) →
        Sound (native info fdl1 path.content options)) := by
  have narrow := accepted_narrow accepted
  obtain ⟨t, written, outcome⟩ := nativeFlash_acknowledged accepted found options d
  have sent := planned_carried found path.content options.formatFs
  rw [← native_transfers narrow found path.content options, ← written] at sent
  rcases outcome with ⟨sound, run⟩ | ⟨-, e, run⟩
  · rw [run]
    exact ⟨sent, fun _ => sound⟩
  · rw [run]
    exact ⟨sent, fun returned => by simp at returned⟩

theorem prefix_expected_iff {info : PacInfo} {content : Bytes} {formatFs : Bool}
    {sent : List (ℕ × Bytes × Bool)} :
    (loaders info).map (own content) ++ sent <+:
        (loaders info ++ targets info formatFs).map (own content) ↔
      sent <+: (targets info formatFs).map (own content) := by
  rw [List.map_append, List.prefix_append_right_inj]

/-- On an acknowledging device every image carries its own entry's bytes exactly
when no entry that is reached is shadowed. -/
theorem nativeFlash_writesOwn_iff (accepted : Accepted path info) (options : NativeOptions) :
    WritesOwn info path.content options.formatFs (nativeFlash path options (Port.fresh d)) ↔
      NoneShadowed info path.content options.formatFs := by
  cases found : fdl1Of info with
  | none =>
    refine iff_of_true ?_ (.inl found)
    rw [nativeFlash_loaderless accepted found options (Port.fresh d)]
    exact ⟨List.nil_prefix, fun returned => by simp at returned⟩
  | some fdl1 =>
    have present : fdl1Of info ≠ none := by simp [found]
    obtain ⟨sent, sound⟩ := nativeFlash_carried d accepted found options
    rw [WritesOwn, NoneShadowed, or_iff_right present, sent]
    simp only [prefix_expected_iff]
    rw [held_prefix_iff]
    refine and_iff_left_of_imp ?_
    rintro ⟨partitions, markers⟩ returned
    have all := (native_sound_iff (accepted_narrow accepted) found path.content options).mp
      (sound returned)
    rw [List.map_append, targets, List.map_append, map_held_eq_iff.mpr partitions]
    cases format : options.formatFs with
    | false => rfl
    | true =>
      simp only [if_true]
      rw [map_held_eq_iff.mpr (markers format), reached_eq (all format)]

end Runs

section Package

open PacImage

theorem package_writesOwn : ∃ info, Accepted (package 2) info ∧
    WritesOwn info (package 2).content true
      (nativeFlash (package 2) ⟨"COM3", 0, true, true⟩ (Port.fresh Acker.mk)) := by
  obtain ⟨info, accepted, entries⟩ := package_accepted (show 2 < 2 ^ 32 by decide)
  refine ⟨info, accepted, (nativeFlash_writesOwn_iff Acker.mk accepted _).mpr (.inr ⟨?_, ?_⟩)⟩
  · rw [package_flashable entries (by decide), List.forall_mem_singleton]
    rfl
  · intro _ e he
    have markers : plainMarkers (dataMarkers info) = [] := by
      rw [package_markers entries (by decide)]
      decide
    have none : e ∈ plainMarkers (dataMarkers info) :=
      ((List.takeWhile_prefix _).filter _).subset he
    rw [markers] at none
    cases none

def twinEntries : List PacEntry :=
  [entry hostFdl 0x00838000 (payloadOffset 3) 1,
    entry ['A', 'P'] 0x60010000 (payloadOffset 3 + 1) 1,
    entry ['A', 'P'] 0x60020000 (payloadOffset 3 + 2) 1]

def twins : PacFile := image "twins.pac" twinEntries [0x11, 0x21, 0x22]

theorem twins_layable : Layable twinEntries [0x11, 0x21, 0x22] where
  storable := by decide
  size := by decide

/-- The first of two partitions with one file id is written with the bytes of
the second. -/
theorem twins_overwritten : ∃ info, Accepted twins info ∧
    ¬ WritesOwn info twins.content false
      (nativeFlash twins ⟨"COM3", 0, false, true⟩ (Port.fresh Acker.mk)) := by
  obtain ⟨info, accepted, entries⟩ : ∃ info, Accepted twins info ∧ info.entries = twinEntries :=
    (parsePac_image "twins.pac" twins_layable).1
  refine ⟨info, accepted, fun writes => ?_⟩
  have found : fdl1Of info = some (entry hostFdl 0x00838000 (payloadOffset 3) 1) := by
    rw [fdl1Of, entries]
    decide
  have partitions : flashableEntries info =
      [entry ['A', 'P'] 0x60010000 (payloadOffset 3 + 1) 1,
        entry ['A', 'P'] 0x60020000 (payloadOffset 3 + 2) 1] := by
    rw [flashableEntries, entries]
    decide
  have carries := writes.1
  rw [(nativeFlash_carried Acker.mk accepted found ⟨"COM3", 0, false, true⟩).1,
    prefix_expected_iff] at carries
  have shadowed := (held_prefix_iff.mp carries).1
    (entry ['A', 'P'] 0x60010000 (payloadOffset 3 + 1) 1)
    (by simp [partitions])
  have first : Native.readEntry twins.content
      (entry ['A', 'P'] 0x60010000 (payloadOffset 3 + 1) 1) = [0x21] :=
    readAt_image "twins.pac" twins_layable 1 1
  have second : Native.readEntry twins.content
      (entry ['A', 'P'] 0x60020000 (payloadOffset 3 + 2) 1) = [0x22] :=
    readAt_image "twins.pac" twins_layable 2 1
  have last : standIn (flashableEntries info)
    (entry ['A', 'P'] 0x60010000 (payloadOffset 3 + 1) 1) =
      entry ['A', 'P'] 0x60020000 (payloadOffset 3 + 2) 1 := by
    rw [partitions]
    decide
  rw [Unshadowed, last, first, second] at shadowed
  exact absurd shadowed (by decide)

end Package

end SprdFlash.OwnBytes
