import SprdFlash.Acknowledging
import SprdFlash.ExitCodes
import SprdFlash.Refusal

/-!
Two gates on one file. `_cmd_flash` parses the package as it was asked to and may be told
to go on; `native_flash` parses it again with every check, and nothing of either option
reaches it.
-/

namespace SprdFlash.Gates

open Message Port Pac Flasher Native Struct Script Plan WireLog Transfers Acknowledging
open Cli Endings ExitCodes

def LetsThrough (path : PacFile) (args : FlashArgs) : Prop :=
  ∃ info, parsePac path (!args.noVerify) = .ok info ∧ (info.crcOk = true ∨ args.force = true)

def checksumMismatch : Exc := .pdlError "PAC checksum mismatch - refusing to flash"

/-- The same table and the same bytes behind it. -/
def SameContents (path twin : PacFile) : Prop :=
  ∃ info info', parsePac path true = .ok info ∧ parsePac twin true = .ok info' ∧
    info'.entries = info.entries ∧
    ∀ e ∈ info.entries, Native.readEntry twin.content e = Native.readEntry path.content e

/-- A file that is let through is flashed like one with the same contents and
correct checksums. -/
structure GatesAgree (path : PacFile) (args : FlashArgs) : Prop where
  unrefused : LetsThrough path args → ∀ (σ : Type) [Device σ] (com : String) (s t : Port σ),
    nativeFlash path (nativeOptions args com) s ≠ .error checksumMismatch t
  same : LetsThrough path args → ∀ twin, SameContents path twin → (∃ info, Accepted twin info) →
    ∀ (σ : Type) [Device σ] [AckDevice σ] (com : String) (d : σ),
      transfers (sentCmds (final (nativeFlash path (nativeOptions args com) (Port.fresh d))).log) =
        transfers (sentCmds (final (nativeFlash twin (nativeOptions args com) (Port.fresh d))).log)

section Parsing

theorem parsePac_unverified (path : PacFile) :
    parsePac path false =
      (parsePac path true).map fun info => { info with payloadCrcOk := none } := by
  unfold parsePac
  simp only
  split
  · rfl
  split
  · rfl
  · cases readTable path (u32At (readAt path.content 0 pacHeaderSize) 1076)
      (u32At (readAt path.content 0 pacHeaderSize) 1080) <;>
      simp [Except.map, bind, Except.bind, pure, Except.pure]

theorem letsThrough_iff {path : PacFile} {info : PacInfo} (parsed : parsePac path true = .ok info)
    (args : FlashArgs) :
    LetsThrough path args ↔ args.force = true ∨ info.headerCrcOk = true ∧
      (args.noVerify = true ∨ info.payloadCrcOk ≠ some false) := by
  unfold LetsThrough
  cases args.noVerify with
  | false =>
    simp [parsed, PacInfo.crcOk, or_comm]
  | true =>
    simp [parsePac_unverified, parsed, PacInfo.crcOk, Except.map, or_comm]

end Parsing

section Twins

variable {info info' : PacInfo} {content content' : Bytes}

theorem imageDict_congr {entries : List PacEntry}
    (held : ∀ e ∈ entries, Native.readEntry content' e = Native.readEntry content e) :
    imageDict content' entries = imageDict content entries :=
  LastWins.comprehension_congr PacEntry.fileId held

theorem native_congr (table : info'.entries = info.entries)
    (held : ∀ e ∈ info.entries, Native.readEntry content' e = Native.readEntry content e)
    {fdl1 : PacEntry} (listed : fdl1 ∈ info.entries) (options : NativeOptions) :
    native info' fdl1 content' options = native info fdl1 content options := by
  have partitions : imageDict content' (flashableEntries info) =
      imageDict content (flashableEntries info) :=
    imageDict_congr fun e mem => held e (List.mem_of_mem_filter mem)
  have markers : imageDict content' (dataMarkers info) = imageDict content (dataMarkers info) :=
    imageDict_congr fun e mem => held e (List.mem_of_mem_filter mem)
  have flashable : flashableEntries info' = flashableEntries info := by
    rw [flashableEntries, flashableEntries, table]
  have marked : dataMarkers info' = dataMarkers info := by rw [dataMarkers, dataMarkers, table]
  have erased : eraseOps info' = eraseOps info := by rw [eraseOps, eraseOps, table]
  have loaded : ∀ e, info.entries.find? (fun e => classify e = .fdl2) = some e →
      Native.readEntry content' e = Native.readEntry content e :=
    fun e found => held e (List.mem_of_find?_eq_some found)
  rw [native, native, bslWrites, bslWrites, format, format, flashable, marked, erased, partitions,
    markers, held fdl1 listed, table]
  cases found : info.entries.find? (fun e => classify e = .fdl2) with
  | none => rfl
  | some fdl2 => rw [Option.map_some, Option.map_some, loaded fdl2 found]

theorem nativeFlash_congr {σ : Type} [Device σ] {path twin : PacFile}
    (accepted : Accepted path info) (accepted' : Accepted twin info')
    (table : info'.entries = info.entries) (held : ∀ e ∈ info.entries,
      Native.readEntry twin.content e = Native.readEntry path.content e) (options : NativeOptions) :
    nativeFlash (σ := σ) twin options = nativeFlash path options := by
  have loader : fdl1Of info' = fdl1Of info := by rw [fdl1Of, fdl1Of, table]
  cases found : fdl1Of info with
  | none =>
    funext s
    rw [nativeFlash_loaderless accepted found,
      nativeFlash_loaderless accepted' (loader.trans found)]
  | some fdl1 =>
    rw [nativeFlash_eq accepted found, nativeFlash_eq accepted' (loader.trans found),
      native_congr table held (List.mem_of_find?_eq_some found)]

end Twins

section Gate

theorem couldNotOpen_ne (com : String) :
    s!"could not open {com}" ≠ "PAC checksum mismatch - refusing to flash" := by
  intro same
  have heads := congrArg (fun text : String => text.toList.head?) same
  simp [toString] at heads

theorem ends_unrefused {σ : Type} [Device σ] {x : Session σ Unit} {s : Port σ} {stop : Ending σ}
    (ends : Ends x s stop) (t : Port σ) : x s ≠ .error checksumMismatch t := by
  intro refused
  unfold Ends at ends
  rw [refused] at ends
  cases stop with
  | unanswered =>
    obtain ⟨msg, text, t', same⟩ := ends
    cases same
    exact absurd text (by decide)
  | broken =>
    obtain ⟨e, t', same, other⟩ := ends
    cases same
    cases other
  | _ => simp [checksumMismatch] at ends

theorem accepted_unrefused {σ : Type} [Device σ] {path : PacFile} {info : PacInfo}
    (accepted : Accepted path info) (options : NativeOptions) (s t : Port σ) :
    nativeFlash path options s ≠ .error checksumMismatch t := by
  have ends := nativeFlash_ends accepted options s
  cases fate : flowEnding path options s.checksum s.device with
  | some stop =>
    rw [fate] at ends
    exact ends_unrefused ends t
  | none =>
    rw [fate] at ends
    obtain ⟨msg, text, t', failed⟩ := ends
    rw [failed]
    intro same
    cases same
    rw [openingTexts, List.mem_cons, List.mem_singleton] at text
    rcases text with text | text
    · exact absurd text (by decide)
    · exact couldNotOpen_ne _ text.symm

theorem parsed_of_letsThrough {path : PacFile} {args : FlashArgs}
    (through : LetsThrough path args) :
    ∃ info, parsePac path true = .ok info := by
  obtain ⟨info, parsed, -⟩ := through
  cases verified : parsePac path true with
  | ok info' => exact ⟨info', rfl⟩
  | error e =>
    cases skip : args.noVerify with
    | false =>
      rw [skip, Bool.not_false, verified] at parsed
      cases parsed
    | true =>
      rw [skip, Bool.not_true, parsePac_unverified, verified] at parsed
      cases parsed

/-- The gates agree on a package with correct checksums, and on one that the first
of them stops. -/
theorem gates_agree_iff (path : PacFile) (args : FlashArgs) :
    GatesAgree path args ↔ ∀ info, parsePac path true = .ok info → info.crcOk = true ∨
      args.force = false ∧ (info.headerCrcOk = false ∨ args.noVerify = false) := by
  constructor
  · intro agree info parsed
    by_contra wrong
    rw [not_or] at wrong
    have bad : info.crcOk = false := by simpa using wrong.1
    have through : LetsThrough path args := by
      rw [letsThrough_iff parsed]
      have second := wrong.2
      revert second
      cases args.force <;> cases args.noVerify <;> cases info.headerCrcOk <;> simp
    exact agree.unrefused through Tape "" (Port.fresh ⟨[]⟩) _ (nativeFlash_mismatch parsed bad _ _)
  · intro fine
    have good : LetsThrough path args → ∃ info, Accepted path info := by
      intro through
      obtain ⟨info, parsed⟩ := parsed_of_letsThrough through
      refine ⟨info, parsed, ?_⟩
      rcases fine info parsed with good | ⟨unforced, stopped⟩
      · exact good
      · rw [letsThrough_iff parsed, unforced] at through
        rw [PacInfo.crcOk]
        revert through stopped
        cases args.noVerify <;> cases info.headerCrcOk <;> simp
    refine ⟨fun through σ _ com s t => ?_, fun through twin same correct σ _ _ com d => ?_⟩
    · obtain ⟨info, accepted⟩ := good through
      exact accepted_unrefused accepted _ s t
    · obtain ⟨info, accepted⟩ := good through
      obtain ⟨info', accepted'⟩ := correct
      obtain ⟨read, read', parsed, parsed', table, held⟩ := same
      cases accepted.parsed.symm.trans parsed
      cases accepted'.parsed.symm.trans parsed'
      rw [nativeFlash_congr accepted accepted' table held]

end Gate

section Damage

open PacImage

variable {path twin : PacFile} {p : ℕ}

theorem readTable_window (window : Window path.content twin.content p) {count pos : ℕ}
    {entries : List PacEntry} (behind : pos + count * fileHeaderSize ≤ p)
    (h : readTable path count pos = .ok entries) : readTable twin count pos = .ok entries := by
  induction count generalizing pos entries with
  | zero => exact h
  | succ count ih =>
    rw [Nat.succ_mul] at behind
    have header : readAt path.content pos fileHeaderSize = readAt twin.content pos fileHeaderSize :=
      window.readAt_eq (.inr (by omega))
    cases rest : readTable path count (pos + fileHeaderSize) with
    | error e =>
      simp only [readTable, rest, bind, Except.bind] at h
      split_ifs at h
    | ok later =>
      have same : readTable twin count (pos + fileHeaderSize) = .ok later := ih (by omega) rest
      simp only [readTable, rest, same, header] at h ⊢
      split_ifs at h with short
      rw [if_neg short]
      exact h

/-- Damage behind the table leaves the parse of it alone. -/
theorem parsePac_window {info : PacInfo} (window : Window path.content twin.content p)
    (header : pacHeaderSize ≤ p)
    (table : u32At path.content 1080 + u32At path.content 1076 * fileHeaderSize ≤ p)
    (parsed : parsePac path true = .ok info) :
    ∃ info', parsePac twin true = .ok info' ∧ info'.entries = info.entries := by
  obtain ⟨long, size, read, -, -⟩ := parsePac_eq_ok parsed
  have word (offset : ℕ) (inside : offset + 4 ≤ pacHeaderSize) :
      u32At twin.content offset = u32At path.content offset := by
    rw [u32At, u32At, window.readAt_eq (.inr (by omega))]
  refine parsePac_ok (window.1 ▸ long) ?_ ?_
  · rw [word 48 (by decide), size, window.1]
  · rw [word 1076 (by decide), word 1080 (by decide)]
    exact readTable_window window table read

def forced : FlashArgs := ⟨some "COM34", false, true, false, false⟩

theorem forced_refused : ¬ GatesAgree Refusal.scratched forced := by
  intro agree
  obtain ⟨info, accepted, -⟩ := package_accepted (show 2 < 2 ^ 32 by decide)
  obtain ⟨info', parsed, -⟩ := parsePac_window Refusal.scratched_damage.window (by decide)
    (by decide +kernel) accepted.parsed
  have bad : info'.crcOk = false :=
    crcOk_false_of_localDamage accepted.parsed accepted.crcOk Refusal.scratched_damage parsed
  have through : LetsThrough Refusal.scratched forced := ⟨info', parsed, .inr rfl⟩
  exact agree.unrefused through Tape "COM34" (Port.fresh ⟨[]⟩) _
    (nativeFlash_mismatch parsed bad _ _)

end Damage

end SprdFlash.Gates
