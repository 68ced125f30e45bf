import SprdFlash.Acknowledging
import SprdFlash.PacImage
import SprdFlash.Package

/-!
Without `format_fs` the logical region is left alone. Whatever the device does
and wherever a run stops, no erase is sent and no transfer is opened at a
logical address or at address 0.
-/

namespace SprdFlash.LogicalRegion

open Message Port Pac Flasher Native Script Plan WireLog Runs Transfers Package

/-- No erase, and no START_DATA of either layer at address 0 or at a logical one. -/
def Spares (c : Sent) : Prop :=
  (∀ data, c ≠ .bsl bslCmdEraseFlash data) ∧
    ∀ address declared summed, startOf c = some (address, declared, summed) →
      address ≠ 0 ∧ address < 0xFE000000

theorem classified_address {e : PacEntry} {role : Role} (h : classify e = role)
    (payload : role ≠ .marker) : e.address ≠ 0 ∧ e.address < 0xFE000000 :=
  (classify_ne_marker (h.trans_ne payload)).2

theorem find_address {info : PacInfo} {role : Role} {e : PacEntry} (payload : role ≠ .marker)
    (h : info.entries.find? (fun e => classify e = role) = some e) :
    e.address ≠ 0 ∧ e.address < 0xFE000000 :=
  classified_address (by simpa using List.find?_some h) payload

theorem planned_address {info : PacInfo} {fdl1 : PacEntry} (found : fdl1Of info = some fdl1)
    (content : Bytes) {t : Transfer} (h : t ∈ planned info fdl1 content false) :
    t.address ≠ 0 ∧ t.address < 0xFE000000 := by
  simp only [planned, Bool.false_eq_true, if_false, List.append_nil, List.mem_cons,
    List.mem_append, List.mem_map] at h
  rcases h with rfl | ⟨e, he, rfl⟩ | ⟨e, he, rfl⟩
  · exact find_address (by decide) found
  · exact find_address (by decide) (Option.mem_toList.mp he)
  · have role : classify e = .flash := by simpa using List.of_mem_filter he
    exact classified_address role (by decide)

theorem exchanged_emits {i : Step} (h : Exchanged false i) {c : Sent} (hc : c ∈ emits i)
    (data : Bytes) : c ≠ .bsl bslCmdEraseFlash data := by
  cases i with
  | command cmd payload what =>
    rw [List.mem_singleton.mp hc]
    intro same
    exact h.2 rfl (Sent.bsl.inj same).1
  | lenient cmd payload what =>
    rw [List.mem_singleton.mp hc]
    intro same
    exact h.2 rfl (Sent.bsl.inj same).1
  | fail e => cases hc
  | _ => exact h.elim

theorem native_emits {info : PacInfo} {fdl1 : PacEntry} {content : Bytes} {options : NativeOptions}
    (plain : options.formatFs = false) {i : Step} (hi : i ∈ native info fdl1 content options)
    {c : Sent} (hc : c ∈ emits i) (data : Bytes) : c ≠ .bsl bslCmdEraseFlash data := by
  rw [native, List.mem_append, List.mem_append, List.mem_cons, List.mem_cons] at hi
  rcases hi with (hi | rfl | rfl | hi) | hi
  · have request : ∃ cmd arg1 arg2 extra, i = .request cmd arg1 arg2 extra := by
      rw [loader_eq] at hi
      simp only [List.mem_cons, List.mem_append, List.mem_map, List.not_mem_nil, or_false] at hi
      rcases hi with rfl | rfl | ⟨block, -, rfl⟩ | rfl <;> exact ⟨_, _, _, _, rfl⟩
    obtain ⟨cmd, arg1, arg2, extra, rfl⟩ := request
    rw [List.mem_singleton.mp hc]
    simp
  · rw [List.mem_singleton.mp hc]
    simp
  · cases hc
  · rw [plain] at hi
    exact exchanged_emits (exchanged_bslWrites _ _ _ i hi) hc data
  · rw [mem_reset hi] at hc
    rw [List.mem_singleton.mp hc]
    intro same
    exact absurd (Sent.bsl.inj same).1 (by decide)

/-- A run without `format_fs` never touches the logical region. -/
theorem nativeFlash_spares {σ : Type} [Device σ] (d : σ) (path : PacFile)
    (options : NativeOptions) (plain : options.formatFs = false) :
    ∀ c ∈ sentCmds (final (nativeFlash path options (Port.fresh d))).log, Spares c := by
  intro c hc
  rcases nativeFlash_sent path options (Port.fresh d) with
    nothing | ⟨info, fdl1, accepted, found, part, initial, written⟩
  · rw [nothing] at hc
    cases hc
  · rw [written] at hc
    have mem : c ∈ commands (native info fdl1 path.content options) := initial.subset hc
    obtain ⟨i, hi, sends⟩ := mem_commands mem
    refine ⟨native_emits plain hi sends, fun address declared summed opens => ?_⟩
    obtain ⟨t, ht, same⟩ := mem_transfers mem opens
    rw [native_transfers (accepted_narrow accepted) found, plain] at ht
    rw [← same]
    exact planned_address found path.content ht

theorem package_spares :
    let sent := sentCmds (final (nativeFlash (PacImage.package 2) ⟨"COM3", 0, false, true⟩
      (Port.fresh Acknowledging.Acker.mk))).log
    sent ≠ [] ∧ ∀ c ∈ sent, Spares c := by
  obtain ⟨info, accepted, entries⟩ := PacImage.package_accepted (show 2 < 2 ^ 32 by decide)
  obtain ⟨t, written, outcome⟩ := Acknowledging.nativeFlash_acknowledged accepted
    (PacImage.package_fdl1 entries) ⟨"COM3", 0, false, true⟩ Acknowledging.Acker.mk
  refine ⟨?_, nativeFlash_spares Acknowledging.Acker.mk (PacImage.package 2)
    ⟨"COM3", 0, false, true⟩ rfl⟩
  have first : halts (.request .connect 0 0 []) = false := by decide
  rw [Acknowledging.outcome_final outcome, written, commands, native, loader_eq, live]
  simp [first, emits]

end SprdFlash.LogicalRegion
