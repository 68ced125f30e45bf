import SprdFlash.WireLog

/-!
Whole flows, from a port in any state and against any device. What a flow sends
is an initial part of what its plan stands for; nothing is sent when the package
is refused or the port cannot be opened.
-/

namespace SprdFlash.Runs

open Message Port Pac Flasher Native Script Plan WireLog

variable {σ : Type} [Device σ]

theorem attach_log (refused : Exc) (s : Port σ) :
    (∃ t, attach refused s = .ok () t ∧ t.log = s.log ++ [.opened]) ∨
      ∃ e t, attach refused s = .error e t ∧ t.log = s.log := by
  unfold attach
  split
  · exact .inl ⟨_, rfl, rfl⟩
  · exact .inr ⟨_, _, rfl, rfl⟩

theorem openSerial_log (com : String) (attempts : ℕ) (s : Port σ) :
    (∃ t, openSerial com attempts s = .ok () t ∧ t.log = s.log ++ [.opened]) ∨
      ∃ e t, openSerial com attempts s = .error e t ∧ t.log = s.log := by
  induction attempts generalizing s with
  | zero => exact .inr ⟨_, s, rfl, rfl⟩
  | succ attempts ih =>
    unfold openSerial
    rcases attach_log (.osError "could not open port") s with
      ⟨t, run, opened⟩ | ⟨e, t, run, same⟩
    · rw [run]
      exact .inl ⟨t, rfl, opened⟩
    · rw [run, ← same]
      exact ih t

/-- A run does nothing to the port, or it is the run of its plan on an open one. -/
theorem nativeFlash_run (path : PacFile) (options : NativeOptions) (s : Port σ) :
    (∃ e t, nativeFlash path options s = .error e t ∧ t.log = s.log) ∨
    ∃ info fdl1, Accepted path info ∧ fdl1Of info = some fdl1 ∧ ∃ t, t.log = s.log ++ [.opened] ∧
      nativeFlash path options s =
        closing (perform Step.exec (native info fdl1 path.content options)) t := by
  by_cases usable : ∃ info fdl1, Accepted path info ∧ fdl1Of info = some fdl1
  · obtain ⟨info, fdl1, accepted, found⟩ := usable
    rw [nativeFlash_eq accepted found]
    rcases openSerial_log options.com 200 s with ⟨t, run, opened⟩ | ⟨e, t, run, same⟩
    · rw [bind_ok run]
      exact .inr ⟨info, fdl1, accepted, found,
        { t with pending := if Device.discards t.device then [] else t.pending }, opened, rfl⟩
    · rw [bind_error run]
      exact .inl ⟨e, t, rfl, same⟩
  · obtain ⟨e, refused⟩ := nativeFlash_refused
      (fun info fdl1 accepted found => usable ⟨info, fdl1, accepted, found⟩) options s
    exact .inl ⟨e, s, refused, rfl⟩

omit [Device σ] in
theorem closing_log (body : Session σ Unit) (s : Port σ) :
    (final (closing body s)).log = (final (body s)).log ++ [.closed] := by
  unfold closing
  cases body s with
  | ok u t => rfl
  | error e t => rfl

omit [Device σ] in
theorem closing_ok {body : Session σ Unit} {s : Port σ} (h : ∃ t, closing body s = .ok () t) :
    ∃ t, body s = .ok () t := by
  obtain ⟨t, run⟩ := h
  unfold closing at run
  split at run
  · rename_i u t' returned
    exact ⟨t', returned⟩
  · cases run

/-- The commands of a plan up to its first failing step. -/
def commands (steps : List Step) : List Sent := (live halts steps).flatMap emits

theorem mem_commands {steps : List Step} {c : Sent} (h : c ∈ commands steps) :
    ∃ i ∈ steps, c ∈ emits i := by
  obtain ⟨i, hi, hc⟩ := List.mem_flatMap.mp h
  exact ⟨i, List.takeWhile_subset _ hi, hc⟩

theorem perform_sent (steps : List Step) (s : Port σ) :
    ∃ part, part <+: commands steps ∧
      sentCmds (final (perform Step.exec steps s)).log = sentCmds s.log ++ part := by
  cases run : perform Step.exec steps s with
  | ok u t =>
    obtain ⟨complete, _, written⟩ := sent_traced.perform_ok (fun _ _ => trivial) trivial run
    refine ⟨steps.flatMap emits, ?_, written⟩
    rw [commands, live_eq_self complete]
  | error e t =>
    exact sent_traced.perform_error (fun _ _ => trivial) trivial run

theorem nativeFlash_sent (path : PacFile) (options : NativeOptions) (s : Port σ) :
    sentCmds (final (nativeFlash path options s)).log = sentCmds s.log ∨
    ∃ info fdl1, Accepted path info ∧ fdl1Of info = some fdl1 ∧
      ∃ part, part <+: commands (native info fdl1 path.content options) ∧
        sentCmds (final (nativeFlash path options s)).log = sentCmds s.log ++ part := by
  rcases nativeFlash_run path options s with
    ⟨e, t, run, same⟩ | ⟨info, fdl1, accepted, found, t, opened, run⟩
  · refine .inl ?_
    rw [run, ← same]
    rfl
  · obtain ⟨part, initial, written⟩ := perform_sent (native info fdl1 path.content options) t
    have opening : sentCmds [.opened] = [] := rfl
    have closed : sentCmds [.closed] = [] := rfl
    refine .inr ⟨info, fdl1, accepted, found, part, initial, ?_⟩
    rw [run, closing_log, sentCmds_append, written, opened, sentCmds_append, opening, closed,
      List.append_nil, List.append_nil]

end SprdFlash.Runs
