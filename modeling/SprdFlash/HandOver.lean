import SprdFlash.Acknowledging
import SprdFlash.Handshake

/-!
The two handshakes on one stream. After EXEC the host takes what lies between
the first two flags for the VER frame, whatever it is; `autobaud` takes the
first frame of type VER, skipping idle flags and frames of other types. They
agree on the streams whose first two flags enclose a VER frame, and on few more.
-/

namespace SprdFlash.HandOver

open Message Port SpdIO Script Exchange Framing Handshake Stuffing Acknowledging

def between (stream : Bytes) : Option Bytes :=
  match stream.dropWhile (· ≠ hdlcFlag) with
  | [] => none
  | _ :: rest => if hdlcFlag ∈ rest then some (rest.takeWhile (· ≠ hdlcFlag)) else none

theorem dropWhile_gap {gap : Bytes} (noFlag : hdlcFlag ∉ gap) (rest : Bytes) :
    (gap ++ hdlcFlag :: rest).dropWhile (· ≠ hdlcFlag) = hdlcFlag :: rest := by
  induction gap with
  | nil => exact List.dropWhile_cons_of_neg (by simp)
  | cons b gap ih =>
    rw [List.mem_cons, not_or] at noFlag
    rw [List.cons_append, List.dropWhile_cons_of_pos (by simpa using Ne.symm noFlag.1), ih noFlag.2]

theorem takeWhile_gap {gap : Bytes} (noFlag : hdlcFlag ∉ gap) (rest : Bytes) :
    (gap ++ hdlcFlag :: rest).takeWhile (· ≠ hdlcFlag) = gap := by
  induction gap with
  | nil => exact List.takeWhile_cons_of_neg (by simp)
  | cons b gap ih =>
    rw [List.mem_cons, not_or] at noFlag
    rw [List.cons_append, List.takeWhile_cons_of_pos (by simpa using Ne.symm noFlag.1), ih noFlag.2]

theorem dropWhile_noFlag {stream : Bytes} (noFlag : hdlcFlag ∉ stream) :
    stream.dropWhile (· ≠ hdlcFlag) = [] := by
  rw [List.dropWhile_eq_nil_iff]
  intro b hb
  have other : b ≠ hdlcFlag := fun same => noFlag (same ▸ hb)
  simp [other]

theorem between_eq_some {stream w : Bytes} :
    between stream = some w ↔ hdlcFlag ∉ w ∧ ∃ gap rest, hdlcFlag ∉ gap ∧
      stream = gap ++ hdlcFlag :: (w ++ hdlcFlag :: rest) := by
  constructor
  · intro found
    by_cases opened : hdlcFlag ∈ stream
    · obtain ⟨gap, back, rfl, gapNoFlag⟩ := List.eq_append_cons_of_mem opened
      rw [between, dropWhile_gap gapNoFlag] at found
      simp only at found
      split_ifs at found with closed
      obtain ⟨w', rest, rfl, noFlag⟩ := List.eq_append_cons_of_mem closed
      rw [takeWhile_gap noFlag, Option.some.injEq] at found
      subst found
      exact ⟨noFlag, gap, rest, gapNoFlag, rfl⟩
    · rw [between, dropWhile_noFlag opened] at found
      cases found
  · rintro ⟨noFlag, gap, rest, gapNoFlag, rfl⟩
    rw [between, dropWhile_gap gapNoFlag]
    simp only
    rw [if_pos (by simp), takeWhile_gap noFlag]

theorem verFrame_eq (stream : Bytes) :
    Pdl.verFrame stream = (between stream).map fun w => hdlcFlag :: w ++ [hdlcFlag] := by
  by_cases opened : hdlcFlag ∈ stream
  · obtain ⟨gap, back, rfl, gapNoFlag⟩ := List.eq_append_cons_of_mem opened
    rw [Pdl.verFrame, between, dropWhile_gap gapNoFlag]
    simp only
    split_ifs <;> rfl
  · rw [Pdl.verFrame, between, dropWhile_noFlag opened]
    rfl

section Autobaud

end Autobaud

section Exec

end Exec

/-- Both handshakes accept the same versions. -/
def Agree (s : Port Tape) : Prop :=
  ∀ data, (∃ t log, Native.handOver s = .ok () t ∧ t.log = log ++ [.version data]) ↔
    ∃ attempts t, autobaud attempts s = .ok data t

end SprdFlash.HandOver
