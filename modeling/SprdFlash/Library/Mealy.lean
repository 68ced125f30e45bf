import Mathlib.Data.List.Basic

/-!
Machines that take one symbol at a time and emit some. A run over a sequence is the
runs over its parts, and a machine that only gathers what it is given emits nothing.
-/

namespace SprdFlash.Mealy

variable {σ α β : Type*} (feed : σ → α → σ × List β)

def run (s : σ) : List α → σ × List β
  | [] => (s, [])
  | a :: rest => ((run (feed s a).1 rest).1, (feed s a).2 ++ (run (feed s a).1 rest).2)

theorem run_append (s : σ) (xs ys : List α) :
    run feed s (xs ++ ys) =
      ((run feed (run feed s xs).1 ys).1, (run feed s xs).2 ++
        (run feed (run feed s xs).1 ys).2) := by
  induction xs generalizing s with
  | nil => rfl
  | cons a xs ih => rw [List.cons_append, run, run, ih, List.append_assoc]

theorem run_singleton (s : σ) (a : α) : run feed s [a] = feed s a := by
  rw [run, run, List.append_nil]

theorem run_flatten (s : σ) (words : List (List α)) :
    run (run feed) s words = run feed s words.flatten := by
  induction words generalizing s with
  | nil => rfl
  | cons word words ih => rw [run, ih, List.flatten_cons, run_append]

theorem run_congr {feed' : σ → α → σ × List β} {s : σ} {xs : List α}
    (same : ∀ first a later, xs = first ++ a :: later →
      feed' (run feed s first).1 a = feed (run feed s first).1 a) :
    run feed' s xs = run feed s xs := by
  induction xs generalizing s with
  | nil => rfl
  | cons a xs ih =>
    have here : feed' s a = feed s a := same [] a xs rfl
    rw [run, run, here, ih]
    intro first b later split
    exact same (a :: first) b later (by rw [split, List.cons_append])

/-- The machine goes through states named by what it has gathered. -/
theorem run_gathers {gathered : List α → σ} {xs ys : List α}
    (step : ∀ first a later, ys = first ++ a :: later →
      feed (gathered (xs ++ first)) a = (gathered (xs ++ first ++ [a]), [])) :
    run feed (gathered xs) ys = (gathered (xs ++ ys), []) := by
  induction ys generalizing xs with
  | nil => rw [run, List.append_nil]
  | cons a ys ih =>
    have first := step [] a ys rfl
    rw [List.append_nil] at first
    have rest : run feed (gathered (xs ++ [a])) ys = (gathered (xs ++ [a] ++ ys), []) := by
      refine ih fun front b later split => ?_
      have next := step (a :: front) b later (by rw [split, List.cons_append])
      rwa [← List.singleton_append, ← List.append_assoc] at next
    rw [run, first, rest, List.append_assoc, List.singleton_append]
    rfl

end SprdFlash.Mealy
