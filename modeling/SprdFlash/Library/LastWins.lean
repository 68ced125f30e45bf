import Mathlib.Logic.Function.Basic
import Mathlib.Data.List.Induction

/-!
Dictionaries built by a comprehension: later values replace earlier ones under
the same key. The table is a partial function; looking a listed key up gives
the value of the last item that has it.
-/

namespace SprdFlash.LastWins

variable {α κ ν : Type} [DecidableEq κ]

/-- `{key(a): value(a) for a in items}`. -/
def comprehension (key : α → κ) (value : α → ν) (items : List α) : κ → Option ν :=
  items.foldl (fun table a => Function.update table (key a) (some (value a))) fun _ => none

/-- The last item with a key. -/
def last (key : α → κ) (items : List α) (k : κ) : Option α :=
  items.reverse.find? fun a => key a = k

theorem comprehension_concat (key : α → κ) (value : α → ν) (items : List α) (a : α) :
    comprehension key value (items ++ [a]) =
      Function.update (comprehension key value items) (key a) (some (value a)) := by
  simp [comprehension, List.foldl_append]

theorem comprehension_eq (key : α → κ) (value : α → ν) (items : List α) (k : κ) :
    comprehension key value items k = (last key items k).map value := by
  induction items using List.reverseRecOn with
  | nil => rfl
  | append_singleton items a ih =>
    rw [comprehension_concat, Function.update_apply]
    by_cases same : key a = k
    · simp [last, same]
    · simpa [last, same, Ne.symm same] using ih

theorem last_isSome (key : α → κ) {items : List α} {a : α} (h : a ∈ items) :
    ∃ b, last key items (key a) = some b ∧ b ∈ items ∧ key b = key a := by
  have some : (last key items (key a)).isSome := by
    rw [last, List.find?_isSome]
    exact ⟨a, by simpa using h, by simp⟩
  obtain ⟨b, hb⟩ := Option.isSome_iff_exists.mp some
  exact ⟨b, hb, by simpa using List.mem_of_find?_eq_some hb, by simpa using List.find?_some hb⟩

theorem comprehension_congr (key : α → κ) {value value' : α → ν} {items : List α}
    (same : ∀ a ∈ items, value' a = value a) :
    comprehension key value' items = comprehension key value items := by
  funext k
  rw [comprehension_eq, comprehension_eq]
  cases found : last key items k with
  | none => rfl
  | some b =>
    have mem : b ∈ items := List.mem_reverse.mp (List.mem_of_find?_eq_some found)
    rw [Option.map_some, Option.map_some, same b mem]

end SprdFlash.LastWins
