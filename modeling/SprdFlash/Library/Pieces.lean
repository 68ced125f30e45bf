import Mathlib.Data.List.Basic
import Mathlib.Data.PNat.Basic

/-!
Cutting a list into consecutive pieces of one size, the last one possibly
shorter. The pieces are what both ways of writing the loop produce: walking the
remaining items, and slicing at the multiples of the size.
-/

namespace SprdFlash.Pieces

variable {α : Type}

def pieces (size : ℕ+) : List α → List (List α)
  | [] => []
  | a :: rest => (a :: rest).take size :: pieces size ((a :: rest).drop size)
termination_by items => items.length
decreasing_by
  have := size.pos
  simp only [List.length_drop, List.length_cons]
  omega

theorem pieces_of_ne_nil (size : ℕ+) {items : List α} (h : items ≠ []) :
    pieces size items = items.take size :: pieces size (items.drop size) := by
  cases items with
  | nil => exact absurd rfl h
  | cons a rest => rw [pieces]

theorem pieces_short {size : ℕ+} {items : List α} (some : items ≠ [])
    (short : items.length ≤ size) :
    pieces size items = [items] := by
  rw [pieces_of_ne_nil size some, List.take_of_length_le short,
    List.drop_of_length_le short, pieces]

theorem drop_piece (size : ℕ+) (items : List α) (sent : ℕ) :
    items.drop (sent + ((items.drop sent).take size).length) = (items.drop sent).drop size := by
  rw [List.drop_drop, List.length_take, List.length_drop]
  by_cases whole : (size : ℕ) ≤ items.length - sent
  · rw [Nat.min_eq_left whole]
  · rw [List.drop_eq_nil_of_le (by omega), List.drop_eq_nil_of_le (by omega)]

theorem pieces_flatten (size : ℕ+) (items : List α) : (pieces size items).flatten = items := by
  fun_induction pieces size items with
  | case1 => rfl
  | case2 a rest ih => rw [List.flatten_cons, ih, List.take_append_drop]

theorem mem_pieces {size : ℕ+} {items piece : List α} (h : piece ∈ pieces size items) :
    piece ≠ [] ∧ piece.length ≤ size ∧ piece.length ≤ items.length := by
  have := size.pos
  fun_induction pieces size items with
  | case1 => simp at h
  | case2 a rest ih =>
    rcases List.mem_cons.mp h with rfl | h
    · refine ⟨?_, ?_, ?_⟩
      · intro none
        have := congrArg List.length none
        simp only [List.length_take, List.length_cons, List.length_nil] at this
        omega
      · simp only [List.length_take]
        omega
      · simp only [List.length_take]
        omega
    · have later := ih h
      refine ⟨later.1, later.2.1, later.2.2.trans ?_⟩
      rw [List.length_drop]
      omega

theorem flatten_prefix {size : ℕ+} {items : List α} {part : List (List α)}
    (first : part <+: pieces size items) : part.flatten <+: items := by
  obtain ⟨rest, whole⟩ := first
  refine ⟨rest.flatten, ?_⟩
  rw [← List.flatten_append, whole, pieces_flatten]

/-- Slicing at the multiples of the size. -/
theorem range_slices (size : ℕ+) (items : List α) :
    ((List.range ((items.length + size - 1) / size)).map fun i =>
      (items.drop (i * size)).take size) = pieces size items := by
  have pos := size.pos
  fun_induction pieces size items with
  | case1 => simp
  | case2 a rest ih =>
    have count : ((a :: rest).length + size - 1) / size =
        (((a :: rest).drop size).length + size - 1) / size + 1 := by
      rw [List.length_drop, ← Nat.add_div_right _ pos]
      by_cases short : (a :: rest).length ≤ size
      · have none : (a :: rest).length - size = 0 := by omega
        rw [none]
        have one : (0 + (size : ℕ) - 1 + size) / size = 1 :=
          Nat.div_eq_of_lt_le (by omega) (by omega)
        rw [one]
        refine Nat.div_eq_of_lt_le ?_ ?_
        · simp only [List.length_cons]
          omega
        · omega
      · congr 1
        omega
    rw [count, List.range_succ_eq_map, List.map_cons, List.map_map, ← ih]
    congr 1
    · simp
    · apply List.map_congr_left
      intro i _
      simp only [Function.comp_apply, List.drop_drop]
      congr 2
      rw [Nat.succ_mul]
      omega

end SprdFlash.Pieces
