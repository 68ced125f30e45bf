import Mathlib.Data.List.Nodup
import Mathlib.Data.List.Perm.Basic

/-!
The items of a list that are the first with their key, in the list's order. A
loop that carries the keys it has seen keeps exactly them.
-/

namespace SprdFlash.Firsts

variable {α κ : Type} [DecidableEq κ] (key : α → κ)

def firsts : List α → List α
  | [] => []
  | a :: rest => a :: (firsts rest).filter fun b => key b ≠ key a

theorem firsts_sublist (items : List α) : (firsts key items).Sublist items := by
  induction items with
  | nil => exact List.Sublist.slnil
  | cons a rest ih => exact (List.filter_sublist.trans ih).cons_cons a

theorem firsts_nodup (items : List α) : ((firsts key items).map key).Nodup := by
  induction items with
  | nil => exact List.nodup_nil
  | cons a rest ih =>
    rw [firsts, List.map_cons, List.nodup_cons]
    refine ⟨fun again => ?_, ih.sublist (List.filter_sublist.map key)⟩
    obtain ⟨b, hb, same⟩ := List.mem_map.mp again
    exact absurd same (by simpa using (List.mem_filter.mp hb).2)

/-- What a loop keeps that has seen some keys before. -/
def unseen (seen : List κ) (items : List α) : List α :=
  (firsts key items).filter fun a => key a ∉ seen

theorem unseen_nil (items : List α) : unseen key [] items = firsts key items := by
  simp [unseen]

theorem unseen_cons_of_mem {seen : List κ} {a : α} (h : key a ∈ seen) (rest : List α) :
    unseen key seen (a :: rest) = unseen key seen rest := by
  rw [unseen, firsts, List.filter_cons_of_neg (by simpa using h), List.filter_filter, unseen]
  refine List.filter_congr fun b _ => ?_
  by_cases same : key b = key a
  · simp [same, h]
  · simp [same]

theorem unseen_cons_of_notMem {seen : List κ} {a : α} (h : key a ∉ seen) (rest : List α) :
    unseen key seen (a :: rest) = a :: unseen key (key a :: seen) rest := by
  rw [unseen, firsts, List.filter_cons_of_pos (by simpa using h), List.filter_filter, unseen]
  congr 1
  refine List.filter_congr fun b _ => ?_
  simp [Bool.and_comm]

end SprdFlash.Firsts
