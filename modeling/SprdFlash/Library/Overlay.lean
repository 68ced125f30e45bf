import Mathlib.Data.List.Basic
import Mathlib.Data.List.Forall2

/-!
A memory of cells and blocks put over it one after the other. A cell holds what the
last block over it put there, so blocks put twice, or put behind a part of
themselves, leave what they leave once, and cells under no block keep their value.
-/

namespace SprdFlash.Overlay

variable {α : Type*}

/-- Symbols from a base address on. -/
structure Block (α : Type*) where
  base : ℕ
  cells : List α

namespace Block

def Covers (b : Block α) (a : ℕ) : Prop := b.base ≤ a ∧ a < b.base + b.cells.length

instance (b : Block α) (a : ℕ) : Decidable (b.Covers a) := inferInstanceAs (Decidable (_ ∧ _))

def at? (b : Block α) (a : ℕ) : Option α := if b.base ≤ a then b.cells[a - b.base]? else none

theorem at?_of_covers {b : Block α} {a : ℕ} (h : b.Covers a) : ∃ x, b.at? a = some x := by
  have inside : a - b.base < b.cells.length := by
    have := h.1
    have := h.2
    omega
  exact ⟨b.cells[a - b.base], by rw [at?, if_pos h.1, List.getElem?_eq_getElem inside]⟩

theorem at?_of_not_covers {b : Block α} {a : ℕ} (h : ¬ b.Covers a) : b.at? a = none := by
  unfold Covers at h
  rw [at?]
  split
  · exact List.getElem?_eq_none (by omega)
  · rfl

/-- One block is an initial part of another. -/
def Begins (part whole : Block α) : Prop := part.base = whole.base ∧ part.cells <+: whole.cells

theorem Begins.covers {part whole : Block α} (h : part.Begins whole) {a : ℕ}
    (covers : part.Covers a) :
    whole.Covers a := by
  have length := h.2.length_le
  have same := h.1
  unfold Covers at covers ⊢
  omega

end Block

/-- A block put over a memory. -/
def put (m : ℕ → Option α) (b : Block α) : ℕ → Option α := fun a => (b.at? a).or (m a)

theorem put_of_covers {b : Block α} {a : ℕ} (h : b.Covers a) (m : ℕ → Option α) :
    put m b a = b.at? a := by
  obtain ⟨x, here⟩ := Block.at?_of_covers h
  rw [put, here, Option.some_or]

theorem put_of_not_covers {b : Block α} {a : ℕ} (h : ¬ b.Covers a) (m : ℕ → Option α) :
    put m b a = m a := by
  rw [put, Block.at?_of_not_covers h, Option.none_or]

theorem put_nil (m : ℕ → Option α) (base : ℕ) : put m ⟨base, []⟩ = m := by
  funext a
  refine put_of_not_covers (fun h => ?_) m
  simp only [Block.Covers, List.length_nil, Nat.add_zero] at h
  omega

theorem put_append (m : ℕ → Option α) (base : ℕ) (xs ys : List α) :
    put (put m ⟨base, xs⟩) ⟨base + xs.length, ys⟩ = put m ⟨base, xs ++ ys⟩ := by
  funext a
  simp only [put, Block.at?]
  by_cases first : a < base + xs.length
  · rw [if_neg (by omega), Option.none_or]
    by_cases inside : base ≤ a
    · rw [if_pos inside, if_pos inside, List.getElem?_append_left (by omega)]
    · rw [if_neg inside, if_neg inside]
  · rw [if_pos (by omega), if_pos (by omega), if_pos (by omega),
      List.getElem?_eq_none (show xs.length ≤ a - base by omega), Option.none_or,
      List.getElem?_append_right (by omega), Nat.sub_sub]

def puts (m : ℕ → Option α) (blocks : List (Block α)) : ℕ → Option α := blocks.foldl put m

@[simp] theorem puts_nil (m : ℕ → Option α) : puts m [] = m := rfl

@[simp] theorem puts_cons (m : ℕ → Option α) (b : Block α) (blocks : List (Block α)) :
    puts m (b :: blocks) = puts (put m b) blocks := rfl

theorem puts_append (m : ℕ → Option α) (xs ys : List (Block α)) :
    puts m (xs ++ ys) = puts (puts m xs) ys := List.foldl_append

/-- The blocks of a list that reach a cell decide it, and with none it stays. -/
theorem puts_congr {m m' : ℕ → Option α} {blocks : List (Block α)} {a : ℕ}
    (h : (∃ b ∈ blocks, b.Covers a) ∨ m a = m' a) : puts m blocks a = puts m' blocks a := by
  induction blocks generalizing m m' with
  | nil =>
    rcases h with ⟨b, mem, -⟩ | same
    · cases mem
    · exact same
  | cons b blocks ih =>
    refine ih ?_
    by_cases covers : b.Covers a
    · exact .inr (by rw [put_of_covers covers, put_of_covers covers])
    · rw [put_of_not_covers covers, put_of_not_covers covers]
      rcases h with ⟨c, mem, reaches⟩ | same
      · rcases List.mem_cons.mp mem with rfl | mem
        · exact absurd reaches covers
        · exact .inl ⟨c, mem, reaches⟩
      · exact .inr same

theorem puts_outside {blocks : List (Block α)} {a : ℕ} (h : ∀ b ∈ blocks, ¬ b.Covers a)
    (m : ℕ → Option α) : puts m blocks a = m a := by
  induction blocks generalizing m with
  | nil => rfl
  | cons b blocks ih =>
    rw [List.forall_mem_cons] at h
    rw [puts_cons, ih h.2, put_of_not_covers h.1]

/-- A cell holds what the last block over it has there. -/
theorem puts_last {before after : List (Block α)} {b : Block α} {a : ℕ} (covers : b.Covers a)
    (h : ∀ c ∈ after, ¬ c.Covers a) (m : ℕ → Option α) :
    puts m (before ++ b :: after) a = b.at? a := by
  rw [puts_append, puts_cons, puts_outside h, put_of_covers covers]

def Apart (blocks : List (Block α)) : Prop :=
  blocks.Pairwise fun b c => ∀ a, b.Covers a → ¬ c.Covers a

theorem puts_apart {blocks : List (Block α)} (apart : Apart blocks) {b : Block α} (mem : b ∈ blocks)
    {i : ℕ} (inside : i < b.cells.length) (m : ℕ → Option α) :
    puts m blocks (b.base + i) = b.cells[i]? := by
  obtain ⟨before, after, rfl⟩ := List.append_of_mem mem
  have covers : b.Covers (b.base + i) := ⟨Nat.le_add_right _ _, Nat.add_lt_add_left inside _⟩
  have later := (List.pairwise_cons.mp (List.pairwise_append.mp apart).2.1).1
  rw [puts_last covers fun c hc => later c hc _ covers, Block.at?,
    if_pos (Nat.le_add_right _ _), Nat.add_sub_cancel_left]

/-- Blocks put over a memory on which only cells under them were touched before. -/
theorem puts_over {m m' : ℕ → Option α} {blocks : List (Block α)}
    (h : ∀ a, (∀ b ∈ blocks, ¬ b.Covers a) → m' a = m a) : puts m' blocks = puts m blocks := by
  funext a
  refine puts_congr ?_
  by_cases covered : ∃ b ∈ blocks, b.Covers a
  · exact .inl covered
  · exact .inr (h a fun b mem reaches => covered ⟨b, mem, reaches⟩)

/-- A part of a list of blocks: the first ones, the last of them perhaps cut short. -/
def Part (part whole : List (Block α)) : Prop :=
  ∃ begun later, whole = begun ++ later ∧ List.Forall₂ Block.Begins part begun

theorem Part.nil (whole : List (Block α)) : Part [] whole := ⟨[], whole, rfl, .nil⟩

theorem Part.behind {part whole : List (Block α)} (h : Part part whole) (first : List (Block α)) :
    Part (first ++ part) (first ++ whole) := by
  obtain ⟨begun, later, rfl, begins⟩ := h
  refine ⟨first ++ begun, later, (List.append_assoc _ _ _).symm, List.rel_append ?_ begins⟩
  exact List.forall₂_same.mpr fun b _ => ⟨rfl, List.prefix_rfl⟩

theorem Part.covers {part whole : List (Block α)} (h : Part part whole) {b : Block α}
    (mem : b ∈ part) {a : ℕ} (reaches : b.Covers a) : ∃ c ∈ whole, c.Covers a := by
  obtain ⟨begun, later, rfl, begins⟩ := h
  induction begins with
  | nil => cases mem
  | cons first rest ih =>
    rcases List.mem_cons.mp mem with rfl | mem
    · exact ⟨_, List.mem_cons_self, first.covers reaches⟩
    · obtain ⟨c, inWhole, covers⟩ := ih mem
      exact ⟨c, List.mem_cons_of_mem _ inWhole, covers⟩

end SprdFlash.Overlay
