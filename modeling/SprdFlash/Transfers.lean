import SprdFlash.WireLog

/-!
The image transfers in a sequence of commands, of either link layer: a
START_DATA opens one, the MIDST_DATA right behind it carry the image, an
END_DATA closes it. The transfers of a sequence that breaks off are those of
the whole sequence, the last one perhaps cut short.
-/

namespace SprdFlash.Transfers

open Message Struct WireLog Plan Exchange

structure Transfer where
  address : ℕ
  declared : ℕ
  /-- The START_DATA carries a third word, as that of an NV image does. -/
  summed : Bool
  image : Bytes
  ended : Bool
  deriving DecidableEq, Repr

/-- The address and size a START_DATA carries, and whether a sum follows. -/
def startOf : Sent → Option (ℕ × ℕ × Bool)
  | .bsl cmd data =>
    if cmd = bslCmdStartData then
      some (unpack .big (data.take 4), unpack .big ((data.drop 4).take 4), data.length = 12)
    else none
  | .pdl code arg1 arg2 _ =>
    if code = Pdl.Command.startData.code then some (arg1, arg2, false) else none

def pieceOf : Sent → Option Bytes
  | .bsl cmd data => if cmd = bslCmdMidstData then some data else none
  | .pdl code _ _ extra => if code = Pdl.Command.midstData.code then some extra else none

def isEnd : Sent → Bool
  | .bsl cmd _ => cmd = bslCmdEndData
  | .pdl code _ _ _ => code = Pdl.Command.endData.code

/-- The image right behind a START_DATA, and whether an END_DATA follows it. -/
def contents : List Sent → Bytes × Bool
  | [] => ([], false)
  | c :: rest =>
    match pieceOf c with
    | some piece => (piece ++ (contents rest).1, (contents rest).2)
    | none => ([], isEnd c)

def transfers : List Sent → List Transfer
  | [] => []
  | c :: rest =>
    match startOf c with
    | some (address, declared, summed) =>
      ⟨address, declared, summed, (contents rest).1, (contents rest).2⟩ :: transfers rest
    | none => transfers rest

theorem transfers_cons_of_none {c : Sent} (h : startOf c = none) (rest : List Sent) :
    transfers (c :: rest) = transfers rest := by
  rw [transfers, h]

theorem transfers_append_of_none {xs : List Sent} (h : ∀ c ∈ xs, startOf c = none)
    (rest : List Sent) : transfers (xs ++ rest) = transfers rest := by
  induction xs with
  | nil => rfl
  | cons c xs ih =>
    rw [List.cons_append, transfers_cons_of_none (h c List.mem_cons_self),
      ih fun c' hc' => h c' (List.mem_cons_of_mem c hc')]

theorem transfers_eq_nil_iff {cmds : List Sent} :
    transfers cmds = [] ↔ ∀ c ∈ cmds, startOf c = none := by
  induction cmds with
  | nil => simp [transfers]
  | cons c cmds ih =>
    cases opens : startOf c with
    | none => rw [transfers_cons_of_none opens, ih, List.forall_mem_cons, opens, eq_self, true_and]
    | some start => simp [transfers, opens]

theorem startOf_piece {c : Sent} {piece : Bytes} (h : pieceOf c = some piece) :
    startOf c = none := by
  cases c with
  | bsl cmd data =>
    simp only [pieceOf, Option.ite_none_right_eq_some] at h
    rw [startOf, if_neg (by rw [h.1]; decide)]
  | pdl code arg1 arg2 extra =>
    simp only [pieceOf, Option.ite_none_right_eq_some] at h
    rw [startOf, if_neg (by rw [h.1]; decide)]

theorem contents_pieces {pieces : List Sent} {image : List Bytes}
    (h : pieces.map pieceOf = image.map some) {last : Sent} (ends : pieceOf last = none)
    (rest : List Sent) :
    contents (pieces ++ last :: rest) = (image.flatten, isEnd last) := by
  induction pieces generalizing image with
  | nil =>
    cases image with
    | nil => simp [contents, ends]
    | cons p image => simp at h
  | cons c pieces ih =>
    cases image with
    | nil => simp at h
    | cons p image =>
      simp only [List.map_cons, List.cons.injEq] at h
      rw [List.cons_append, contents, h.1, ih h.2]
      simp

theorem transfers_whole (start last : Sent) (pieces : List Sent) (image : List Bytes)
    {address declared : ℕ} {summed : Bool}
    (opens : startOf start = some (address, declared, summed))
    (h : pieces.map pieceOf = image.map some) (ends : isEnd last = true)
    (noPiece : pieceOf last = none) (noStart : startOf last = none) (rest : List Sent) :
    transfers (start :: (pieces ++ last :: rest)) =
      ⟨address, declared, summed, image.flatten, true⟩ :: transfers rest := by
  have silent : ∀ c ∈ pieces, startOf c = none := by
    intro c hc
    have mem : pieceOf c ∈ image.map some := by
      rw [← h]
      exact List.mem_map_of_mem hc
    obtain ⟨piece, -, found⟩ := List.mem_map.mp mem
    exact startOf_piece found.symm
  rw [transfers, opens]
  simp only
  rw [contents_pieces h noPiece, ends, transfers_append_of_none silent,
    transfers_cons_of_none noStart]

theorem mem_transfers {c : Sent} {cmds : List Sent} (hc : c ∈ cmds) {address declared : ℕ}
    {summed : Bool} (opens : startOf c = some (address, declared, summed)) :
    ∃ t ∈ transfers cmds, t.address = address := by
  induction cmds with
  | nil => cases hc
  | cons c' cmds ih =>
    rw [transfers]
    rcases List.mem_cons.mp hc with rfl | hc
    · rw [opens]
      exact ⟨_, List.mem_cons_self, rfl⟩
    · obtain ⟨t, ht, same⟩ := ih hc
      split
      · exact ⟨t, List.mem_cons_of_mem _ ht, same⟩
      · exact ⟨t, ht, same⟩

/-- A transfer that may have been cut short. -/
structure Partly (t whole : Transfer) : Prop where
  address : t.address = whole.address
  declared : t.declared = whole.declared
  summed : t.summed = whole.summed
  image : t.image <+: whole.image
  ended : t.ended = true → t.image = whole.image ∧ whole.ended = true

theorem contents_prefix {part whole : List Sent} (h : part <+: whole) :
    (contents part).1 <+: (contents whole).1 ∧
      ((contents part).2 = true →
        (contents part).1 = (contents whole).1 ∧ (contents whole).2 = true) := by
  induction part generalizing whole with
  | nil => exact ⟨List.nil_prefix, fun ended => by simp [contents] at ended⟩
  | cons c part ih =>
    obtain ⟨more, rfl⟩ := h
    rw [List.cons_append, contents, contents]
    cases pieceOf c with
    | none => exact ⟨List.prefix_rfl, fun ended => ⟨rfl, ended⟩⟩
    | some piece =>
      have later := ih (List.prefix_append part more)
      refine ⟨(List.prefix_append_right_inj piece).mpr later.1, fun ended => ?_⟩
      have done := later.2 ended
      exact ⟨congrArg (piece ++ ·) done.1, done.2⟩

theorem transfers_prefix {part whole : List Sent} (h : part <+: whole) :
    ∃ begun later, transfers whole = begun ++ later ∧
      List.Forall₂ Partly (transfers part) begun := by
  induction part generalizing whole with
  | nil => exact ⟨[], transfers whole, rfl, .nil⟩
  | cons c part ih =>
    obtain ⟨more, rfl⟩ := h
    obtain ⟨begun, later, split, partly⟩ := ih (List.prefix_append part more)
    rw [List.cons_append, transfers, transfers]
    cases startOf c with
    | none => exact ⟨begun, later, split, partly⟩
    | some opened =>
      obtain ⟨address, declared, summed⟩ := opened
      have carried := contents_prefix (List.prefix_append part more)
      refine ⟨⟨address, declared, summed, (contents (part ++ more)).1,
        (contents (part ++ more)).2⟩ :: begun, later, ?_,
        .cons ⟨rfl, rfl, rfl, carried.1, carried.2⟩ partly⟩
      simp only [split, List.cons_append]

end SprdFlash.Transfers
