import Mathlib.Data.List.Basic
import Mathlib.Data.List.TakeWhile

/-!
Packets over any alphabet: a header of fixed length that opens with a magic
symbol and tells the length of the payload behind it. A reader of a stream drops
what precedes the magic symbol and waits until the packet is complete, which it
can only be with its last symbol; a run of packets is split back into payloads.
-/

namespace SprdFlash.Packets

structure Format (α : Type*) where
  magic : α
  header : ℕ
  /-- The length of the payload, read from the header. -/
  size : List α → ℕ
  header_pos : 0 < header
  size_append : ∀ head later, header ≤ head.length → size (head ++ later) = size head

variable {α : Type*} (F : Format α)

def Complete (buf : List α) : Prop := F.header ≤ buf.length ∧ F.header + F.size buf ≤ buf.length

instance (buf : List α) : Decidable (Complete F buf) := inferInstanceAs (Decidable (_ ∧ _))

def payload (buf : List α) : List α := (buf.drop F.header).take (F.size buf)

/-- A header and the payload it announces. -/
structure Packet where
  head : List α
  body : List α
  opens : head.head? = some F.magic
  length : head.length = F.header
  size : F.size head = body.length

variable {F}

namespace Packet

def wire (p : Packet F) : List α := p.head ++ p.body

theorem wire_cons (p : Packet F) : ∃ rest, p.wire = F.magic :: rest := by
  have opens := p.opens
  cases head : p.head with
  | nil =>
    rw [head] at opens
    cases opens
  | cons a rest =>
    rw [head] at opens
    cases opens
    exact ⟨rest ++ p.body, by rw [wire, head, List.cons_append]⟩

theorem wire_ne_nil (p : Packet F) : p.wire ≠ [] := by
  obtain ⟨rest, cons⟩ := p.wire_cons
  rw [cons]
  exact List.cons_ne_nil _ _

theorem size_wire (p : Packet F) (rest : List α) : F.size (p.wire ++ rest) = p.body.length := by
  rw [wire, List.append_assoc, F.size_append _ _ p.length.ge, p.size]

theorem wire_length (p : Packet F) : p.wire.length = F.header + p.body.length := by
  rw [wire, List.length_append, p.length]

theorem payload_wire (p : Packet F) (rest : List α) : payload F (p.wire ++ rest) = p.body := by
  rw [payload, size_wire, wire, List.append_assoc, List.drop_left' p.length, List.take_left]

theorem complete_iff (p : Packet F) {buf later : List α} (split : p.wire = buf ++ later) :
    Complete F buf ↔ later = [] := by
  have total := p.wire_length
  rw [split, List.length_append] at total
  have size : F.header ≤ buf.length → F.size buf = p.body.length := by
    intro long
    have whole := p.size_wire []
    rw [List.append_nil, split, F.size_append _ _ long] at whole
    exact whole
  constructor
  · rintro ⟨long, covered⟩
    rw [size long] at covered
    exact List.eq_nil_of_length_eq_zero (by omega)
  · rintro rfl
    rw [List.length_nil] at total
    exact ⟨by omega, by rw [size (by omega)]; omega⟩

end Packet

variable [DecidableEq α] (F)

/-- Resynchronise to the magic symbol. -/
def sync (buf : List α) : List α := buf.dropWhile (· ≠ F.magic)

theorem sync_opened (rest : List α) : sync F (F.magic :: rest) = F.magic :: rest :=
  List.dropWhile_cons_of_neg (by simp)

theorem sync_skip {a : α} (other : a ≠ F.magic) (rest : List α) :
    sync F (a :: rest) = sync F rest :=
  List.dropWhile_cons_of_pos (by simp [other])

theorem sync_gap {gap : List α} (noMagic : F.magic ∉ gap) (rest : List α) :
    sync F (gap ++ rest) = sync F rest := by
  induction gap with
  | nil => rfl
  | cons a gap ih =>
    rw [List.mem_cons, not_or] at noMagic
    rw [List.cons_append, sync_skip F (Ne.symm noMagic.1), ih noMagic.2]

theorem sync_append (xs ys : List α) : sync F (sync F xs ++ ys) = sync F (xs ++ ys) := by
  induction xs with
  | nil => rfl
  | cons a xs ih =>
    by_cases opens : a = F.magic
    · rw [opens, sync_opened]
    · rw [sync_skip F opens, ih, List.cons_append, sync_skip F opens]

theorem sync_sync (xs : List α) : sync F (sync F xs) = sync F xs := by
  have again := sync_append F xs []
  rwa [List.append_nil, List.append_nil] at again

theorem sync_append_of_ne_nil {xs : List α} (found : sync F xs ≠ []) (ys : List α) :
    sync F (xs ++ ys) = sync F xs ++ ys := by
  induction xs with
  | nil => exact absurd rfl found
  | cons a xs ih =>
    by_cases opens : a = F.magic
    · rw [opens, sync_opened, List.cons_append, sync_opened]
    · rw [sync_skip F opens] at found ⊢
      rw [List.cons_append, sync_skip F opens, ih found]

theorem sync_wire (p : Packet F) : sync F p.wire = p.wire := by
  obtain ⟨rest, cons⟩ := p.wire_cons
  rw [cons, sync_opened]

/-- A reader that is in step holds the packet, or has to read on. -/
theorem complete_or_missing (p : Packet F) {buf later : List α} (synced : sync F buf = buf)
    (total : sync F (buf ++ later) = p.wire) :
    Complete F buf ∧ later = [] ∧ buf = p.wire ∨ ¬ Complete F buf ∧ buf ≠ p.wire := by
  by_cases found : buf = []
  · have header := F.header_pos
    refine .inr ⟨fun complete => ?_, found ▸ p.wire_ne_nil.symm⟩
    have long := complete.1
    rw [found, List.length_nil] at long
    omega
  · have whole : p.wire = buf ++ later := by
      rw [← total, sync_append_of_ne_nil F (by rwa [synced]), synced]
    by_cases last : later = []
    · rw [last, List.append_nil] at whole
      exact .inl ⟨(p.complete_iff (whole.trans (List.append_nil buf).symm)).mpr rfl,
        last, whole.symm⟩
    · refine .inr ⟨fun complete => last ((p.complete_iff whole).mp complete), fun same => last ?_⟩
      rw [same] at whole
      exact List.append_right_eq_self.mp whole.symm

def payloads : List α → Option (List (List α))
  | [] => some []
  | a :: rest =>
    if a = F.magic ∧ Complete F (a :: rest) then
      (payloads ((a :: rest).drop (F.header + F.size (a :: rest)))).map
        (payload F (a :: rest) :: ·)
    else none
termination_by buf => buf.length
decreasing_by
  have := F.header_pos
  simp only [List.length_drop, List.length_cons]
  omega

/-- A run of packets is split back into its payloads. -/
theorem payloads_wires (ps : List (Packet F)) :
    payloads F (ps.flatMap Packet.wire) = some (ps.map Packet.body) := by
  induction ps with
  | nil => rw [List.flatMap_nil, payloads, List.map_nil]
  | cons p ps ih =>
    obtain ⟨rest, cons⟩ := p.wire_cons
    have size := p.size_wire (ps.flatMap Packet.wire)
    have body := p.payload_wire (ps.flatMap Packet.wire)
    have length := p.wire_length
    have tail : (p.wire ++ ps.flatMap Packet.wire).drop (F.header + p.body.length) =
        ps.flatMap Packet.wire :=
      List.drop_left' length
    have complete : Complete F (p.wire ++ ps.flatMap Packet.wire) := by
      rw [Complete, size, List.length_append]
      omega
    rw [List.flatMap_cons]
    rw [cons, List.cons_append] at size body tail complete ⊢
    rw [payloads, if_pos ⟨rfl, complete⟩, size, tail, ih, body]
    rfl

end SprdFlash.Packets
