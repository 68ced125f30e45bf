import Mathlib.Data.List.Basic
import Mathlib.Data.List.Infix
import Mathlib.Logic.Function.Basic

/-!
Flag-delimited frames with byte stuffing, over any alphabet. A frame is a flag,
a stuffed body and a flag; inside the body the flag and the escape symbol are
replaced by the escape symbol and a masked symbol. The receiver is a Mealy
machine that does not know which of two flags opens and which closes: it drops
everything up to a flag and ignores a flag that ends an empty body.
-/

namespace SprdFlash.Stuffing

structure Code (α : Type*) where
  flag : α
  esc : α
  mask : α → α
  flag_ne_esc : flag ≠ esc
  mask_mask : Function.Involutive mask
  mask_flag : mask flag ≠ flag
  mask_esc : mask esc ≠ flag

variable {α : Type*} [DecidableEq α] (C : Code α)

def escape : List α → List α
  | [] => []
  | a :: rest =>
    if a = C.flag ∨ a = C.esc then C.esc :: C.mask a :: escape rest else a :: escape rest

theorem length_escape_le (as : List α) : (escape C as).length ≤ 2 * as.length := by
  induction as with
  | nil => simp [escape]
  | cons a rest ih =>
    rw [escape]
    split_ifs <;> simp only [List.length_cons] <;> omega

/-- An escape symbol with nothing after it is dropped. -/
def unescape : List α → List α
  | [] => []
  | [a] => if a = C.esc then [] else [a]
  | a :: b :: rest =>
    if a = C.esc then C.mask b :: unescape rest else a :: unescape (b :: rest)

theorem unescape_cons_of_ne {a : α} (plain : a ≠ C.esc) (rest : List α) :
    unescape C (a :: rest) = a :: unescape C rest := by
  cases rest with
  | nil => simp [unescape, plain]
  | cons b rest => rw [unescape, if_neg plain]

@[simp] theorem unescape_escape (body : List α) : unescape C (escape C body) = body := by
  induction body with
  | nil => rfl
  | cons a rest ih =>
    by_cases special : a = C.flag ∨ a = C.esc
    · rw [escape, if_pos special, unescape, if_pos rfl, ih, C.mask_mask]
    · have plain : a ≠ C.esc := fun h => special (.inr h)
      rw [escape, if_neg special, unescape_cons_of_ne C plain, ih]

theorem flag_not_mem_escape (body : List α) : C.flag ∉ escape C body := by
  induction body with
  | nil => simp [escape]
  | cons a rest ih =>
    by_cases special : a = C.flag ∨ a = C.esc
    · have masked : C.flag ≠ C.mask a := by
        rcases special with rfl | rfl
        · exact C.mask_flag.symm
        · exact C.mask_esc.symm
      simp [escape, special, C.flag_ne_esc, masked, ih]
    · have plain : C.flag ≠ a := fun h => special (.inl h.symm)
      simp [escape, special, plain, ih]

theorem escape_eq_nil {body : List α} : escape C body = [] ↔ body = [] := by
  cases body with
  | nil => simp [escape]
  | cons a rest =>
    rw [escape]
    split <;> simp

/-- A body as it stands between two flags: not empty and without a flag. -/
structure Clean (w : List α) : Prop where
  nonempty : w ≠ []
  noFlag : C.flag ∉ w

theorem clean_escape {body : List α} (nonempty : body ≠ []) : Clean C (escape C body) :=
  ⟨fun h => nonempty ((escape_eq_nil C).mp h), flag_not_mem_escape C body⟩

def enclose (w : List α) : List α := C.flag :: w ++ [C.flag]

/-- The receiver seeks a flag, or is inside a body of which it has seen a part. -/
inductive Reader (α : Type*)
  | seeking
  | inside (body : List α)

def step (r : Reader α) (a : α) : Reader α × Option (List α) :=
  match r with
  | .seeking => if a = C.flag then (.inside [], none) else (.seeking, none)
  | .inside body =>
    if a = C.flag then
      if body = [] then (.inside [], none) else (.seeking, some body)
    else (.inside (body ++ [a]), none)

/-- The first body the receiver delivers, and the symbols it has not read. -/
def next (r : Reader α) : List α → Option (List α × List α)
  | [] => none
  | a :: rest =>
    match step C r a with
    | (_, some body) => some (body, rest)
    | (r', none) => next r' rest

def bodies (r : Reader α) : List α → List (List α)
  | [] => []
  | a :: rest =>
    match step C r a with
    | (r', some body) => body :: bodies r' rest
    | (r', none) => bodies r' rest

/-- Where a stream leaves the receiver. -/
def residue (r : Reader α) : List α → Reader α
  | [] => r
  | a :: rest => residue (step C r a).1 rest

theorem bodies_append (r : Reader α) (s t : List α) :
    bodies C r (s ++ t) = bodies C r s ++ bodies C (residue C r s) t := by
  induction s generalizing r with
  | nil => rfl
  | cons a s ih =>
    simp only [List.cons_append, bodies, residue]
    rcases step C r a with ⟨r', _ | body⟩
    · exact ih r'
    · exact congrArg (body :: ·) (ih r')

theorem step_some {r r' : Reader α} {a : α} {body : List α}
    (h : step C r a = (r', some body)) : r' = .seeking := by
  cases r with
  | seeking =>
    rw [step] at h
    split at h <;> cases h
  | inside w =>
    rw [step] at h
    split at h
    · split at h
      · cases h
      · cases h
        rfl
    · cases h

theorem bodies_eq_next (r : Reader α) (s : List α) :
    bodies C r s = match next C r s with
      | none => []
      | some (body, rest) => body :: bodies C .seeking rest := by
  induction s generalizing r with
  | nil => rfl
  | cons a s ih =>
    simp only [bodies, next]
    rcases hs : step C r a with ⟨r', _ | body⟩
    · exact ih r'
    · rw [step_some C hs]

theorem next_append {r : Reader α} {s w rest : List α} (h : next C r s = some (w, rest))
    (later : List α) : next C r (s ++ later) = some (w, rest ++ later) := by
  induction s generalizing r with
  | nil => cases h
  | cons a s ih =>
    rw [List.cons_append]
    simp only [next] at h ⊢
    rcases hs : step C r a with ⟨r', _ | body⟩
    · rw [hs] at h
      exact ih h
    · rw [hs] at h
      cases h
      rfl

theorem next_gap {gap : List α} (noFlag : C.flag ∉ gap) (s : List α) :
    next C .seeking (gap ++ s) = next C .seeking s := by
  induction gap with
  | nil => rfl
  | cons a gap ih =>
    simp only [List.mem_cons, not_or] at noFlag
    simp only [List.cons_append, next, step, if_neg (Ne.symm noFlag.1)]
    exact ih noFlag.2

@[simp] theorem next_open (s : List α) :
    next C .seeking (C.flag :: s) = next C (.inside []) s := by
  simp [next, step]

theorem next_flags (n : ℕ) (s : List α) :
    next C (.inside []) (List.replicate n C.flag ++ s) = next C (.inside []) s := by
  induction n with
  | zero => rfl
  | succ n ih =>
    simp only [List.replicate_succ, List.cons_append, next, step, if_true]
    exact ih

theorem next_body (body : List α) {w : List α} (noFlag : C.flag ∉ w) (nonempty : body ++ w ≠ [])
    (s : List α) : next C (.inside body) (w ++ C.flag :: s) = some (body ++ w, s) := by
  induction w generalizing body with
  | nil =>
    rw [List.append_nil] at nonempty ⊢
    simp only [List.nil_append, next, step, if_true, if_neg nonempty]
  | cons a w ih =>
    simp only [List.mem_cons, not_or] at noFlag
    simp only [List.cons_append, next, step, if_neg (Ne.symm noFlag.1)]
    rw [ih (body ++ [a]) noFlag.2 (by simp), List.append_assoc]
    rfl

/-- A framed body after a gap without flags and any number of extra flags is
the next one delivered. -/
theorem next_enclose {gap w : List α} (gapNoFlag : C.flag ∉ gap) (clean : Clean C w)
    (n : ℕ) (s : List α) :
    next C .seeking (gap ++ (List.replicate n C.flag ++ (enclose C w ++ s))) = some (w, s) := by
  have flags : List.replicate n C.flag ++ (enclose C w ++ s) =
      C.flag :: (List.replicate n C.flag ++ (w ++ C.flag :: s)) := by
    have swap : List.replicate n C.flag ++ [C.flag] = C.flag :: List.replicate n C.flag := by
      rw [← List.replicate_succ', List.replicate_succ]
    have h := congrArg (· ++ (w ++ C.flag :: s)) swap
    simpa [enclose, List.append_assoc] using h
  have body := next_body C [] clean.noFlag (by simpa using clean.nonempty) s
  rw [next_gap C gapNoFlag, flags, next_open, next_flags, body]
  rfl

theorem next_inside_eq_some {body w s rest : List α}
    (h : next C (.inside body) s = some (w, rest)) (noFlag : C.flag ∉ body) :
    ∃ n tail, s = List.replicate n C.flag ++ (tail ++ C.flag :: rest) ∧
      w = body ++ tail ∧ Clean C w ∧ (body ≠ [] → n = 0) := by
  induction s generalizing body with
  | nil => cases h
  | cons a s ih =>
    by_cases isFlag : a = C.flag
    · subst isFlag
      by_cases empty : body = []
      · subst empty
        simp only [next, step, if_true] at h
        obtain ⟨n, tail, rfl, hw, clean, -⟩ := ih h (by simp)
        exact ⟨n + 1, tail, by rw [List.replicate_succ, List.cons_append], hw, clean,
          fun ne => absurd rfl ne⟩
      · simp only [next, step, if_true, if_neg empty, Option.some.injEq,
          Prod.mk.injEq] at h
        obtain ⟨rfl, rfl⟩ := h
        exact ⟨0, [], rfl, by simp, ⟨empty, noFlag⟩, fun _ => rfl⟩
    · simp only [next, step, if_neg isFlag] at h
      have noFlag' : C.flag ∉ body ++ [a] := by simp [noFlag, Ne.symm isFlag]
      obtain ⟨n, tail, rfl, hw, clean, zero⟩ := ih h noFlag'
      obtain rfl := zero (by simp)
      exact ⟨0, a :: tail, rfl, by simpa using hw, clean, fun _ => rfl⟩

theorem next_eq_some {w s rest : List α} (h : next C .seeking s = some (w, rest)) :
    Clean C w ∧ ∃ gap n, C.flag ∉ gap ∧
      s = gap ++ (List.replicate (n + 1) C.flag ++ (w ++ C.flag :: rest)) := by
  induction s with
  | nil => cases h
  | cons a s ih =>
    by_cases isFlag : a = C.flag
    · subst isFlag
      rw [next_open] at h
      obtain ⟨n, tail, rfl, hw, clean, -⟩ := next_inside_eq_some C h (by simp)
      rw [List.nil_append] at hw
      subst hw
      exact ⟨clean, [], n, by simp, by rw [List.replicate_succ]; rfl⟩
    · simp only [next, step, if_neg isFlag] at h
      obtain ⟨clean, gap, n, gapNoFlag, rfl⟩ := ih h
      exact ⟨clean, a :: gap, n, by simp [gapNoFlag, Ne.symm isFlag], rfl⟩

def stream (ws : List (List α)) : List α := ws.flatMap (enclose C)

theorem bodies_stream_open {ws : List (List α)} (clean : ∀ w ∈ ws, Clean C w) :
    bodies C (.inside []) (stream C ws) = ws ∧ bodies C .seeking (stream C ws) = ws := by
  induction ws with
  | nil => exact ⟨rfl, rfl⟩
  | cons w ws ih =>
    have head : Clean C w := clean w List.mem_cons_self
    have tail := (ih fun v hv => clean v (List.mem_cons_of_mem w hv)).2
    have body := next_body C [] head.noFlag (by simpa using head.nonempty)
      (stream C ws)
    have wire : stream C (w :: ws) = C.flag :: (w ++ C.flag :: stream C ws) := by
      simp [stream, enclose]
    have opened : next C (.inside []) (stream C (w :: ws)) = some (w, stream C ws) := by
      rw [wire]
      exact (next_flags C 1 _).trans body
    have sought : next C .seeking (stream C (w :: ws)) = some (w, stream C ws) := by
      rw [wire, next_open]
      exact body
    constructor
    · rw [bodies_eq_next, opened]
      exact congrArg (w :: ·) tail
    · rw [bodies_eq_next, sought]
      exact congrArg (w :: ·) tail

/-- A receiver caught inside a body takes the opener of the first frame for
the end of that body, skips the first frame, and is in step from its closing
flag on. -/
theorem bodies_stream_inside {body w : List α} {ws : List (List α)} (caught : body ≠ [])
    (clean : ∀ v ∈ w :: ws, Clean C v) :
    bodies C (.inside body) (stream C (w :: ws)) = body :: ws := by
  have head : Clean C w := clean w List.mem_cons_self
  have tail := (bodies_stream_open C fun v hv => clean v (List.mem_cons_of_mem w hv)).1
  have wire : stream C (w :: ws) = C.flag :: (w ++ C.flag :: stream C ws) := by
    simp [stream, enclose]
  have closed : next C (.inside body) (stream C (w :: ws)) =
      some (body, w ++ C.flag :: stream C ws) := by
    rw [wire]
    simp [next, step, caught]
  have skipped : bodies C .seeking (w ++ C.flag :: stream C ws) = ws := by
    rw [bodies_eq_next, next_gap C head.noFlag, next_open, ← bodies_eq_next]
    exact tail
  rw [bodies_eq_next, closed]
  exact congrArg (body :: ·) skipped

/-- Whatever precedes a run of frames, the receiver delivers all of them but
possibly the first, in order and last. -/
theorem bodies_resync (noise : List α) {ws : List (List α)} (clean : ∀ w ∈ ws, Clean C w) :
    ∃ early, bodies C .seeking (noise ++ stream C ws) = early ++ ws ∨
      bodies C .seeking (noise ++ stream C ws) = early ++ ws.tail := by
  rw [bodies_append]
  have fresh := bodies_stream_open C clean
  rcases residue C .seeking noise with _ | body
  · exact ⟨_, .inl (congrArg _ fresh.2)⟩
  · by_cases empty : body = []
    · subst empty
      exact ⟨_, .inl (congrArg _ fresh.1)⟩
    · cases ws with
      | nil => exact ⟨bodies C .seeking noise, .inl rfl⟩
      | cons w ws =>
        refine ⟨bodies C .seeking noise ++ [body], .inr ?_⟩
        rw [bodies_stream_inside C empty clean]
        simp

section Tails

omit [DecidableEq α]

/-- What a run of frames has become when symbols in front of it are gone: whole
frames, perhaps behind the end of one whose opener is gone. -/
def Tail (ws : List (List α)) (s : List α) : Prop :=
  s = stream C ws ∨ ∃ gap, C.flag ∉ gap ∧ s = gap ++ C.flag :: stream C ws

theorem stream_cons (w : List α) (ws : List (List α)) :
    stream C (w :: ws) = C.flag :: (w ++ C.flag :: stream C ws) := by
  simp [stream, enclose]

theorem stream_append (ws vs : List (List α)) :
    stream C (ws ++ vs) = stream C ws ++ stream C vs := List.flatMap_append

variable {C}

theorem Tail.append {ws : List (List α)} {s : List α} (h : Tail C ws s) (vs : List (List α)) :
    Tail C (ws ++ vs) (s ++ stream C vs) := by
  rcases h with rfl | ⟨gap, noFlag, rfl⟩
  · exact .inl (stream_append C ws vs).symm
  · exact .inr ⟨gap, noFlag, by rw [stream_append, List.append_assoc, List.cons_append]⟩

theorem suffix_gap {gap s t : List α} (noFlag : C.flag ∉ gap) (part : t <:+ gap ++ C.flag :: s) :
    t <:+ s ∨ ∃ gap', C.flag ∉ gap' ∧ t = gap' ++ C.flag :: s := by
  induction gap with
  | nil =>
    rcases List.suffix_cons_iff.mp part with rfl | part
    · exact .inr ⟨[], noFlag, rfl⟩
    · exact .inl part
  | cons a gap ih =>
    rcases List.suffix_cons_iff.mp part with rfl | part
    · exact .inr ⟨a :: gap, noFlag, rfl⟩
    · exact ih (fun mem => noFlag (List.mem_cons_of_mem a mem)) part

theorem suffix_stream {ws : List (List α)} (clean : ∀ w ∈ ws, Clean C w) {t : List α}
    (part : t <:+ stream C ws) : ∃ vs, vs <:+ ws ∧ Tail C vs t := by
  induction ws with
  | nil => exact ⟨[], List.suffix_rfl, .inl (List.suffix_nil.mp part)⟩
  | cons w ws ih =>
    rw [stream_cons] at part
    rcases List.suffix_cons_iff.mp part with rfl | inside
    · exact ⟨w :: ws, List.suffix_rfl, .inl (stream_cons C w ws).symm⟩
    rcases suffix_gap (clean w List.mem_cons_self).noFlag inside with later | ⟨gap, noFlag, rfl⟩
    · obtain ⟨vs, few, tail⟩ := ih (fun v hv => clean v (List.mem_cons_of_mem w hv)) later
      exact ⟨vs, few.trans (List.suffix_cons w ws), tail⟩
    · exact ⟨ws, List.suffix_cons w ws, .inr ⟨gap, noFlag, rfl⟩⟩

theorem Tail.suffix {ws : List (List α)} {s t : List α} (h : Tail C ws s)
    (clean : ∀ w ∈ ws, Clean C w) (part : t <:+ s) : ∃ vs, vs <:+ ws ∧ Tail C vs t := by
  rcases h with rfl | ⟨gap, noFlag, rfl⟩
  · exact suffix_stream clean part
  · rcases suffix_gap noFlag part with later | ⟨gap', noFlag', rfl⟩
    · exact suffix_stream clean later
    · exact ⟨ws, List.suffix_rfl, .inr ⟨gap', noFlag', rfl⟩⟩

end Tails

variable {C}

/-- The receiver is in step from the first whole frame on. -/
theorem Tail.next {ws : List (List α)} {s : List α} (h : Tail C ws s)
    (clean : ∀ w ∈ ws, Clean C w) : Stuffing.next C .seeking s =
      match ws with
      | [] => none
      | w :: rest => some (w, stream C rest) := by
  cases ws with
  | nil =>
    rcases h with rfl | ⟨gap, noFlag, rfl⟩
    · rfl
    · rw [next_gap C noFlag, next_open]
      rfl
  | cons w ws =>
    have head : Clean C w := clean w List.mem_cons_self
    rcases h with rfl | ⟨gap, noFlag, rfl⟩
    · exact next_enclose C (show C.flag ∉ [] by simp) head 0 (stream C ws)
    · exact next_enclose C noFlag head 1 (stream C ws)

theorem count_stream {ws : List (List α)} (clean : ∀ w ∈ ws, Clean C w) :
    (stream C ws).count C.flag = 2 * ws.length := by
  induction ws with
  | nil => rfl
  | cons w ws ih =>
    have none : w.count C.flag = 0 :=
      List.count_eq_zero.mpr (clean w List.mem_cons_self).noFlag
    rw [stream_cons, List.count_cons_self, List.count_append, List.count_cons_self, none,
      ih fun v hv => clean v (List.mem_cons_of_mem w hv), List.length_cons]
    omega

/-- At most one flag is left exactly when no whole frame is. -/
theorem Tail.count_le_one_iff {ws : List (List α)} {s : List α} (h : Tail C ws s)
    (clean : ∀ w ∈ ws, Clean C w) : s.count C.flag ≤ 1 ↔ ws = [] := by
  have whole := count_stream clean
  rcases h with rfl | ⟨gap, noFlag, rfl⟩
  · rw [whole, ← List.length_eq_zero_iff]
    omega
  · rw [List.count_append, List.count_cons_self, List.count_eq_zero.mpr noFlag, whole,
      ← List.length_eq_zero_iff]
    omega

end SprdFlash.Stuffing
