import Mathlib.Data.List.Basic
import Mathlib.Data.List.TakeWhile
import Mathlib.Data.List.Forall2

/-!
Sequential scripts of fallible steps over a state: `perform` runs the steps in
order and stops at the first exception. The rules below turn what one step does
to a log into what a whole run does, for runs that return, runs that fail
anywhere, and runs on states where every step succeeds.
-/

namespace SprdFlash.Script

variable {ε σ α β ι : Type}

section Bind

variable {x : EStateM ε σ α} {f : α → EStateM ε σ β} {s s' : σ}

theorem bind_ok {a : α} (h : x s = .ok a s') : (x >>= f) s = f a s' := by
  simp [bind, EStateM.bind, h]

theorem bind_error {e : ε} (h : x s = .error e s') : (x >>= f) s = .error e s' := by
  simp [bind, EStateM.bind, h]

theorem bind_eq_ok {b : β} {t : σ} (h : (x >>= f) s = .ok b t) :
    ∃ a s', x s = .ok a s' ∧ f a s' = .ok b t := by
  simp only [bind, EStateM.bind] at h
  cases hx : x s with
  | ok a s' => exact ⟨a, s', rfl, by simpa [hx] using h⟩
  | error e s' => simp [hx] at h

theorem bind_eq_error {e : ε} {t : σ} (h : (x >>= f) s = .error e t) :
    x s = .error e t ∨ ∃ a s', x s = .ok a s' ∧ f a s' = .error e t := by
  simp only [bind, EStateM.bind] at h
  cases hx : x s with
  | ok a s' => exact .inr ⟨a, s', rfl, by simpa [hx] using h⟩
  | error e' s' => exact .inl (by simpa [hx] using h)

theorem bind_assoc (x : EStateM ε σ α) (f : α → EStateM ε σ β) {γ : Type}
    (g : β → EStateM ε σ γ) : (x >>= f) >>= g = x >>= fun a => f a >>= g := by
  funext s
  simp only [bind, EStateM.bind]
  cases x s <;> rfl

theorem pure_bind (a : α) (f : α → EStateM ε σ β) : (pure a >>= f) = f a := rfl

end Bind

/-- The state in which a run ends, returned or failed. -/
def final : EStateM.Result ε σ α → σ
  | .ok _ s => s
  | .error _ s => s

/-- A program whose runs, returned or failed, add to the log only items of one kind. -/
def Appends (log : σ → List α) (Kind : α → Prop) (x : EStateM ε σ β) : Prop :=
  ∀ s, ∃ items, (∀ a ∈ items, Kind a) ∧ log (final (x s)) = log s ++ items

namespace Appends

variable {log : σ → List α} {Kind : α → Prop} {γ : Type}

theorem of_same {x : EStateM ε σ β} (h : ∀ s, log (final (x s)) = log s) : Appends log Kind x :=
  fun s => ⟨[], by simp, by simp [h s]⟩

theorem bind {x : EStateM ε σ β} {f : β → EStateM ε σ γ} (hx : Appends log Kind x)
    (hf : ∀ b, Appends log Kind (f b)) : Appends log Kind (x >>= f) := by
  intro s
  obtain ⟨first, kinds, hlog⟩ := hx s
  cases run : x s with
  | error e s' =>
    rw [run] at hlog
    exact ⟨first, kinds, by rw [bind_error run]; exact hlog⟩
  | ok b s' =>
    obtain ⟨second, kinds', hlog'⟩ := hf b s'
    rw [run] at hlog
    refine ⟨first ++ second, ?_, ?_⟩
    · intro a ha
      rcases List.mem_append.mp ha with ha | ha
      · exact kinds a ha
      · exact kinds' a ha
    · rw [bind_ok run, hlog', ← List.append_assoc]
      congr 1

theorem mono {Kind' : α → Prop} {x : EStateM ε σ β} (hx : Appends log Kind x)
    (weaker : ∀ a, Kind a → Kind' a) : Appends log Kind' x := by
  intro s
  obtain ⟨items, kinds, hlog⟩ := hx s
  exact ⟨items, fun a ha => weaker a (kinds a ha), hlog⟩

end Appends

def perform (exec : ι → EStateM ε σ Unit) : List ι → EStateM ε σ Unit
  | [] => pure ()
  | i :: rest => do
    exec i
    perform exec rest

variable {exec : ι → EStateM ε σ Unit}

theorem perform_append (xs ys : List ι) :
    perform exec (xs ++ ys) = perform exec xs >>= fun _ => perform exec ys := by
  induction xs with
  | nil => rfl
  | cons i xs ih =>
    rw [List.cons_append, perform, ih, perform, bind_assoc]

theorem perform_singleton (i : ι) : perform exec [i] = exec i := by
  funext s
  simp only [perform, bind, EStateM.bind]
  cases exec i s <;> rfl

theorem perform_appends {log : σ → List α} {Kind : α → Prop} {steps : List ι}
    (h : ∀ i ∈ steps, Appends log Kind (exec i)) : Appends log Kind (perform exec steps) := by
  induction steps with
  | nil => exact Appends.of_same fun s => rfl
  | cons i steps ih =>
    exact (h i List.mem_cons_self).bind fun _ => ih fun j hj => h j (List.mem_cons_of_mem i hj)

theorem forM_perform {κ : Type} (script : κ → List ι) (ks : List κ) :
    ks.forM (fun k => perform exec (script k)) = perform exec (ks.flatMap script) := by
  induction ks with
  | nil => rfl
  | cons k ks ih =>
    rw [List.flatMap_cons, perform_append, ← ih]
    rfl

theorem forM_exec {κ : Type} (step : κ → ι) (ks : List κ) :
    ks.forM (fun k => exec (step k)) = perform exec (ks.map step) := by
  induction ks with
  | nil => rfl
  | cons k ks ih =>
    rw [List.map_cons, perform, ← ih]
    rfl

theorem forM_map {κ κ' : Type} (f : κ → κ') (body : κ' → EStateM ε σ Unit) (ks : List κ) :
    (ks.map f).forM body = ks.forM fun k => body (f k) := by
  induction ks with
  | nil => rfl
  | cons k ks ih =>
    change (body (f k) >>= fun _ => (ks.map f).forM body) = _
    rw [ih]
    rfl

/-- What a step of a kind may do to the log: all of what it emits if it returns,
an initial part of it if it fails, and nothing if it is one that always fails. -/
structure Traced (exec : ι → EStateM ε σ Unit) (kind : ι → Prop) (inv : σ → Prop)
    (log : σ → List α) (emits : ι → List α) (halts : ι → Bool) : Prop where
  ok : ∀ {i s t}, kind i → inv s → exec i s = .ok () t →
    halts i = false ∧ inv t ∧ log t = log s ++ emits i
  error : ∀ {i s e t}, kind i → inv s → exec i s = .error e t →
    ∃ part, part <+: emits i ∧ (halts i = true → part = []) ∧ log t = log s ++ part

/-- The steps before the first one that always fails. -/
def live (halts : ι → Bool) (steps : List ι) : List ι := steps.takeWhile fun i => !halts i

theorem live_eq_self {halts : ι → Bool} {steps : List ι} (h : ∀ i ∈ steps, halts i = false) :
    live halts steps = steps :=
  List.takeWhile_eq_self_iff.mpr fun i hi => by simp [h i hi]

theorem live_eq_self_iff {halts : ι → Bool} {steps : List ι} :
    live halts steps = steps ↔ ∀ i ∈ steps, halts i = false := by
  simp [live, List.takeWhile_eq_self_iff]

theorem live_append_of_forall {halts : ι → Bool} {xs : List ι} (ys : List ι)
    (h : ∀ i ∈ xs, halts i = false) : live halts (xs ++ ys) = xs ++ live halts ys :=
  List.takeWhile_append_of_pos fun i hi => by simp [h i hi]

theorem live_append_of_exists {halts : ι → Bool} {xs : List ι} (ys : List ι)
    (h : ∃ i ∈ xs, halts i = true) : live halts (xs ++ ys) = live halts xs := by
  rw [live, List.takeWhile_append, if_neg, live]
  intro whole
  have all := live_eq_self_iff.mp ((List.takeWhile_prefix _).eq_of_length whole)
  obtain ⟨i, hi, stop⟩ := h
  rw [all i hi] at stop
  cases stop

theorem live_cons_of_halts {halts : ι → Bool} {i : ι} (rest : List ι) (h : halts i = true) :
    live halts (i :: rest) = [] := by
  simp [live, h]

namespace Traced

variable {kind : ι → Prop} {inv : σ → Prop} {log : σ → List α} {emits : ι → List α}
variable {halts : ι → Bool}

theorem perform_ok (T : Traced exec kind inv log emits halts) {steps : List ι} {s t : σ}
    (hk : ∀ i ∈ steps, kind i) (hs : inv s) (h : perform exec steps s = .ok () t) :
    (∀ i ∈ steps, halts i = false) ∧ inv t ∧ log t = log s ++ steps.flatMap emits := by
  induction steps generalizing s with
  | nil =>
    cases h
    exact ⟨by simp, hs, by simp⟩
  | cons i rest ih =>
    obtain ⟨_, s', hi, hrest⟩ := bind_eq_ok h
    obtain ⟨nohalt, hs', hlog⟩ := T.ok (hk i List.mem_cons_self) hs hi
    obtain ⟨nohalts, ht, hlogs⟩ := ih (fun j hj => hk j (List.mem_cons_of_mem i hj)) hs' hrest
    refine ⟨?_, ht, ?_⟩
    · simpa [nohalt] using nohalts
    · rw [hlogs, hlog, List.flatMap_cons, List.append_assoc]

theorem perform_error (T : Traced exec kind inv log emits halts) {steps : List ι} {s t : σ}
    {e : ε} (hk : ∀ i ∈ steps, kind i) (hs : inv s) (h : perform exec steps s = .error e t) :
    ∃ part, part <+: (live halts steps).flatMap emits ∧ log t = log s ++ part := by
  induction steps generalizing s with
  | nil => cases h
  | cons i rest ih =>
    rcases bind_eq_error h with hi | ⟨_, s', hi, hrest⟩
    · obtain ⟨part, hpart, hhalt, hlog⟩ := T.error (hk i List.mem_cons_self) hs hi
      cases stop : halts i with
      | true => exact ⟨[], List.nil_prefix, by rw [hlog, hhalt stop]⟩
      | false =>
        refine ⟨part, ?_, hlog⟩
        simp only [live, List.takeWhile_cons, stop, Bool.not_false, if_true, List.flatMap_cons]
        exact hpart.trans (List.prefix_append _ _)
    · obtain ⟨nohalt, hs', hlog⟩ := T.ok (hk i List.mem_cons_self) hs hi
      obtain ⟨part, hpart, hlogs⟩ := ih (fun j hj => hk j (List.mem_cons_of_mem i hj)) hs' hrest
      refine ⟨emits i ++ part, ?_, by rw [hlogs, hlog, List.append_assoc]⟩
      simp only [live, List.takeWhile_cons, nohalt, Bool.not_false, if_true, List.flatMap_cons]
      exact (List.prefix_append_right_inj _).mpr hpart

end Traced

/-- States on which every step of a kind succeeds if it can succeed at all. -/
structure Obliging (exec : ι → EStateM ε σ Unit) (kind : ι → Prop) (inv : σ → Prop)
    (halts : ι → Bool) : Prop where
  ok : ∀ {i s}, kind i → inv s → halts i = false → ∃ t, exec i s = .ok () t ∧ inv t
  error : ∀ {i s}, kind i → inv s → halts i = true → ∃ e, exec i s = .error e s

namespace Obliging

variable {kind : ι → Prop} {inv : σ → Prop} {halts : ι → Bool}

theorem perform_ok (O : Obliging exec kind inv halts) {steps : List ι} {s : σ}
    (hk : ∀ i ∈ steps, kind i) (hs : inv s) (h : ∀ i ∈ steps, halts i = false) :
    ∃ t, perform exec steps s = .ok () t ∧ inv t := by
  induction steps generalizing s with
  | nil => exact ⟨s, rfl, hs⟩
  | cons i rest ih =>
    obtain ⟨s', hi, hs'⟩ := O.ok (hk i List.mem_cons_self) hs (h i List.mem_cons_self)
    obtain ⟨t, hrest, ht⟩ := ih (fun j hj => hk j (List.mem_cons_of_mem i hj)) hs'
      fun j hj => h j (List.mem_cons_of_mem i hj)
    exact ⟨t, (bind_ok hi).trans hrest, ht⟩

/-- Otherwise the run fails at the first step that cannot succeed. -/
theorem perform_error (O : Obliging exec kind inv halts) {steps : List ι} {s : σ}
    (hk : ∀ i ∈ steps, kind i) (hs : inv s) (h : ∃ i ∈ steps, halts i = true) :
    ∃ e t, perform exec steps s = .error e t ∧ perform exec (live halts steps) s = .ok () t := by
  induction steps generalizing s with
  | nil => simp at h
  | cons i rest ih =>
    cases stop : halts i with
    | true =>
      obtain ⟨e, he⟩ := O.error (hk i List.mem_cons_self) hs stop
      refine ⟨e, s, bind_error he, ?_⟩
      rw [live_cons_of_halts rest stop]
      rfl
    | false =>
      have later : ∃ j ∈ rest, halts j = true := by simpa [stop] using h
      obtain ⟨s', hi, hs'⟩ := O.ok (hk i List.mem_cons_self) hs stop
      obtain ⟨e, t, hrest, hlive⟩ := ih (fun j hj => hk j (List.mem_cons_of_mem i hj)) hs' later
      refine ⟨e, t, (bind_ok hi).trans hrest, ?_⟩
      have first : live halts (i :: rest) = i :: live halts rest := by
        simp [live, stop]
      rw [first]
      exact (bind_ok hi).trans hlive

end Obliging

/-- Where every step of a kind returns and takes a view of the state one step on,
a run takes it through all of them. -/
theorem perform_foldl {τ : Type} {kind : ι → Prop} {inv : σ → Prop} {view : σ → τ} {act : τ → ι → τ}
    (step : ∀ {i s}, kind i → inv s → ∃ t, exec i s = .ok () t ∧ inv t ∧ view t = act (view s) i)
    {steps : List ι} {s : σ} (hk : ∀ i ∈ steps, kind i) (hs : inv s) :
    ∃ t, perform exec steps s = .ok () t ∧ inv t ∧ view t = steps.foldl act (view s) := by
  induction steps generalizing s with
  | nil => exact ⟨s, rfl, hs, rfl⟩
  | cons i rest ih =>
    obtain ⟨s', hi, hs', hview⟩ := step (hk i List.mem_cons_self) hs
    obtain ⟨t, hrest, ht, hviews⟩ := ih (fun j hj => hk j (List.mem_cons_of_mem i hj)) hs'
    refine ⟨t, (bind_ok hi).trans hrest, ht, ?_⟩
    rw [hviews, hview, List.foldl_cons]

theorem perform_blocks {kind : ι → Prop} {inv : σ → Prop} {log : σ → List α}
    {Block : ι → List α → Prop}
    (step : ∀ {i s t}, kind i → inv s → exec i s = .ok () t →
      inv t ∧ ∃ block, Block i block ∧ log t = log s ++ block)
    {steps : List ι} {s t : σ} (hk : ∀ i ∈ steps, kind i) (hs : inv s)
    (h : perform exec steps s = .ok () t) :
    ∃ blocks, List.Forall₂ Block steps blocks ∧ log t = log s ++ blocks.flatten := by
  induction steps generalizing s with
  | nil =>
    cases h
    exact ⟨[], .nil, by simp⟩
  | cons i rest ih =>
    obtain ⟨_, s', hi, hrest⟩ := bind_eq_ok h
    obtain ⟨hs', block, hblock, hlog⟩ := step (hk i List.mem_cons_self) hs hi
    obtain ⟨blocks, hblocks, hlogs⟩ := ih (fun j hj => hk j (List.mem_cons_of_mem i hj)) hs' hrest
    exact ⟨block :: blocks, .cons hblock hblocks, by simp [hlogs, hlog]⟩

end SprdFlash.Script
