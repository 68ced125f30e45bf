import SprdFlash.Library.Script

/-!
Pre- and postconditions for fallible programs: one postcondition for a run that
returns, one for a run that fails. A script keeps what each of its steps keeps.
-/

namespace SprdFlash.Hoare

open Script

variable {ε σ α ι : Type}

/-- From every state with `P` the program returns into `Q` or fails into `E`. -/
def Triple (P : σ → Prop) (x : EStateM ε σ α) (Q E : σ → Prop) : Prop :=
  ∀ s, P s → match x s with
    | .ok _ t => Q t
    | .error _ t => E t

variable {P Q R E : σ → Prop}

theorem Triple.bind {β : Type} {x : EStateM ε σ α} {f : α → EStateM ε σ β} (hx : Triple P x R E)
    (hf : ∀ a, Triple R (f a) Q E) : Triple P (x >>= f) Q E := by
  intro s hs
  have first := hx s hs
  cases run : x s with
  | ok a t =>
    rw [run] at first
    rw [bind_ok run]
    exact hf a t first
  | error e t =>
    rw [run] at first
    rw [bind_error run]
    exact first

theorem Triple.weaken {x : EStateM ε σ α} (hx : Triple P x R E) (h : ∀ s, R s → Q s) :
    Triple P x Q E := by
  intro s hs
  have outcome := hx s hs
  cases run : x s with
  | ok a t =>
    rw [run] at outcome
    exact h t outcome
  | error e t =>
    rw [run] at outcome
    exact outcome

theorem Triple.throw (h : ∀ s, P s → E s) (e : ε) :
    Triple P (throw e : EStateM ε σ α) Q E := fun s hs => h s hs

theorem Triple.final {x : EStateM ε σ α} (hx : Triple P x Q E) (h : ∀ s, Q s → E s) {s : σ}
    (hs : P s) : E (Script.final (x s)) := by
  have outcome := hx s hs
  cases run : x s with
  | ok a t =>
    rw [run] at outcome
    exact h t outcome
  | error e t =>
    rw [run] at outcome
    exact outcome

variable {exec : ι → EStateM ε σ Unit}

theorem Triple.perform {steps : List ι} (h : ∀ i ∈ steps, Triple P (exec i) P E) :
    Triple P (Script.perform exec steps) P E := by
  induction steps with
  | nil => exact fun s hs => hs
  | cons i steps ih =>
    exact (h i List.mem_cons_self).bind fun _ => ih fun j hj => h j (List.mem_cons_of_mem i hj)

theorem Triple.append {xs ys : List ι} (hx : Triple P (Script.perform exec xs) R E)
    (hy : Triple R (Script.perform exec ys) Q E) :
    Triple P (Script.perform exec (xs ++ ys)) Q E := by
  rw [Script.perform_append]
  exact hx.bind fun _ => hy

theorem Triple.cons {i : ι} {steps : List ι} (hi : Triple P (exec i) R E)
    (hs : Triple R (Script.perform exec steps) Q E) :
    Triple P (Script.perform exec (i :: steps)) Q E := hi.bind fun _ => hs

end SprdFlash.Hoare
