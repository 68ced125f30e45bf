import SprdFlash.Library.Script

/-!
Two fallible programs over different states run side by side: from related states both
return the same value, into related states again, or both fail. Programs that run side
by side may be put in sequence, and a loop whose bodies do so does so.
-/

namespace SprdFlash.Simulation

open Script

variable {ε ε' σ τ α β κ : Type}

/-- Outcomes of two runs: the same value in related states, or two failures. -/
inductive Agree (Q : σ → τ → Prop) (E : ε → σ → ε' → τ → Prop) :
    EStateM.Result ε σ α → EStateM.Result ε' τ α → Prop
  | ok {a s t} : Q s t → Agree Q E (.ok a s) (.ok a t)
  | error {e f s t} : E e s f t → Agree Q E (.error e s) (.error f t)

theorem Agree.cases {Q : σ → τ → Prop} {E : ε → σ → ε' → τ → Prop} {r : EStateM.Result ε σ α}
    {r' : EStateM.Result ε' τ α} (h : Agree Q E r r') :
    (∃ a s t, r = .ok a s ∧ r' = .ok a t ∧ Q s t) ∨
      ∃ e s f t, r = .error e s ∧ r' = .error f t ∧ E e s f t := by
  cases h with
  | ok related => exact .inl ⟨_, _, _, rfl, rfl, related⟩
  | error failed => exact .inr ⟨_, _, _, _, rfl, rfl, failed⟩

/-- From states related by `P` the outcomes agree. -/
def Alongside (P : σ → τ → Prop) (x : EStateM ε σ α) (y : EStateM ε' τ α) (Q : σ → τ → Prop)
    (E : ε → σ → ε' → τ → Prop) : Prop := ∀ s t, P s t → Agree Q E (x s) (y t)

variable {P Q R : σ → τ → Prop} {E : ε → σ → ε' → τ → Prop}

theorem Alongside.pure (a : α) : Alongside P (pure a) (pure a) P E := fun _ _ related => .ok related

theorem Alongside.throw {e : ε} {f : ε'} (h : ∀ s t, P s t → E e s f t) :
    Alongside P (throw e : EStateM ε σ α) (throw f) Q E := fun s t related => .error (h s t related)

theorem Alongside.bind {x : EStateM ε σ α} {y : EStateM ε' τ α} {f : α → EStateM ε σ β}
    {g : α → EStateM ε' τ β} (hx : Alongside P x y R E) (hf : ∀ a, Alongside R (f a) (g a) Q E) :
    Alongside P (x >>= f) (y >>= g) Q E := by
  intro s t related
  rcases (hx s t related).cases with ⟨a, s', t', run, run', related'⟩ |
    ⟨e, s', f, t', run, run', failed⟩
  · rw [bind_ok run, bind_ok run']
    exact hf a s' t' related'
  · rw [bind_error run, bind_error run']
    exact .error failed

theorem Alongside.forM {f : κ → EStateM ε σ Unit} {g : κ → EStateM ε' τ Unit} (ks : List κ)
    (h : ∀ k ∈ ks, Alongside P (f k) (g k) P E) : Alongside P (ks.forM f) (ks.forM g) P E := by
  induction ks with
  | nil => exact .pure ()
  | cons k ks ih =>
    rw [List.forall_mem_cons] at h
    exact h.1.bind fun _ => ih h.2

theorem Alongside.weaken {x : EStateM ε σ α} {y : EStateM ε' τ α} (h : Alongside P x y R E)
    (weaker : ∀ s t, R s t → Q s t) : Alongside P x y Q E := by
  intro s t related
  rcases (h s t related).cases with ⟨a, s', t', run, run', related'⟩ |
    ⟨e, s', f, t', run, run', failed⟩
  · rw [run, run']
    exact .ok (weaker _ _ related')
  · rw [run, run']
    exact .error failed

end SprdFlash.Simulation
