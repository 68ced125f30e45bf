import Mathlib.Data.Nat.Bitwise
import Mathlib.Logic.Function.Iterate

/-!
Linear shift registers over bit vectors, as CRCs use them. A register is an
injective exclusive-or homomorphism; a message is absorbed symbol by symbol,
each added to the state before a step. Injectivity carries a difference through
any suffix, and a burst of two symbols cannot cancel when no step takes a
nonzero symbol to a symbol. The Galois register that shifts towards its low end
is one, and its byte table is the register itself on the low bits.
-/

namespace SprdFlash

structure Register (w : ℕ) where
  step : BitVec w → BitVec w
  step_xor : ∀ x y, step (x ^^^ y) = step x ^^^ step y
  step_injective : Function.Injective step

namespace Register

variable {w : ℕ}

def ofKernel (step : BitVec w → BitVec w)
    (step_xor : ∀ x y, step (x ^^^ y) = step x ^^^ step y)
    (kernel : ∀ x, step x = 0 → x = 0) : Register w where
  step := step
  step_xor := step_xor
  step_injective x y same := by
    have zero : step (x ^^^ y) = 0 := by rw [step_xor, same, BitVec.xor_self]; rfl
    exact BitVec.xor_eq_zero_iff.mp (kernel _ zero)

def iterate (r : Register w) (n : ℕ) : Register w where
  step := r.step^[n]
  step_xor x y := by
    induction n with
    | zero => rfl
    | succ n ih => simp only [Function.iterate_succ_apply', ih, r.step_xor]
  step_injective := r.step_injective.iterate n

variable (r : Register w)

def digest (x : BitVec w) (symbols : List (BitVec w)) : BitVec w :=
  symbols.foldl (fun state b => r.step (state ^^^ b)) x

/-- A difference in the state survives every suffix. -/
theorem digest_injective (symbols : List (BitVec w)) :
    Function.Injective fun x => r.digest x symbols := by
  induction symbols with
  | nil => exact fun _ _ h => h
  | cons b symbols ih =>
    intro x y same
    have stepped : r.step (x ^^^ b) = r.step (y ^^^ b) := ih same
    exact BitVec.xor_left_inj b |>.mp (r.step_injective stepped)

section Burst

variable {S : BitVec w → Prop} (closed : ∀ x y, S x → S y → S (x ^^^ y))
  (apart : ∀ d, S d → S (r.step d) → d = 0)
include closed apart

theorem digest_pair_injective {x b₀ b₁ c₀ c₁ : BitVec w} (hb₀ : S b₀) (hb₁ : S b₁)
    (hc₀ : S c₀) (hc₁ : S c₁) (same : r.digest x [b₀, b₁] = r.digest x [c₀, c₁]) :
    b₀ = c₀ ∧ b₁ = c₁ := by
  have inner : r.step (x ^^^ b₀) ^^^ b₁ = r.step (x ^^^ c₀) ^^^ c₁ := r.step_injective same
  have image : r.step (b₀ ^^^ c₀) = b₁ ^^^ c₁ := by
    rw [r.step_xor, r.step_xor] at inner
    rw [r.step_xor]
    apply BitVec.eq_of_getElem_eq
    intro i hi
    have bit := congrArg (fun v : BitVec w => v[i]) inner
    simp only [BitVec.getElem_xor] at bit ⊢
    revert bit
    cases (r.step x)[i] <;> cases (r.step b₀)[i] <;> cases (r.step c₀)[i] <;>
      cases b₁[i] <;> cases c₁[i] <;> simp
  have zero : b₀ ^^^ c₀ = 0 :=
    apart _ (closed _ _ hb₀ hc₀) (by rw [image]; exact closed _ _ hb₁ hc₁)
  have first : b₀ = c₀ := BitVec.xor_eq_zero_iff.mp zero
  subst first
  exact ⟨rfl, BitVec.xor_right_inj _ |>.mp inner⟩

/-- Messages of equal length that differ at most in two neighbouring symbols and
have the same digest are the same. -/
theorem eq_of_digest_eq_of_window {xs ys : List (BitVec w)} (hx : ∀ b ∈ xs, S b)
    (hy : ∀ b ∈ ys, S b) (length : xs.length = ys.length) (p : ℕ)
    (window : ∀ i, i ≠ p → i ≠ p + 1 → xs[i]? = ys[i]?) {x : BitVec w}
    (same : r.digest x xs = r.digest x ys) : xs = ys := by
  induction p generalizing xs ys x with
  | zero =>
    rcases xs with _ | ⟨b₀, _ | ⟨b₁, xs⟩⟩ <;> rcases ys with _ | ⟨c₀, _ | ⟨c₁, ys⟩⟩ <;>
      simp only [List.length_nil, List.length_cons] at length <;> try omega
    · rfl
    · have stepped : x ^^^ b₀ = x ^^^ c₀ := r.step_injective same
      rw [(BitVec.xor_right_inj x).mp stepped]
    · have after : xs = ys := by
        apply List.ext_getElem?
        intro i
        simpa using window (i + 2) (by omega) (by omega)
      subst after
      have pair := digest_injective r xs (show r.digest (r.digest x [b₀, b₁]) xs =
        r.digest (r.digest x [c₀, c₁]) xs from same)
      obtain ⟨rfl, rfl⟩ := digest_pair_injective r closed apart (hx _ (by simp)) (hx _ (by simp))
        (hy _ (by simp)) (hy _ (by simp)) pair
      rfl
  | succ p ih =>
    rcases xs with _ | ⟨b, xs⟩ <;> rcases ys with _ | ⟨c, ys⟩ <;>
      simp only [List.length_nil, List.length_cons] at length <;> try omega
    · rfl
    · have head : b = c := by simpa using window 0 (by omega) (by omega)
      subst head
      have tail : xs = ys := by
        refine ih (fun a ha => hx a (by simp [ha])) (fun a ha => hy a (by simp [ha]))
          (by omega) (fun i h₀ h₁ => ?_) same
        simpa using window (i + 1) (by omega) (by omega)
      rw [tail]

end Burst

def shiftDown (poly x : BitVec w) : BitVec w :=
  (x >>> 1) ^^^ (if x.getLsbD 0 then poly else 0#w)

theorem shiftDown_xor (poly x y : BitVec w) :
    shiftDown poly (x ^^^ y) = shiftDown poly x ^^^ shiftDown poly y := by
  apply BitVec.eq_of_getLsbD_eq
  intro i hi
  simp only [shiftDown, BitVec.ushiftRight_xor_distrib, BitVec.getLsbD_xor]
  cases x.getLsbD 0 <;> cases y.getLsbD 0 <;> cases (x >>> 1).getLsbD i <;>
    cases (y >>> 1).getLsbD i <;> cases h : poly.getLsbD i <;> simp [h]

theorem shiftDown_eq_zero {poly x : BitVec w} (top : poly.getLsbD (w - 1) = true)
    (h : shiftDown poly x = 0) : x = 0 := by
  have wide : w - 1 < w := BitVec.lt_of_getLsbD top
  cases low : x.getLsbD 0 with
  | true =>
    have bit := congrArg (fun v : BitVec w => v.getLsbD (w - 1)) h
    have shifted : x.getLsbD (1 + (w - 1)) = false := BitVec.getLsbD_of_ge x _ (by omega)
    simp [shiftDown, low, top, shifted] at bit
  | false =>
    apply BitVec.eq_of_getLsbD_eq
    intro i hi
    cases i with
    | zero => simpa using low
    | succ i =>
      have bit := congrArg (fun v : BitVec w => v.getLsbD i) h
      simpa [shiftDown, low, Nat.add_comm] using bit

/-- The Galois register of a polynomial with its top bit set. -/
def galois (poly : BitVec w) (top : poly.getLsbD (w - 1) = true) : Register w :=
  ofKernel (shiftDown poly) (shiftDown_xor poly) fun _ => shiftDown_eq_zero top

theorem shiftDown_clear (poly x : BitVec w) {n m : ℕ} (h : m < n) :
    shiftDown poly ((x >>> n) <<< (m + 1)) = (x >>> n) <<< m := by
  apply BitVec.eq_of_getLsbD_eq
  intro i hi
  have low : ((x >>> n) <<< (m + 1)).getLsbD 0 = false := by simp
  rw [shiftDown, low]
  simp only [Bool.false_eq_true, if_false, BitVec.xor_zero, BitVec.getLsbD_ushiftRight,
    BitVec.getLsbD_shiftLeft, Nat.add_comm 1 i]
  have index : n + (i + 1 - (m + 1)) = n + (i - m) := by omega
  rw [index]
  by_cases inside : i + 1 < w
  · simp [inside, hi]
  · have top : x.getLsbD (n + (i - m)) = false := BitVec.getLsbD_of_ge x _ (by omega)
    simp [inside, top]

theorem iterate_shiftDown_clear (poly x : BitVec w) {n k : ℕ} (h : k ≤ n) :
    (shiftDown poly)^[k] ((x >>> n) <<< n) = (x >>> n) <<< (n - k) := by
  induction k with
  | zero => rfl
  | succ k ih =>
    have next : n - k = n - (k + 1) + 1 := by omega
    rw [Function.iterate_succ_apply', ih (by omega), next, shiftDown_clear poly x (by omega)]

/-- Table-driven stepping: `n` shifts move the high bits down and replace the
low ones by their own image. -/
theorem iterate_galois_step (poly : BitVec w) (top : poly.getLsbD (w - 1) = true) (n : ℕ)
    (x : BitVec w) : ((galois poly top).iterate n).step x =
      (x >>> n) ^^^ ((galois poly top).iterate n).step (x ^^^ ((x >>> n) <<< n)) := by
  have high : ((galois poly top).iterate n).step ((x >>> n) <<< n) = x >>> n := by
    have h := iterate_shiftDown_clear poly x (le_refl n)
    rwa [Nat.sub_self, BitVec.shiftLeft_zero] at h
  rw [((galois poly top).iterate n).step_xor, high, BitVec.xor_comm, BitVec.xor_assoc,
    BitVec.xor_self, BitVec.xor_zero]

end Register
end SprdFlash
