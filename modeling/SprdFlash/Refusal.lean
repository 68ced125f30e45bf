import SprdFlash.PacImage

/-!
A package damaged in one place is flashed by neither flow. Parsing it fails, or
one of the two checksums no longer agrees; both flows then raise with the port
as they found it.
-/

namespace SprdFlash.Refusal

open Port Pac Flasher Native Plan

variable {path damaged : PacFile} {info : PacInfo} {p : ℕ}

theorem not_accepted_of_localDamage (accepted : parsePac path true = .ok info)
    (good : info.crcOk = true) (damage : LocalDamage path.content damaged.content p)
    (info' : PacInfo) : ¬ Accepted damaged info' := by
  intro accepted'
  have bad := crcOk_false_of_localDamage accepted good damage accepted'.parsed
  rw [accepted'.crcOk] at bad
  cases bad

/-- Local damage to a package with good checksums is detected, and neither flow
does anything to the port. -/
theorem localDamage_refused (accepted : parsePac path true = .ok info) (good : info.crcOk = true)
    (damage : LocalDamage path.content damaged.content p) :
    ((∃ msg, parsePac damaged true = .error (.valueError msg)) ∨
      ∃ info', parsePac damaged true = .ok info' ∧ info'.crcOk = false) ∧
    ∀ (σ : Type) [Device σ] (s : Port σ),
      (∀ options, ∃ e, nativeFlash damaged options s = .error e s) ∧
        ∀ options, ∃ e, flashPac damaged options s = .error e s := by
  have unaccepted := not_accepted_of_localDamage accepted good damage
  refine ⟨?_, fun σ _ s => ⟨fun options => ?_, fun options =>
    flashPac_refused unaccepted options s⟩⟩
  · cases parsed : parsePac damaged true with
    | error e =>
      obtain ⟨msg, rfl⟩ := parsePac_error parsed
      exact .inl ⟨msg, rfl⟩
    | ok info' => exact .inr ⟨info', rfl, crcOk_false_of_localDamage accepted good damage parsed⟩
  · exact nativeFlash_refused (fun info' _ accepted' =>
      absurd accepted' (unaccepted info')) options s

theorem window_set (content : Bytes) (p : ℕ) (b : UInt8) : Window content (content.set p b) p := by
  refine ⟨by simp, fun i other _ => ?_⟩
  rw [List.getElem?_set_ne (Ne.symm other)]

section Package

open PacImage

/-- The package with its first payload byte changed. -/
def scratched : PacFile := ⟨"scratched.pac", (package 2).content.set (payloadOffset 3) 0xFF⟩

theorem scratched_damage : LocalDamage (package 2).content scratched.content (payloadOffset 3) where
  window := window_set _ _ _
  inside := .inr (by decide)
  differs := by
    intro same
    have small : 2 < 2 ^ 32 := by decide
    have first : readAt (package 2).content (payloadOffset 3) 1 = [0x11] :=
      readAt_image "package.pac" (package_layable small) 0 1
    have held : (package 2).content[payloadOffset 3]? = some 0x11 := by
      have head := congrArg (fun bs : Bytes => bs[0]?) first
      simpa [readAt, List.getElem?_take] using head
    have changed : scratched.content[payloadOffset 3]? = some 0xFF := by
      rw [scratched, List.getElem?_set_self]
      rw [package_length small]
      decide
    rw [← same, held] at changed
    exact absurd changed (by decide)

theorem scratched_refused :
    (∃ msg, parsePac scratched true = .error (.valueError msg)) ∨
      ∃ info, parsePac scratched true = .ok info ∧ info.crcOk = false := by
  obtain ⟨info, accepted, -⟩ := package_accepted (show 2 < 2 ^ 32 by decide)
  exact (localDamage_refused accepted.parsed accepted.crcOk scratched_damage).1

end Package

end SprdFlash.Refusal
