import SprdFlash.Framing

/-!
What `autobaud` accepts. Each attempt reads at most one frame; the first body of
type VER among them ends the handshake, whether its checksum holds or not. The
session is left in the mode that checksum verifies under, or in the old one.
-/

namespace SprdFlash.Handshake

open Message Port SpdIO Struct Script Framing

def version (body : Bytes) : Option Bytes :=
  match parseMessage body with
  | .ok (cmd, data) => if cmd = bslRepVer then some data else none
  | .error _ => none

theorem version_eq_some {body data : Bytes} :
    version body = some data ↔ parseMessage body = .ok (bslRepVer, data) := by
  unfold version
  split
  · rename_i cmd data' parsed
    rw [parsed]
    by_cases isVer : cmd = bslRepVer
    · simp [isVer]
    · simp [isVer]
  · rename_i e failed
    rw [failed]
    simp

/-- A body whose last two bytes are the checksum of the others. -/
def Verifies (mode : Checksum) (body : Bytes) : Prop :=
  6 ≤ body.length ∧
    unpack .big (body.drop (body.length - 2)) = checksumFor mode (body.take (body.length - 2))

instance (mode : Checksum) (body : Bytes) : Decidable (Verifies mode body) :=
  inferInstanceAs (Decidable (_ ∧ _))

theorem lastWord_eq {body : Bytes} (long : 2 ≤ body.length) :
    ((body.getD (body.length - 2) 0).toNat <<< 8) ||| (body.getD (body.length - 1) 0).toNat =
      unpack .big (body.drop (body.length - 2)) := by
  obtain ⟨front, a, b, rfl⟩ : ∃ front a b, body = front ++ [a, b] := by
    have two : (body.drop (body.length - 2)).length = 2 := by
      rw [List.length_drop]
      omega
    obtain ⟨a, b, last⟩ := List.length_eq_two.mp two
    exact ⟨body.take (body.length - 2), a, b, by rw [← last, List.take_append_drop]⟩
  have length : (front ++ [a, b]).length = front.length + 2 := by simp
  have small : b.toNat < 2 ^ 8 := b.toNat_lt
  have first : (front ++ [a, b]).getD front.length 0 = a := by simp
  have second : (front ++ [a, b]).getD (front.length + 2 - 1) 0 = b := by simp
  rw [length, Nat.add_sub_cancel, List.drop_left, first, second]
  simp only [unpack, List.reverse_cons, List.reverse_nil, List.nil_append, List.singleton_append,
    fromOctets]
  rw [← Nat.shiftLeft_add_eq_or_of_lt small, Nat.shiftLeft_eq]
  omega

theorem detectChecksum_eq (body : Bytes) :
    detectChecksum body = if Verifies .sprd body then some .sprd
      else if Verifies .crc body then some .crc else none := by
  simp only [detectChecksum, Verifies]
  by_cases short : body.length < 6
  · have bad : ¬ 6 ≤ body.length := by omega
    simp only [if_pos short, bad, false_and, if_false]
  · have long : 6 ≤ body.length := by omega
    simp only [if_neg short, lastWord_eq (show 2 ≤ body.length by omega), long, true_and,
      checksumFor, eq_comm (b := unpack .big (body.drop (body.length - 2)))]

variable {σ : Type} [Device σ]

def readings : ℕ → σ → List Event → List Bytes
  | 0, _, _ => []
  | attempts + 1, device, pending =>
    match Device.onWrite device [hdlcFlag] with
    | none => []
    | some (device, events) =>
      match seekFlag (pending ++ events) with
      | (.ok body, rest) => body :: readings attempts device rest
      | (.error e, rest) => if isTimeoutOrValue e then readings attempts device rest else []

theorem autobaudFrom_succ (total attempts : ℕ) (s : Port σ) :
    autobaudFrom total (attempts + 1) s =
      match Device.onWrite s.device [hdlcFlag] with
      | none => .error (.osError "write failed") { s with log := s.log ++ [.wrote [hdlcFlag]] }
      | some (device, events) =>
        let asked : Port σ := ⟨device, s.pending ++ events, s.log ++
          [.wrote [hdlcFlag]], s.checksum⟩
        match seekFlag asked.pending with
        | (.ok body, rest) =>
          let heard := { asked with pending := rest, log := asked.log ++ [.reply body] }
          match version body with
          | some data => .ok data { heard with
              log := heard.log ++ [.version data]
              checksum := (detectChecksum body).getD s.checksum }
          | none => autobaudFrom total attempts heard
        | (.error e, rest) =>
          if isTimeoutOrValue e then autobaudFrom total attempts { asked with pending := rest }
          else .error e { asked with pending := rest } := by
  rw [autobaudFrom_step]
  cases reaction : Device.onWrite s.device [hdlcFlag] with
  | none =>
    exact bind_error (write_of_none reaction)
  | some answer =>
    obtain ⟨device, events⟩ := answer
    rw [bind_ok (write_of_some reaction)]
    simp only [SerialLike.tryFrame, SerialLike.settle, bind, EStateM.bind, readFrame]
    rcases found : seekFlag (s.pending ++ events) with ⟨e | body, rest⟩
    · cases caught : isTimeoutOrValue e
      · simp [caught]
      · simp [caught]
    · simp only [version]
      cases parsed : parseMessage body with
      | error e => rfl
      | ok message =>
        obtain ⟨cmd, data⟩ := message
        simp only
        by_cases isVer : cmd = bslRepVer
        · rw [if_pos isVer, if_pos isVer]
          cases detectChecksum body <;> rfl
        · rw [if_neg isVer, if_neg isVer]

/-- By induction on the attempts: they end with the first VER body they read. -/
theorem autobaudFrom_readings (total attempts : ℕ) (s : Port σ) :
    match (readings attempts s.device s.pending).find? fun body => (version body).isSome with
    | some body => ∃ data t log, version body = some data ∧
        autobaudFrom total attempts s = .ok data t ∧
        t.log = log ++ [.reply body, .version data] ∧
        t.checksum = (detectChecksum body).getD s.checksum
    | none => ∃ e t, autobaudFrom total attempts s = .error e t := by
  induction attempts generalizing s with
  | zero => exact ⟨_, s, rfl⟩
  | succ attempts ih =>
    rw [autobaudFrom_succ, readings]
    cases Device.onWrite s.device [hdlcFlag] with
    | none => exact ⟨_, _, rfl⟩
    | some answer =>
      obtain ⟨device, events⟩ := answer
      simp only
      rcases seekFlag (s.pending ++ events) with ⟨e | body, rest⟩
      · simp only
        cases isTimeoutOrValue e with
        | true => exact ih ⟨device, rest, s.log ++ [.wrote [hdlcFlag]], s.checksum⟩
        | false => exact ⟨_, _, rfl⟩
      · cases found : version body with
        | some data =>
          simp only [List.find?_cons, found, Option.isSome_some]
          exact ⟨data, _, s.log ++ [.wrote [hdlcFlag]], rfl, rfl, by simp, rfl⟩
        | none =>
          simp only [List.find?_cons, found, Option.isSome_none]
          exact ih ⟨device, rest, s.log ++ [.wrote [hdlcFlag]] ++ [.reply body], s.checksum⟩

theorem detected_verifies {mode : Checksum} {body : Bytes} (verifies : Verifies mode body)
    (old : Checksum) : Verifies ((detectChecksum body).getD old) body := by
  rw [detectChecksum_eq]
  by_cases sprd : Verifies .sprd body
  · rw [if_pos sprd]
    exact sprd
  · cases mode with
    | sprd => exact absurd verifies sprd
    | crc =>
      rw [if_neg sprd, if_pos verifies]
      exact verifies

/-- The handshake accepts nothing but a VER frame whose checksum holds in the
mode it leaves. -/
def AcceptsVerified (attempts : ℕ) (s : Port σ) : Prop :=
  ∀ data t, autobaud attempts s = .ok data t → ∃ log body,
    t.log = log ++ [.reply body, .version data] ∧ parseMessage body = .ok (bslRepVer, data) ∧
      Verifies t.checksum body

/-- It does so unless the first VER frame it reads verifies in neither mode. -/
theorem autobaud_verified_iff (attempts : ℕ) (s : Port σ) :
    AcceptsVerified attempts s ↔ ∀ body,
      (readings attempts s.device s.pending).find? (fun body => (version body).isSome) = some body →
        ∃ mode, Verifies mode body := by
  have outcome := autobaudFrom_readings attempts attempts s
  rw [← autobaud_def] at outcome
  unfold AcceptsVerified
  cases first : (readings attempts s.device s.pending).find? fun body => (version body).isSome with
  | none =>
    rw [first] at outcome
    obtain ⟨e, t, failed⟩ := outcome
    simp [failed]
  | some body =>
    rw [first] at outcome
    obtain ⟨data, t, log, found, run, logged, mode⟩ := outcome
    constructor
    · intro accepts body' same
      cases same
      obtain ⟨log', body', logged', -, verifies⟩ := accepts data t run
      rw [logged] at logged'
      have last := (List.append_inj_right' logged' rfl)
      cases last
      exact ⟨_, verifies⟩
    · intro sound data' t' run'
      rw [run] at run'
      cases run'
      obtain ⟨mode', verifies⟩ := sound body rfl
      refine ⟨log, body, logged, version_eq_some.mp found, ?_⟩
      rw [mode]
      exact detected_verifies verifies _

def forged : Port Tape :=
  Port.fresh ⟨[[0x7E, 0x00, 0x81, 0x00, 0x01, 0x31, 0x00, 0x00, 0x7E].map .byte]⟩

theorem forged_accepted (total attempts : ℕ) : autobaudFrom total (attempts + 1) forged =
    .ok [0x31] ⟨⟨[]⟩, [], [.wrote [0x7E]] ++
      [.reply [0x00, 0x81, 0x00, 0x01, 0x31, 0x00, 0x00], .version [0x31]], .sprd⟩ := by
  rw [autobaudFrom_succ]
  rfl

theorem autobaud_forged : ¬ AcceptsVerified 200 forged := by
  intro accepts
  obtain ⟨log, body, logged, -, verifies⟩ := accepts _ _ (forged_accepted 200 199)
  cases List.append_inj_right' logged rfl
  exact absurd verifies (by decide)

end SprdFlash.Handshake
