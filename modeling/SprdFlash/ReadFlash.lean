import SprdFlash.Asking
import SprdFlash.WireLog

/-!
Reading flash back in chunks. The loop goes on by the size it asked for and appends
what came, so its result is right exactly as long as every reply has the size asked
for, and nothing in it looks at that.
-/

namespace SprdFlash.ReadFlash

open Message Port SpdIO Struct Script Exchange WireLog Asking

def bslCmdReadFlash : ℕ := 0x06
def bslRepReadFlash : ℕ := 0x93

def nvReadChunk : ℕ+ := 0x3000

variable {σ : Type} [Device σ]

def readLoop (addr total : ℕ) (chunk : ℕ+) (off : ℕ) (out : Bytes) : Session σ Bytes :=
  if off < total then do
    let n := min (chunk : ℕ) (total - off)
    let data ← raising (pack .big 4 [addr, n, off])
    send bslCmdReadFlash data
    let (rtype, rdata) ← recv
    if rtype ≠ bslRepReadFlash then
      let place := "0x" ++ hex 0 addr
      let got := repName rtype
      throw (.pdlError s!"READ_FLASH @ {place}+{off}: got {got}")
    else readLoop addr total chunk (off + n) (out ++ rdata)
  else return out
termination_by total - off
decreasing_by
  have := chunk.pos
  omega

/-- BSL READ_FLASH: read a number of bytes from a logical address in chunks. -/
def readFlash (addr total : ℕ) (chunk : ℕ+) : Session σ Bytes := readLoop addr total chunk 0 []

structure Window where
  size : ℕ
  offset : ℕ
  deriving DecidableEq, Repr

def Window.slice (w : Window) (out : Bytes) : Bytes := (out.drop w.offset).take w.size

def windows (total : ℕ) (chunk : ℕ+) (off : ℕ) : List Window :=
  if off < total then
    ⟨min (chunk : ℕ) (total - off), off⟩ ::
      windows total chunk (off + min (chunk : ℕ) (total - off))
  else []
termination_by total - off
decreasing_by
  have := chunk.pos
  omega

def request (mode : Checksum) (addr : ℕ) (w : Window) : Bytes :=
  wireMessage bslCmdReadFlash (fields .big 4 [addr, w.size, w.offset]) mode

def askedSize (written : Bytes) : Option ℕ :=
  match decodeWrite written with
  | some (.bsl cmd data) =>
    if cmd = bslCmdReadFlash then some (unpack .big ((data.drop 4).take 4)) else none
  | _ => none

def flashData (body : Bytes) : Option Bytes :=
  match parseMessage body with
  | .ok (rtype, rdata) => if rtype = bslRepReadFlash then some rdata else none
  | .error _ => none

/-- Nothing is requested behind a READ_FLASH reply of another size than asked for. -/
def Stops : List Act → Prop
  | .wrote written :: .reply body :: rest =>
    (∀ rdata, flashData body = some rdata → askedSize written ≠ some rdata.length → rest = []) ∧
      Stops rest
  | _ => True

/-- From an offset on: requests whose windows tile up to the total, each with a
READ_FLASH reply that is the part of the result its window stands for. -/
def Answered (mode : Checksum) (addr total : ℕ) (out : Bytes) : ℕ → List Act → Prop
  | off, [] => off = total
  | off, .wrote written :: .reply body :: rest => ∃ size, 0 < size ∧ off + size ≤ total ∧
      written = request mode addr ⟨size, off⟩ ∧
        flashData body = some (Window.slice ⟨size, off⟩ out) ∧
      Answered mode addr total out (off + size) rest
  | _, _ => False

/-- A read that returns exactly what was asked for, and goes on behind no reply of
another size. -/
def ReadsBack (addr total : ℕ) (chunk : ℕ+) (s : Port σ) : Prop :=
  ∃ acts, (final (readFlash addr total chunk s)).log = s.log ++ acts ∧ Stops acts ∧
    ∀ out t, readFlash addr total chunk s = .ok out t →
      out.length = total ∧ Answered s.checksum addr total out 0 acts

def Fits : List Act → Prop
  | .wrote written :: .reply body :: rest =>
    (∀ rdata, flashData body = some rdata → askedSize written = some rdata.length) ∧ Fits rest
  | _ => True

def answer (mode : Checksum) (addr : ℕ) (w : Window) (device : σ) (pending : List Event) :
    Option (Bytes × Bytes × σ × List Event) :=
  match ask (request mode addr w) device pending with
  | some (.ok body, device, unread) =>
    (flashData body).map fun rdata => (body, rdata, device, unread)
  | _ => none

/-- The READ_FLASH replies of a device along the windows, up to a window it gives none
for. -/
def answers (mode : Checksum) (addr : ℕ) : List Window → σ → List Event → List (Window × Bytes)
  | [], _, _ => []
  | w :: rest, device, pending =>
    match answer mode addr w device pending with
    | some (_, rdata, device, unread) => (w, rdata) :: answers mode addr rest device unread
    | none => []

theorem request_framable (addr : ℕ) (w : Window) :
    Framable bslCmdReadFlash (fields .big 4 [addr, w.size, w.offset]) := by
  rw [Framable, fields_length]
  exact ⟨by decide, by simp⟩

theorem askedSize_request {addr : ℕ} {w : Window} (haddr : addr < 2 ^ 32) (hsize : w.size < 2 ^ 32)
    (mode : Checksum) : askedSize (request mode addr w) = some w.size := by
  have second := (unpack_words .big haddr hsize [w.offset]).2
  rw [askedSize, request, decodeWrite_wireMessage (request_framable addr w)]
  simp only [if_true, second]

theorem readLoop_round {addr total : ℕ} (haddr : addr < 2 ^ 32) (htotal : total < 2 ^ 32)
    (chunk : ℕ+) {off : ℕ} (more : off < total) (out : Bytes) (s : Port σ) :
    let w : Window := ⟨min (chunk : ℕ) (total - off), off⟩
    match answer s.checksum addr w s.device s.pending with
    | some (body, rdata, device, unread) => flashData body = some rdata ∧
        readLoop addr total chunk off out s = readLoop addr total chunk (off + w.size)
          (out ++ rdata)
          ⟨device, unread, s.log ++ [.wrote (request s.checksum addr w), .reply body], s.checksum⟩
    | none => ∃ e t acts, readLoop addr total chunk off out s = .error e t ∧ t.log = s.log ++ acts ∧
        (acts = [.wrote (request s.checksum addr w)] ∨ ∃ body, flashData body = none ∧
          acts = [.wrote (request s.checksum addr w), .reply body]) := by
  intro w
  have packed : pack .big 4 [addr, w.size, w.offset] =
      .ok (fields .big 4 [addr, w.size, w.offset]) := by
    apply pack_ok
    simp only [List.mem_cons, List.not_mem_nil, or_false, forall_eq_or_imp, forall_eq]
    have size : w.size ≤ total - off := Nat.min_le_right _ _
    have offset : w.offset = off := rfl
    exact ⟨by omega, by omega, by omega⟩
  have sends := send_recv (request_framable addr w) s
    (show request s.checksum addr w = _ from rfl)
  have round : readLoop addr total chunk off out s =
      ((send bslCmdReadFlash (fields .big 4 [addr, w.size, w.offset]) >>= fun _ => recv) >>=
        fun m => if m.1 ≠ bslRepReadFlash then
          let place := "0x" ++ hex 0 addr
          let got := repName m.1
          throw (.pdlError s!"READ_FLASH @ {place}+{off}: got {got}")
        else readLoop addr total chunk (off + w.size) (out ++ m.2)) s := by
    rw [readLoop, if_pos more, bind_assoc]
    exact bind_ok (show raising (pack .big 4 [addr, w.size, w.offset]) s = .ok _ s by
      rw [packed]; rfl)
  rw [round, answer]
  rcases met : ask (request s.checksum addr w) s.device s.pending with _ |
    ⟨e | body, device, unread⟩
  · rw [met] at sends
    exact ⟨_, _, [_], bind_error sends, rfl, .inl rfl⟩
  · rw [met] at sends
    exact ⟨_, _, [_], bind_error sends, rfl, .inl rfl⟩
  · rw [met] at sends
    simp only at sends ⊢
    cases parsed : parseMessage body with
    | error e =>
      have other : flashData body = none := by rw [flashData, parsed]
      rw [parsed] at sends
      rw [other]
      exact ⟨_, _, [_, _], bind_error sends, rfl, .inr ⟨body, other, rfl⟩⟩
    | ok m =>
      obtain ⟨rtype, rdata⟩ := m
      rw [parsed] at sends
      rw [bind_ok sends]
      by_cases isData : rtype = bslRepReadFlash
      · have data : flashData body = some rdata := by
          rw [flashData, parsed]
          exact if_pos isData
        rw [data]
        refine ⟨data, ?_⟩
        rw [if_neg (not_not.mpr isData)]
      · have other : flashData body = none := by
          rw [flashData, parsed]
          exact if_neg isData
        simp only [other, ne_eq, isData, not_false_eq_true, if_true]
        exact ⟨_, _, [_, _], rfl, rfl, .inr ⟨body, other, rfl⟩⟩

theorem readLoop_of_le (addr : ℕ) {total off : ℕ} (chunk : ℕ+) (done : total ≤ off) (out : Bytes)
    (s : Port σ) : readLoop addr total chunk off out s = .ok out s := by
  rw [readLoop, if_neg (Nat.not_lt.mpr done)]
  rfl

section Runs

variable {addr total : ℕ} (haddr : addr < 2 ^ 32) (htotal : total < 2 ^ 32) (chunk : ℕ+)

include haddr htotal

theorem readLoop_log (off : ℕ) (out : Bytes) (s : Port σ) :
    ∃ acts, (final (readLoop addr total chunk off out s)).log = s.log ++ acts ∧
      (off < total → acts ≠ []) := by
  fun_induction windows total chunk off generalizing out s with
  | case1 off more ih =>
    have round := readLoop_round haddr htotal chunk more out s
    simp only at round
    split at round
    · obtain ⟨-, run⟩ := round
      obtain ⟨acts, log, -⟩ := ih (out ++ _) _
      rw [run]
      exact ⟨_ :: _ :: acts, log.trans (List.append_assoc _ _ _), fun _ => List.cons_ne_nil _ _⟩
    · obtain ⟨e, t, acts, run, log, short⟩ := round
      rw [run]
      refine ⟨acts, log, fun _ => ?_⟩
      rcases short with rfl | ⟨body, -, rfl⟩
      · exact List.cons_ne_nil _ _
      · exact List.cons_ne_nil _ _
  | case2 off done =>
    rw [readLoop_of_le addr chunk (Nat.not_lt.mp done)]
    exact ⟨[], (List.append_nil _).symm, fun more => absurd more done⟩

/-- By induction on the windows: what the loop goes on behind. -/
theorem readLoop_heeds (off : ℕ) (out : Bytes) (s : Port σ) {acts : List Act}
    (log : (final (readLoop addr total chunk off out s)).log = s.log ++ acts) :
    Stops acts ∧ ((∃ result t, readLoop addr total chunk off out s = .ok result t) → Fits acts) ↔
      ∀ r ∈ answers s.checksum addr (windows total chunk off) s.device s.pending,
        r.2.length = r.1.size := by
  fun_induction windows total chunk off generalizing out s acts with
  | case1 off more ih =>
    have round := readLoop_round haddr htotal chunk more out s
    have size : min (chunk : ℕ) (total - off) < 2 ^ 32 := by omega
    simp only at round
    rw [answers]
    split at round
    · rename_i body rdata device unread met
      obtain ⟨data, run⟩ := round
      obtain ⟨later, log', goesOn⟩ := readLoop_log haddr htotal chunk
        (off + min (chunk : ℕ) (total - off)) (out ++ rdata) ⟨device, unread, s.log ++
          [.wrote (request s.checksum addr ⟨min (chunk : ℕ) (total - off), off⟩), .reply body],
          s.checksum⟩
      have rest := ih (out ++ rdata) _ log'
      have asked := askedSize_request (w := ⟨min (chunk : ℕ) (total - off), off⟩) haddr
        size s.checksum
      rw [run, log', List.append_assoc, List.append_cancel_left_eq] at log
      subst log
      rw [run, List.forall_mem_cons, ← rest]
      simp only [List.cons_append, List.nil_append, Stops, Fits, data, Option.some.injEq, asked,
        forall_eq']
      by_cases fits : rdata.length = min (chunk : ℕ) (total - off)
      · simp only [fits, ne_eq, not_true_eq_false, false_implies, true_and]
      · have other : ¬ min (chunk : ℕ) (total - off) = rdata.length := fun h => fits h.symm
        have differs : some (min (chunk : ℕ) (total - off)) ≠ some rdata.length :=
          fun h => other (Option.some.inj h)
        simp only [fits, false_and, iff_false]
        rintro ⟨⟨last, -⟩, returned⟩
        -- nothing follows, so it was the last window and the run returned
        have done : total ≤ off + min (chunk : ℕ) (total - off) :=
          Nat.not_lt.mp fun next => goesOn next (last differs)
        exact other (returned ⟨_, _, readLoop_of_le addr chunk done _ _⟩).1
    · rename_i met
      obtain ⟨e, t, acts', run, log', short⟩ := round
      rw [run] at log ⊢
      have same : acts' = acts := List.append_cancel_left (log'.symm.trans log)
      subst same
      have failed : ¬ ∃ (result : Bytes) (u : Port σ), EStateM.Result.error e t = .ok result u := by
        simp
      simp only [failed, false_implies, and_true, List.not_mem_nil, implies_true, iff_true]
      rcases short with rfl | ⟨body, other, rfl⟩
      · trivial
      · simp [Stops, other]
  | case2 off done =>
    rw [readLoop_of_le addr chunk (Nat.not_lt.mp done)] at log
    have same : acts = [] := List.append_cancel_left (log.symm.trans (List.append_nil _).symm)
    subst same
    simp [Stops, Fits, answers]

/-- By induction on the windows: where every reply fits, what has been collected is as
long as the offset, and every window finds its reply in the result. -/
theorem readLoop_answered (off : ℕ) (inside : off ≤ total) (out : Bytes) (held : out.length = off)
    (s t : Port σ) {result : Bytes} {acts : List Act}
    (run : readLoop addr total chunk off out s = .ok result t) (log : t.log = s.log ++ acts)
    (fits : ∀ r ∈ answers s.checksum addr (windows total chunk off) s.device s.pending,
      r.2.length = r.1.size) :
    out <+: result ∧ result.length = total ∧ Answered s.checksum addr total result off acts := by
  fun_induction windows total chunk off generalizing out s acts with
  | case1 off more ih =>
    have positive : 0 < min (chunk : ℕ) (total - off) := by
      have := chunk.pos
      omega
    have round := readLoop_round haddr htotal chunk more out s
    simp only at round
    rw [answers] at fits
    split at round
    · rename_i body rdata device unread met
      obtain ⟨data, next⟩ := round
      obtain ⟨later, log', -⟩ := readLoop_log haddr htotal chunk
        (off + min (chunk : ℕ) (total - off)) (out ++ rdata) ⟨device, unread, s.log ++
          [.wrote (request s.checksum addr ⟨min (chunk : ℕ) (total - off), off⟩), .reply body],
          s.checksum⟩
      rw [next] at run
      rw [run] at log'
      rw [met, List.forall_mem_cons] at fits
      have width : rdata.length = min (chunk : ℕ) (total - off) := fits.1
      have rest := ih (by omega) (out ++ rdata) (by rw [List.length_append, held, width]) _ run log'
        fits.2
      obtain ⟨⟨tail, whole⟩, length, answered⟩ := rest
      have acts_eq : acts = .wrote (request s.checksum addr
          ⟨min (chunk : ℕ) (total - off), off⟩) :: .reply body :: later := by
        have logs := log.symm.trans log'
        rwa [List.append_assoc, List.append_cancel_left_eq] at logs
      have slice : Window.slice ⟨min (chunk : ℕ) (total - off), off⟩ result = rdata := by
        rw [Window.slice, ← whole, List.append_assoc, List.drop_left' held, List.take_left' width]
      subst acts_eq
      refine ⟨?_, length, ?_⟩
      · rw [← whole, List.append_assoc]
        exact List.prefix_append _ _
      · exact ⟨_, positive, by omega, rfl, slice.symm ▸ data, answered⟩
    · obtain ⟨e, u, acts', failed, -⟩ := round
      rw [failed] at run
      cases run
  | case2 off done =>
    have whole : off = total := Nat.le_antisymm inside (Nat.not_lt.mp done)
    rw [readLoop_of_le addr chunk (Nat.not_lt.mp done)] at run
    cases run
    have same : acts = [] := List.append_cancel_left (log.symm.trans (List.append_nil _).symm)
    subst same
    exact ⟨List.prefix_rfl, held.trans whole, whole⟩

omit [Device σ] in
theorem Answered.fits {mode : Checksum} {out : Bytes} (whole : out.length = total) {off : ℕ}
    {acts : List Act} (answered : Answered mode addr total out off acts) : Fits acts := by
  fun_induction Answered mode addr total out off acts with
  | case1 => trivial
  | case2 off written body rest ih =>
    obtain ⟨size, -, inside, rfl, data, later⟩ := answered
    refine ⟨fun rdata found => ?_, ih size later⟩
    rw [data, Option.some.injEq] at found
    rw [askedSize_request haddr (by simpa using (show size < 2 ^ 32 by omega)), ← found,
      Window.slice, List.length_take, List.length_drop, whole]
    congr 1
    simp only
    omega
  | case3 => exact answered.elim

/-- What is asked for comes back exactly from the devices whose READ_FLASH replies have
the sizes asked for. -/
theorem readFlash_readsBack_iff (s : Port σ) : ReadsBack addr total chunk s ↔
    ∀ r ∈ answers s.checksum addr (windows total chunk 0) s.device s.pending,
      r.2.length = r.1.size := by
  obtain ⟨acts, log, -⟩ := readLoop_log haddr htotal chunk 0 [] s
  have heeds := readLoop_heeds haddr htotal chunk 0 [] s log
  constructor
  · rintro ⟨acts', log', stops, answered⟩
    have same : acts' = acts := List.append_cancel_left (log'.symm.trans log)
    subst same
    refine heeds.mp ⟨stops, ?_⟩
    rintro ⟨result, t, run⟩
    obtain ⟨whole, answered⟩ := answered result t run
    exact answered.fits haddr htotal whole
  · intro fits
    refine ⟨acts, log, (heeds.mpr fits).1, fun out t run => ?_⟩
    have run' : readLoop addr total chunk 0 [] s = .ok out t := run
    rw [run'] at log
    exact (readLoop_answered haddr htotal chunk 0 (Nat.zero_le _) [] rfl s t run' log fits).2

end Runs

def giving : Port Tape :=
  Port.fresh ⟨[[0x7E, 0x00, 0x93, 0x00, 0x01, 0x41, 0x00, 0x00, 0x7E].map .byte,
    [0x7E, 0x00, 0x93, 0x00, 0x01, 0x42, 0x00, 0x00, 0x7E].map .byte]⟩

theorem giving_readsBack : ReadsBack 0xFE000003 2 1 giving := by
  refine (readFlash_readsBack_iff (by decide) (by decide) 1 giving).mpr ?_
  have two : windows 2 1 0 = [⟨1, 0⟩, ⟨1, 1⟩] := by
    simp [windows]
  rw [two]
  decide +kernel

def shortening : Port Tape :=
  Port.fresh ⟨[[0x7E, 0x00, 0x93, 0x00, 0x01, 0x41, 0x00, 0x00, 0x7E].map .byte]⟩

theorem shortening_not_readsBack : ¬ ReadsBack 0xFE000003 2 nvReadChunk shortening := by
  rintro ⟨acts, -, -, answered⟩
  have round := readLoop_round (show 0xFE000003 < 2 ^ 32 by decide) (show 2 < 2 ^ 32 by decide)
    nvReadChunk (show 0 < 2 by decide) [] shortening
  have met : answer shortening.checksum 0xFE000003 ⟨min (nvReadChunk : ℕ) (2 - 0), 0⟩
      shortening.device shortening.pending =
      some ([0x00, 0x93, 0x00, 0x01, 0x41, 0x00, 0x00], [0x41], ⟨[]⟩, []) := by
    decide +kernel
  simp only [met] at round
  have last := readLoop_of_le (σ := Tape) 0xFE000003 nvReadChunk
    (show 2 ≤ 0 + min (nvReadChunk : ℕ) (2 - 0) by decide) ([] ++ [0x41])
  exact absurd (answered [0x41] _ (round.2.trans (last _))).1 (by decide)

end SprdFlash.ReadFlash
