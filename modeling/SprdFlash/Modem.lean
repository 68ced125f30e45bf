import SprdFlash.Delivery
import SprdFlash.PdlFraming
import SprdFlash.Transfers
import SprdFlash.Library.Overlay

/-!
The modem at the other end of the line, as the source describes it: a download agent
that speaks PDL until EXEC hands over to the first loader, and BSL from then on. It is
strict. A transfer is opened once, filled in order up to its declared size and closed
when it is full, an NV image must match its sum and its CRC slot, and nothing else is
taken while one is open; what it does not take it answers with a code and remembers.
-/

namespace SprdFlash.Modem

open Message Port Struct Exchange WireLog Overlay

def bslRepInvalidCmd : ℕ := 0x82
def bslRepUnknownCmd : ℕ := 0x83
def bslRepOperationFailed : ℕ := 0x84
def bslRepDownNotStart : ℕ := 0x86
def bslRepDownMultiStart : ℕ := 0x87
def bslRepDownEarlyEnd : ℕ := 0x88
def bslRepDownSizeError : ℕ := 0x8A
def bslRepVerifyError : ℕ := 0x8B

inductive Loader
  | rom
  | fdl1
  | fdl2
  deriving DecidableEq, Repr

def Loader.next : Loader → Loader
  | .rom => .fdl1
  | _ => .fdl2

structure Job where
  address : ℕ
  declared : ℕ
  /-- The third word of the START_DATA of an NV image. -/
  sum : Option ℕ
  taken : Bytes
  deriving DecidableEq, Repr

structure Core where
  loader : Loader
  job : Option Job
  memory : ℕ → Option UInt8
  erased : List (ℕ × Bytes)
  refused : List ℕ
  rebooted : Bool

def Core.blank : Core := ⟨.rom, none, fun _ => none, [], [], false⟩

inductive Order
  | connect
  | start (address declared : ℕ) (sum : Option ℕ)
  /-- PDL numbers its blocks and repeats their length. -/
  | midst (block : Option (ℕ × ℕ)) (bytes : Bytes)
  | finish
  | exec
  | erase (address : ℕ) (param : Bytes)
  | reset
  | unknown
  deriving DecidableEq, Repr

def orderOf : Sent → Order
  | .bsl cmd data =>
    let word := fun i => unpack .big ((data.drop i).take 4)
    if cmd = bslCmdConnect then .connect
    else if cmd = bslCmdStartData then
      if data.length = 8 then .start (word 0) (word 4) none
      else if data.length = 12 then .start (word 0) (word 4) (some (word 8))
      else .unknown
    else if cmd = bslCmdMidstData then .midst none data
    else if cmd = bslCmdEndData then .finish
    else if cmd = bslCmdExecData then .exec
    else if cmd = bslCmdEraseFlash then .erase (word 0) (data.drop 4)
    else if cmd = bslCmdNormalReset then .reset
    else .unknown
  | .pdl code arg1 arg2 extra =>
    if code = Pdl.Command.connect.code then .connect
    else if code = Pdl.Command.startData.code then .start arg1 arg2 none
    else if code = Pdl.Command.midstData.code then .midst (some (arg1, arg2)) extra
    else if code = Pdl.Command.endData.code then .finish
    else if code = Pdl.Command.exec.code then .exec
    else .unknown

namespace Job

/-- The next piece goes where the last one ended and does not run over. -/
def Fits (job : Job) (block : Option (ℕ × ℕ)) (bytes : Bytes) : Prop :=
  job.taken.length + bytes.length ≤ job.declared ∧
    ∀ numbered ∈ block, numbered = (job.taken.length / Pdl.pdlChunk, bytes.length) ∧
      Pdl.pdlChunk ∣ job.taken.length

instance (job : Job) (block : Option (ℕ × ℕ)) (bytes : Bytes) :
    Decidable (job.Fits block bytes) := inferInstanceAs (Decidable (_ ∧ _))

def verdict (job : Job) : ℕ :=
  match job.sum with
  | none => bslRepAck
  | some sum =>
    if sum ≠ Native.sum32 job.taken then bslRepVerifyError
    else if unpack .big (job.taken.take 2) ≠ Native.nvCrc16 (job.taken.drop 2) then
      bslRepOperationFailed
    else bslRepAck

theorem verdict_lt (job : Job) : job.verdict < 65536 := by
  rw [verdict]
  split
  · decide
  · split_ifs <;> decide

end Job

namespace Core

def refuse (core : Core) (code : ℕ) : Core × ℕ :=
  ({ core with refused := core.refused ++ [code] }, code)

/-- What is taken only between two transfers. -/
def between (core : Core) (after : Core) : Core × ℕ :=
  match core.job with
  | some _ => core.refuse bslRepInvalidCmd
  | none => (after, bslRepAck)

def obey (core : Core) : Order → Core × ℕ
  | .connect => core.between core
  | .start address declared sum => match core.job with
    | some _ => core.refuse bslRepDownMultiStart
    | none => ({ core with job := some ⟨address, declared, sum, []⟩ }, bslRepAck)
  | .midst block bytes => match core.job with
    | none => core.refuse bslRepDownNotStart
    | some job =>
      if job.Fits block bytes then
        ({ core with
            job := some { job with taken := job.taken ++ bytes }
            memory := put core.memory ⟨job.address + job.taken.length, bytes⟩ }, bslRepAck)
      else core.refuse bslRepDownSizeError
  | .finish => match core.job with
    | none => core.refuse bslRepDownNotStart
    | some job =>
      if job.taken.length < job.declared then core.refuse bslRepDownEarlyEnd
      else if job.verdict = bslRepAck then ({ core with job := none }, bslRepAck)
      else { core with job := none }.refuse job.verdict
  | .exec => core.between { core with loader := core.loader.next }
  | .erase address param => core.between { core with erased := core.erased ++ [(address, param)] }
  | .reset => core.between { core with rebooted := true }
  | .unknown => core.refuse bslRepUnknownCmd

def hear (core : Core) (sent : Sent) : Core × ℕ := core.obey (orderOf sent)

def hears (core : Core) (sents : List Sent) : Core :=
  sents.foldl (fun core sent => (core.hear sent).1) core

/-- A run of commands of which none was refused. -/
def Content (core : Core) (sents : List Sent) : Prop := (core.hears sents).refused = core.refused

@[simp] theorem hears_nil (core : Core) : core.hears [] = core := rfl

theorem hears_cons (core : Core) (sent : Sent) (sents : List Sent) :
    core.hears (sent :: sents) = (core.hear sent).1.hears sents := rfl

theorem hears_append (core : Core) (xs ys : List Sent) :
    core.hears (xs ++ ys) = (core.hears xs).hears ys := List.foldl_append

theorem between_cases (core after : Core) :
    core.job = none ∧ core.between after = (after, bslRepAck) ∨
      core.between after = core.refuse bslRepInvalidCmd := by
  rw [between]
  cases core.job with
  | none => exact .inl ⟨rfl, rfl⟩
  | some job => exact .inr rfl

inductive Taken (core : Core) : Order → Core → Prop
  | connect (idle : core.job = none) : Taken core .connect core
  | start {address declared : ℕ} {sum : Option ℕ} (idle : core.job = none) :
      Taken core (.start address declared sum)
        { core with job := some ⟨address, declared, sum, []⟩ }
  | midst {job : Job} {block : Option (ℕ × ℕ)} {bytes : Bytes} (opened : core.job = some job)
      (fits : job.Fits block bytes) :
      Taken core (.midst block bytes) { core with
        job := some { job with taken := job.taken ++ bytes }
        memory := put core.memory ⟨job.address + job.taken.length, bytes⟩ }
  | finish {job : Job} (opened : core.job = some job) (all : job.declared ≤ job.taken.length)
      (good : job.verdict = bslRepAck) : Taken core .finish { core with job := none }
  | exec (idle : core.job = none) : Taken core .exec { core with loader := core.loader.next }
  | erase {address : ℕ} {param : Bytes} (idle : core.job = none) :
      Taken core (.erase address param) { core with erased := core.erased ++ [(address, param)] }
  | reset (idle : core.job = none) : Taken core .reset { core with rebooted := true }

theorem Taken.refused {core after : Core} {order : Order} (taken : Taken core order after) :
    after.refused = core.refused := by
  cases taken <;> rfl

/-- A command is taken and acknowledged, or its code is added to the refusals. -/
inductive Outcome (core : Core) (order : Order) : Core × ℕ → Prop
  | taken {after : Core} (taken : Taken core order after) : Outcome core order (after, bslRepAck)
  | refused {before : Core} {code : ℕ} (same : before.refused = core.refused)
      (bad : code ≠ bslRepAck) (small : code < 65536) : Outcome core order (before.refuse code)

theorem between_outcome {core after : Core} {order : Order}
    (taken : core.job = none → Taken core order after) :
    Outcome core order (core.between after) := by
  rcases core.between_cases after with ⟨idle, done⟩ | done
  · rw [done]
    exact .taken (taken idle)
  · rw [done]
    exact .refused rfl (by decide) (by decide)

theorem obey_outcome (core : Core) (order : Order) : Outcome core order (core.obey order) := by
  cases order with
  | connect => exact between_outcome .connect
  | start address declared sum =>
    rw [obey]
    cases idle : core.job with
    | none => exact .taken (.start idle)
    | some job => exact .refused rfl (by decide) (by decide)
  | midst block bytes =>
    rw [obey]
    cases opened : core.job with
    | none => exact .refused rfl (by decide) (by decide)
    | some job =>
      by_cases fits : job.Fits block bytes
      · simp only [if_pos fits]
        exact .taken (.midst opened fits)
      · simp only [if_neg fits]
        exact .refused rfl (by decide) (by decide)
  | finish =>
    rw [obey]
    cases opened : core.job with
    | none => exact .refused rfl (by decide) (by decide)
    | some job =>
      by_cases early : job.taken.length < job.declared
      · simp only [if_pos early]
        exact .refused rfl (by decide) (by decide)
      · by_cases good : job.verdict = bslRepAck
        · simp only [if_neg early, if_pos good]
          exact .taken (.finish opened (Nat.le_of_not_lt early) good)
        · simp only [if_neg early, if_neg good]
          exact .refused rfl good job.verdict_lt
  | exec => exact between_outcome .exec
  | erase address param => exact between_outcome .erase
  | reset => exact between_outcome .reset
  | unknown => exact .refused rfl (by decide) (by decide)

section Outcomes

variable {core : Core} {order : Order} {result : Core × ℕ}

theorem Outcome.cases (h : Outcome core order result) :
    result.2 = bslRepAck ∧ result.1.refused = core.refused ∨
      result.2 ≠ bslRepAck ∧ result.1.refused = core.refused ++ [result.2] := by
  cases h with
  | taken taken => exact .inl ⟨rfl, taken.refused⟩
  | refused same bad small => exact .inr ⟨bad, by rw [refuse, same]⟩

/-- A code fits in the type field of a message. -/
theorem Outcome.lt (h : Outcome core order result) : result.2 < 65536 := by
  cases h with
  | taken taken =>
    show bslRepAck < 65536
    decide
  | refused same bad small => exact small

theorem Outcome.of_ack (h : Outcome core order result) (ack : result.2 = bslRepAck) :
    Taken core order result.1 := by
  cases h with
  | taken taken => exact taken
  | refused same bad small => exact absurd ack bad

end Outcomes

theorem hear_refused (core : Core) (sent : Sent) : core.refused <+: (core.hear sent).1.refused := by
  rcases (core.obey_outcome (orderOf sent)).cases with ⟨-, same⟩ | ⟨-, more⟩
  · exact ⟨[], by rw [hear, same, List.append_nil]⟩
  · exact ⟨_, more.symm⟩

/-- Refusals are not forgotten. -/
theorem hears_refused (core : Core) (sents : List Sent) :
    core.refused <+: (core.hears sents).refused := by
  induction sents generalizing core with
  | nil => exact List.prefix_rfl
  | cons sent sents ih => exact (core.hear_refused sent).trans (ih _)

namespace Content

variable {core : Core} {sent : Sent} {sents xs ys : List Sent}

theorem cons_iff :
    core.Content (sent :: sents) ↔ (core.hear sent).2 = bslRepAck ∧
      (core.hear sent).1.Content sents := by
  have later := (core.hear sent).1.hears_refused sents
  rw [Content, Content, hears_cons]
  rcases (core.obey_outcome (orderOf sent)).cases with ⟨ack, same⟩ | ⟨nak, more⟩
  · rw [show (core.hear sent).2 = bslRepAck from ack, show (core.hear sent).1.refused =
      core.refused from same]
    simp
  · rw [show (core.hear sent).1.refused = core.refused ++ [(core.hear sent).2] from more] at later ⊢
    refine ⟨fun clean => ?_, fun clean => absurd clean.1 nak⟩
    rw [clean] at later
    have longer := later.length_le
    rw [List.length_append, List.length_singleton] at longer
    omega

theorem of_append (h : core.Content (xs ++ ys)) : core.Content xs := by
  have first := core.hears_refused xs
  have rest := (core.hears xs).hears_refused ys
  rw [← hears_append, show (core.hears (xs ++ ys)).refused = core.refused from h] at rest
  exact (rest.eq_of_length (le_antisymm rest.length_le first.length_le))

theorem append_iff : core.Content (xs ++ ys) ↔ core.Content xs ∧ (core.hears xs).Content ys := by
  refine ⟨fun h => ⟨h.of_append, ?_⟩, fun ⟨hx, hy⟩ => ?_⟩
  · rw [Content, ← hears_append, show (core.hears (xs ++ ys)).refused = core.refused from h]
    exact h.of_append.symm
  · rw [Content, hears_append]
    exact Eq.trans hy hx

theorem of_begun (h : core.Content ys) (part : xs <+: ys) : core.Content xs := by
  obtain ⟨more, rfl⟩ := part
  exact h.of_append

end Content

end Core

end SprdFlash.Modem
