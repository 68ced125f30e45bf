import SprdFlash.Message
import SprdFlash.Library.Script

/-!
The download port and the device behind it. A device is a state type with its
reactions to opening the port and to each write. What reaches the host is a
queue of events, in order of time: bytes, the port's own read timeout, and the
instants at which a running loop finds its retry time or its deadline passed.
The clock enters the source only through those comparisons, so it is recorded
by the events alone; an exhausted queue is silence until the deadline. The log
keeps what the host wrote, the replies it decoded and the versions it printed.
-/

namespace SprdFlash

open Message

inductive Event
  | byte (b : UInt8)
  | idle
  | late
  | expired
  | fault
  deriving DecidableEq, Repr

def Event.byte? : Event → Option UInt8
  | .byte b => some b
  | _ => none

/-- Reactions of a device: `attach` to one attempt to open its port (`none` if
the attempt raises), `discards` to `reset_input_buffer`, `onWrite` to one write
(`none` if the write raises). -/
class Device (σ : Type) where
  attach : σ → σ × Option (List Event)
  discards : σ → Bool
  onWrite : σ → Bytes → Option (σ × List Event)

/-- A device that plays back events, one list for each write. -/
structure Tape where
  script : List (List Event)
  deriving DecidableEq, Repr

instance : Device Tape where
  attach tape := (tape, some [])
  discards _ := true
  onWrite
    | ⟨[]⟩, _ => some (⟨[]⟩, [])
    | ⟨events :: rest⟩, _ => some (⟨rest⟩, events)

inductive Act
  | opened
  | wrote (bs : Bytes)
  | reply (body : Bytes)
  | response (payload : Bytes)
  | version (data : Bytes)
  | closed
  deriving DecidableEq, Repr

/-- An open port together with the `checksum` field of the `SpdIO` on it. -/
structure Port (σ : Type) where
  device : σ
  pending : List Event
  log : List Act
  checksum : Checksum

abbrev Session (σ : Type) := EStateM Exc (Port σ)

namespace Port

variable {σ : Type}

def fresh (device : σ) : Port σ := ⟨device, [], [], .sprd⟩

def note (act : Act) : Session σ Unit :=
  fun s => .ok () { s with log := s.log ++ [act] }

/-- `port.write` and the flush that always follows it. -/
def write [Device σ] (bs : Bytes) : Session σ Unit := fun s =>
  match Device.onWrite s.device bs with
  | some (device, events) =>
    .ok () { s with device, pending := s.pending ++ events, log := s.log ++ [.wrote bs] }
  | none => .error (.osError "write failed") { s with log := s.log ++ [.wrote bs] }

theorem write_of_some [Device σ] {bs : Bytes} {s : Port σ} {device : σ} {events : List Event}
    (reaction : Device.onWrite s.device bs = some (device, events)) :
    write bs s = .ok () ⟨device, s.pending ++ events, s.log ++ [.wrote bs], s.checksum⟩ := by
  rw [write, reaction]

theorem write_of_none [Device σ] {bs : Bytes} {s : Port σ}
    (reaction : Device.onWrite s.device bs = none) :
    write bs s = .error (.osError "write failed") { s with log := s.log ++ [.wrote bs] } := by
  rw [write, reaction]

def setChecksum (mode : Checksum) : Session σ Unit := fun s => .ok () { s with checksum := mode }

def raising {α : Type} (x : Except Exc α) : Session σ α := fun s =>
  match x with
  | .ok a => .ok a s
  | .error e => .error e s

/-- `port.close()` in a `finally` clause, its own exceptions swallowed. -/
def closing {α : Type} (body : Session σ α) : Session σ α := fun s =>
  match body s with
  | .ok a t => .ok a { t with log := t.log ++ [.closed] }
  | .error e t => .error e { t with log := t.log ++ [.closed] }

/-- One `port.read(n)`: it returns at `n` bytes or at the port's read timeout
with what it has, and leaves the clock's events to the loop around it. -/
def readUpTo : ℕ → List Event → Option Bytes × List Event
  | 0, events => (some [], events)
  | _ + 1, [] => (some [], [])
  | n + 1, .byte b :: rest => ((readUpTo n rest).1.map (b :: ·), (readUpTo n rest).2)
  | _ + 1, .idle :: rest => (some [], rest)
  | _ + 1, .late :: rest => (some [], .late :: rest)
  | _ + 1, .expired :: rest => (some [], .expired :: rest)
  | _ + 1, .fault :: rest => (none, rest)

theorem readUpTo_suffix (n : ℕ) (events : List Event) : (readUpTo n events).2 <:+ events := by
  fun_induction readUpTo n events with
  | case1 => exact List.suffix_rfl
  | case2 => exact List.suffix_rfl
  | case3 n b rest ih => exact ih.trans (List.suffix_cons _ _)
  | case4 => exact List.suffix_cons _ _
  | case5 => exact List.suffix_rfl
  | case6 => exact List.suffix_rfl
  | case7 => exact List.suffix_cons _ _

theorem readUpTo_length_le (n : ℕ) (events : List Event) :
    (readUpTo n events).2.length ≤ events.length := (readUpTo_suffix n events).length_le

theorem readUpTo_byte_length (n : ℕ) (b : UInt8) (rest : List Event) :
    (readUpTo (n + 1) (.byte b :: rest)).2.length < (Event.byte b :: rest).length := by
  have h := readUpTo_length_le n rest
  simp only [readUpTo, List.length_cons]
  omega

def Live (events : List Event) : Prop := ∀ ev ∈ events, ev ≠ .expired ∧ ev ≠ .fault

instance (events : List Event) : Decidable (Live events) :=
  inferInstanceAs (Decidable (∀ ev ∈ events, _))

def received (events : List Event) : Bytes := events.filterMap Event.byte?

@[simp] theorem received_nil : received [] = [] := rfl

@[simp] theorem received_append (xs ys : List Event) :
    received (xs ++ ys) = received xs ++ received ys := List.filterMap_append

@[simp] theorem received_byte (b : UInt8) (rest : List Event) :
    received (.byte b :: rest) = b :: received rest := rfl

@[simp] theorem received_idle (rest : List Event) :
    received (.idle :: rest) = received rest := rfl

theorem received_bytes (bs : Bytes) : received (bs.map Event.byte) = bs := by
  induction bs with
  | nil => rfl
  | cons b bs ih => rw [List.map_cons, received_byte, ih]

theorem readUpTo_received {n : ℕ} {events unread : List Event} {first : Bytes}
    (h : readUpTo n events = (some first, unread)) :
    received events = first ++ received unread := by
  fun_induction readUpTo n events generalizing first unread with
  | case1 events =>
    cases h
    rfl
  | case2 =>
    cases h
    rfl
  | case3 n b rest ih =>
    cases read : readUpTo n rest with
    | mk taken left =>
      rw [read] at h
      cases taken with
      | none => cases h
      | some taken =>
        cases h
        rw [received_byte, ih read, List.cons_append]
  | case4 =>
    cases h
    rfl
  | case5 =>
    cases h
    rfl
  | case6 =>
    cases h
    rfl
  | case7 => cases h

theorem Live.tail {ev : Event} {rest : List Event} (h : Live (ev :: rest)) : Live rest :=
  fun e he => h e (List.mem_cons_of_mem ev he)

theorem Live.cons {ev : Event} {events : List Event} (h : Live events)
    (now : ev ≠ .expired ∧ ev ≠ .fault) : Live (ev :: events) :=
  List.forall_mem_cons.mpr ⟨now, h⟩

theorem Live.suffix {xs ys : List Event} (h : Live ys) (part : xs <:+ ys) : Live xs :=
  fun ev hev => h ev (part.subset hev)

end Port
end SprdFlash
