import SprdFlash.UsbTransport

/-!
Finding, opening and closing the USB port. Opening discovers the data interface, takes it
from the kernel drivers, claims it and sends the vendor request that wakes the endpoints;
whatever libusb raises on the way becomes `UsbUnavailable`. What was done to the device is
kept in a log, so that a run of the program can be read off as claims and releases.
-/

namespace SprdFlash.UsbTransport

open Script

inductive Raised
  | notImplemented
  | unavailable (msg : String)
  | other (msg : String)
  deriving DecidableEq, Repr

/-- A device, apart from its bulk endpoints. -/
class UsbControl (δ : Type) where
  getActiveConfiguration : δ → Except Raised (List Interface) × δ
  isKernelDriverActive : δ → UInt8 → Except Raised Bool × δ
  detachKernelDriver : δ → UInt8 → Except Raised Unit × δ
  claimInterface : δ → UInt8 → Except Raised Unit × δ
  ctrlTransfer : δ → (requestType request value index : ℕ) → Except Raised Unit × δ
  releaseInterface : δ → UInt8 → Except Raised Unit × δ
  disposeResources : δ → Except Raised Unit × δ

inductive UsbAct
  | detach (intf : UInt8)
  | claim (intf : UInt8)
  | control (requestType request value index : ℕ)
  | release (intf : UInt8)
  | dispose
  deriving DecidableEq, Repr

def ctrlRequestType : ℕ := 0x21
def ctrlRequest : ℕ := 0x22
def ctrlValue : ℕ := 0x0601
def ctrlIndex : ℕ := 0x00

def UsbAct.kick : UsbAct := .control ctrlRequestType ctrlRequest ctrlValue ctrlIndex

/-- The part of the port that `open` and `close` work on. The log says what was done to the
device, and whether it raised. -/
structure Handle (δ : Type) where
  dev : δ
  interface : UInt8
  epOut : UInt8
  epIn : UInt8
  opened : Bool
  log : List (UsbAct × Bool)

abbrev Handling (δ : Type) := EStateM Raised (Handle δ)

namespace Handle

variable {δ : Type} [UsbControl δ]

def fresh (dev : δ) : Handle δ := ⟨dev, 1, 0x02, 0x81, false, []⟩

def getActiveConfiguration : Handling δ (List Interface) := fun h =>
  match UsbControl.getActiveConfiguration h.dev with
  | (.ok cfg, dev) => .ok cfg { h with dev }
  | (.error e, dev) => .error e { h with dev }

def act (done : UsbAct) (op : δ → Except Raised Unit × δ) : Handling δ Unit := fun h =>
  match op h.dev with
  | (.ok (), dev) => .ok () { h with dev, log := h.log ++ [(done, true)] }
  | (.error e, dev) => .error e { h with dev, log := h.log ++ [(done, false)] }

def attempt (x : Handling δ Unit) : Handling δ Unit := fun h => .ok () (final (x h))

/-- The endpoints are those discovered; a configuration that cannot be read leaves the
defaults. -/
def discover : Handling δ Unit := fun h =>
  match getActiveConfiguration h with
  | .error _ h => .ok () h
  | .ok cfg h =>
    match discoverDataInterface cfg with
    | .ok (interface, epOut, epIn) => .ok () { h with interface, epOut, epIn }
    | .error (.usbUnavailable msg) => .error (.unavailable msg) h
    | .error _ => .ok () h

def allInterfaceNumbers : Handling δ (List UInt8) := fun h =>
  match getActiveConfiguration h with
  | .ok cfg h => .ok (cfg.map Interface.bInterfaceNumber) h
  | .error _ h => .ok [0, h.interface] h

def detach (intf : UInt8) : Handling δ Unit := fun h =>
  match UsbControl.isKernelDriverActive h.dev intf with
  | (.error e, dev) => .error e { h with dev }
  | (.ok false, dev) => .ok () { h with dev }
  | (.ok true, dev) =>
    act (.detach intf) (UsbControl.detachKernelDriver · intf) { h with dev }

def detachAll : List UInt8 → Handling δ Unit
  | [] => pure ()
  | intf :: rest => do
    attempt (detach intf)
    detachAll rest

def wake : Handling δ Unit := do
  let h ← get
  act (.claim h.interface) (UsbControl.claimInterface · h.interface)
  act .kick fun dev => UsbControl.ctrlTransfer dev ctrlRequestType ctrlRequest ctrlValue ctrlIndex
  modify fun h => { h with opened := true }

/-- The body of `open`, before its exceptions are translated. -/
def tryOpen : Handling δ Unit := do
  discover
  detachAll (← allInterfaceNumbers)
  wake

def explain : Raised → String
  | .notImplemented =>
    "the BootROM port is not accessible via libusb - it is bound to the CDC/usbser driver. " ++
    "Replace that driver with WinUSB using Zadig (https://zadig.akeo.ie) for USB 0525:A4A7, " ++
    "then retry. Note: this disables the vendor tool / pacflash for this device until you " ++
    "restore the CDC driver."
  | .unavailable msg => s!"could not open the BootROM USB device: {msg}"
  | .other msg => s!"could not open the BootROM USB device: {msg}"

/-- `UsbPort.open`. -/
def openPort : EStateM Exc (Handle δ) Unit := fun h =>
  match tryOpen h with
  | .ok () h => .ok () h
  | .error e h => .error (.usbUnavailable (explain e)) h

def tryClose : Handling δ Unit := do
  let h ← get
  act (.release h.interface) (UsbControl.releaseInterface · h.interface)
  act .dispose UsbControl.disposeResources

/-- `UsbPort.close`. -/
def closePort (h : Handle δ) : Handle δ :=
  if h.opened then { final (attempt tryClose h) with opened := false } else h

end Handle

/-- The libraries behind the lookup: whether pyusb imports, the backend `libusb_package`
gives (it raises where it is not installed), and `usb.core.find`. -/
structure Libusb (κ δ : Type) where
  pyusb : Bool
  libusbPackage : Except Raised (Option κ)
  find : (vid pid : ℕ) → Option κ → Except Exc (Option δ)

variable {κ δ : Type}

def bootromIds : List (ℕ × ℕ) := [(0x1782, 0x4D00), (0x1782, 0x4D11), (0x0525, 0xA4A7)]

def getBackend (lib : Libusb κ δ) : Option κ :=
  match lib.libusbPackage with
  | .ok backend => backend
  | .error _ => none

def findAmong (lib : Libusb κ δ) : List (ℕ × ℕ) → Except Exc (Option δ)
  | [] => .ok none
  | (vid, pid) :: rest => do
    match ← lib.find vid pid (getBackend lib) with
    | some dev => return some dev
    | none => findAmong lib rest

def findBootrom (lib : Libusb κ δ) : Except Exc (Option δ) :=
  if lib.pyusb then findAmong lib bootromIds
  else .error (.usbUnavailable
    "pyusb is not installed - install with: pip install \"sprdflash[usb]\"")

def lookedFor : String :=
  ", ".intercalate (bootromIds.map fun id => hex 4 id.1 ++ ":" ++ hex 4 id.2)

def openUsbPort [UsbControl δ] (lib : Libusb κ δ) : Except Exc (Handle δ) :=
  match findBootrom lib with
  | .error e => .error e
  | .ok none => .error (.usbUnavailable
      (s!"no BootROM device found (looked for {lookedFor}). Put the module in " ++
        "download mode first (USB_BOOT strap + reset, or AT*DOWNLOAD=1)."))
  | .ok (some dev) =>
    match Handle.openPort (Handle.fresh dev) with
    | .ok () port => .ok port
    | .error e _ => .error e

section Life

def Handle.ends (h : Handle δ) : UInt8 × UInt8 × UInt8 := (h.interface, h.epOut, h.epIn)

def Handle.state (h : Handle δ) : (UInt8 × UInt8 × UInt8) × Bool := (h.ends, h.opened)

/-- The ends that an opening settles on: those discovered in the configuration of the
device, and the ones it had if the configuration cannot be read. -/
def Settles [UsbControl δ] (dev : δ) (before after : UInt8 × UInt8 × UInt8) : Prop :=
  match (UsbControl.getActiveConfiguration dev).1 with
  | .ok cfg => discoverDataInterface cfg = .ok after
  | .error _ => after = before

def IsDetach (done : UsbAct × Bool) : Prop := ∃ intf, done.1 = .detach intf

/-- What one opening does to a device, by whether it returns and the interface it is for. -/
inductive Opening (intf : UInt8) : Bool → List (UsbAct × Bool) → Prop
  | undiscovered : Opening intf false []
  | busy {detached} : (∀ d ∈ detached, IsDetach d) →
      Opening intf false (detached ++ [(.claim intf, false)])
  | deaf {detached} : (∀ d ∈ detached, IsDetach d) →
      Opening intf false (detached ++ [(.claim intf, true), (.kick, false)])
  | awake {detached} : (∀ d ∈ detached, IsDetach d) →
      Opening intf true (detached ++ [(.claim intf, true), (.kick, true)])

inductive Closing (intf : UInt8) : List (UsbAct × Bool) → Prop
  | kept : Closing intf [(.release intf, false)]
  | released (disposed : Bool) : Closing intf [(.release intf, true), (.dispose, disposed)]

/-- What one use of the port does to a device. -/
inductive Session : List (UsbAct × Bool) → Prop
  | refused {intf opening} : Opening intf false opening → Session opening
  | used {intf opening closing} : Opening intf true opening → Closing intf closing →
      Session (opening ++ closing)

def claimed : UsbAct × Bool → Bool
  | (.claim _, true) => true
  | _ => false

def released : UsbAct × Bool → Bool
  | (.release _, true) => true
  | _ => false

def stuck : UsbAct × Bool → Bool
  | (.release _, false) => true
  | _ => false

def unanswered : UsbAct × Bool → Bool
  | (.control _ _ _ _, false) => true
  | _ => false

/-- Every claim of a log is answered for: by a release, by one that raised, or by a vendor
request that raised, behind which the interface is not released. -/
def Balanced (log : List (UsbAct × Bool)) : Prop :=
  log.countP claimed = log.countP released + log.countP stuck + log.countP unanswered

namespace Handle

theorem act_cases (done : UsbAct) (op : δ → Except Raised Unit × δ) (h : Handle δ) :
    ∃ h', h'.state = h.state ∧
      ((act done op h = .ok () h' ∧ h'.log = h.log ++ [(done, true)]) ∨
        ∃ e, act done op h = .error e h' ∧ h'.log = h.log ++ [(done, false)]) := by
  rw [act]
  cases op h.dev with
  | mk result dev =>
    cases result with
    | ok u => exact ⟨{ h with dev, log := h.log ++ [(done, true)] }, rfl, .inl ⟨rfl, rfl⟩⟩
    | error e => exact ⟨{ h with dev, log := h.log ++ [(done, false)] }, rfl, .inr ⟨e, rfl, rfl⟩⟩

theorem attempt_ok {x : Handling δ Unit} {h t : Handle δ} (run : x h = .ok () t) :
    attempt x h = .ok () t := by
  rw [attempt, run]
  rfl

theorem attempt_error {x : Handling δ Unit} {h t : Handle δ} {e : Raised}
    (run : x h = .error e t) : attempt x h = .ok () t := by
  rw [attempt, run]
  rfl

variable [UsbControl δ]

theorem discover_cases (h : Handle δ) : ∃ h', h'.log = h.log ∧ h'.opened = h.opened ∧
    ((discover h = .ok () h' ∧ Settles h.dev h.ends h'.ends) ∨
      ∃ msg, discover h = .error (.unavailable msg) h') := by
  cases read : UsbControl.getActiveConfiguration h.dev with
  | mk answer dev =>
    cases answer with
    | error e =>
      refine ⟨{ h with dev }, rfl, rfl, .inl ⟨?_, ?_⟩⟩
      · rw [discover, getActiveConfiguration, read]
      · rw [Settles, read]
        rfl
    | ok cfg =>
      cases found : discoverDataInterface cfg with
      | ok ends =>
        refine ⟨⟨dev, ends.1, ends.2.1, ends.2.2, h.opened, h.log⟩, rfl, rfl, .inl ⟨?_, ?_⟩⟩
        · rw [discover, getActiveConfiguration, read]
          simp only [found]
        · rw [Settles, read]
          exact found
      | error e =>
        obtain ⟨msg, rfl⟩ := discoverFrom_error found
        refine ⟨{ h with dev }, rfl, rfl, .inr ⟨msg, ?_⟩⟩
        rw [discover, getActiveConfiguration, read]
        simp only [found]

theorem allInterfaceNumbers_cases (h : Handle δ) : ∃ intfs h',
    allInterfaceNumbers h = .ok intfs h' ∧ h'.log = h.log ∧ h'.state = h.state := by
  rw [allInterfaceNumbers]
  cases read : getActiveConfiguration h with
  | error e t =>
    rw [getActiveConfiguration] at read
    split at read <;> cases read
    exact ⟨_, _, rfl, rfl, rfl⟩
  | ok cfg t =>
    rw [getActiveConfiguration] at read
    split at read <;> cases read
    exact ⟨_, _, rfl, rfl, rfl⟩

theorem detach_cases (intf : UInt8) (h : Handle δ) :
    ∃ h' done, attempt (detach intf) h = .ok () h' ∧ h'.log = h.log ++ done ∧
      h'.state = h.state ∧ ∀ d ∈ done, IsDetach d := by
  cases asked : UsbControl.isKernelDriverActive h.dev intf with
  | mk active dev =>
    cases active with
    | error e =>
      have ran : detach intf h = .error e { h with dev } := by rw [detach, asked]
      exact ⟨_, [], attempt_error ran, (List.append_nil _).symm, rfl, by simp⟩
    | ok active =>
      cases active with
      | false =>
        have ran : detach intf h = .ok () { h with dev } := by rw [detach, asked]
        exact ⟨_, [], attempt_ok ran, (List.append_nil _).symm, rfl, by simp⟩
      | true =>
        have ran : detach intf h =
            act (.detach intf) (UsbControl.detachKernelDriver · intf) { h with dev } := by
          rw [detach, asked]
        obtain ⟨h', same, ⟨run, log⟩ | ⟨e, run, log⟩⟩ := act_cases (.detach intf)
          (UsbControl.detachKernelDriver · intf) { h with dev }
        · exact ⟨h', _, attempt_ok (ran.trans run), log, same, by simp [IsDetach]⟩
        · exact ⟨h', _, attempt_error (ran.trans run), log, same, by simp [IsDetach]⟩

theorem detachAll_cases (intfs : List UInt8) (h : Handle δ) :
    ∃ h' done, detachAll intfs h = .ok () h' ∧ h'.log = h.log ++ done ∧ h'.state = h.state ∧
      ∀ d ∈ done, IsDetach d := by
  induction intfs generalizing h with
  | nil => exact ⟨h, [], rfl, (List.append_nil _).symm, rfl, by simp⟩
  | cons intf rest ih =>
    obtain ⟨t, first, run, log, same, firsts⟩ := detach_cases intf h
    obtain ⟨u, others, runs, logs, sames, later⟩ := ih t
    refine ⟨u, first ++ others, (bind_ok run).trans runs, ?_, sames.trans same, ?_⟩
    · rw [logs, log, List.append_assoc]
    · exact List.forall_mem_append.mpr ⟨firsts, later⟩

theorem wake_cases (h : Handle δ) : ∃ h' done, h'.log = h.log ++ done ∧ h'.ends = h.ends ∧
    ((wake h = .ok () h' ∧ h'.opened = true ∧
        done = [(.claim h.interface, true), (.kick, true)]) ∨
      ∃ e, wake h = .error e h' ∧ h'.opened = h.opened ∧
        (done = [(.claim h.interface, false)] ∨
          done = [(.claim h.interface, true), (.kick, false)])) := by
  have start : wake h = (act (.claim h.interface) (UsbControl.claimInterface · h.interface) >>=
      fun _ => act .kick (fun dev =>
        UsbControl.ctrlTransfer dev ctrlRequestType ctrlRequest ctrlValue ctrlIndex) >>=
      fun _ => modify fun h => { h with opened := true }) h := rfl
  obtain ⟨t, kept, ⟨claimed, log⟩ | ⟨e, busy, log⟩⟩ :=
    act_cases (.claim h.interface) (UsbControl.claimInterface · h.interface) h
  · obtain ⟨u, kept', ⟨kicked, log'⟩ | ⟨e, deaf, log'⟩⟩ := act_cases .kick (fun dev =>
      UsbControl.ctrlTransfer dev ctrlRequestType ctrlRequest ctrlValue ctrlIndex) t
    all_goals
      have same := kept'.trans kept
      have grown := log'
      rw [log, List.append_assoc] at grown
    · refine ⟨{ u with opened := true }, _, grown, congrArg Prod.fst same, .inl ⟨?_, rfl, rfl⟩⟩
      rw [start, bind_ok claimed, bind_ok kicked]
      rfl
    · refine ⟨u, _, grown, congrArg Prod.fst same, .inr ⟨e, ?_, congrArg Prod.snd same, .inr rfl⟩⟩
      rw [start, bind_ok claimed, bind_error deaf]
  · refine ⟨t, _, log, congrArg Prod.fst kept, .inr ⟨e, ?_, congrArg Prod.snd kept, .inl rfl⟩⟩
    rw [start, bind_error busy]

theorem tryOpen_cases (h : Handle δ) : ∃ h' done, h'.log = h.log ++ done ∧
    ((tryOpen h = .ok () h' ∧ h'.opened = true ∧ Settles h.dev h.ends h'.ends ∧
        Opening h'.interface true done) ∨
      ∃ e, tryOpen h = .error e h' ∧ h'.opened = h.opened ∧ Opening h'.interface false done) := by
  obtain ⟨t, log, opened, ⟨found, settles⟩ | ⟨msg, refused⟩⟩ := discover_cases h
  · obtain ⟨intfs, u, listed, log', same⟩ := allInterfaceNumbers_cases t
    obtain ⟨v, detached, taken, log'', same', only⟩ := detachAll_cases intfs u
    have start : tryOpen h = wake v := by
      rw [tryOpen, bind_ok found, bind_ok listed, bind_ok taken]
    have chosen : v.ends = t.ends := congrArg Prod.fst (same'.trans same)
    have still : v.opened = h.opened := (congrArg Prod.snd (same'.trans same)).trans opened
    obtain ⟨w, done, grown, ends, ended⟩ := wake_cases v
    have here : w.interface = v.interface := congrArg Prod.fst ends
    refine ⟨w, detached ++ done, ?_, ?_⟩
    · rw [grown, log'', log', log, List.append_assoc]
    · rw [start, here, ends, chosen]
      rcases ended with ⟨run, isOpen, rfl⟩ | ⟨e, run, kept, rfl | rfl⟩
      · exact .inl ⟨run, isOpen, settles, .awake only⟩
      · exact .inr ⟨e, run, kept.trans still, .busy only⟩
      · exact .inr ⟨e, run, kept.trans still, .deaf only⟩
  · refine ⟨t, [], ?_, .inr ⟨.unavailable msg, ?_, opened, .undiscovered⟩⟩
    · rw [log, List.append_nil]
    · rw [tryOpen, bind_error refused]

/-- Whatever libusb raises, an opening raises `UsbUnavailable` or returns. -/
theorem openPort_cases (h : Handle δ) : ∃ h' done, h'.log = h.log ++ done ∧
    ((openPort h = .ok () h' ∧ h'.opened = true ∧ Settles h.dev h.ends h'.ends ∧
        Opening h'.interface true done) ∨
      ∃ msg, openPort h = .error (.usbUnavailable msg) h' ∧ h'.opened = h.opened ∧
        Opening h'.interface false done) := by
  obtain ⟨t, done, log, ⟨run, awake⟩ | ⟨e, run, failed⟩⟩ := tryOpen_cases h
  · exact ⟨t, done, log, .inl ⟨by rw [openPort, run], awake⟩⟩
  · exact ⟨t, done, log, .inr ⟨explain e, by rw [openPort, run], failed⟩⟩

theorem closePort_closed {h : Handle δ} (closed : h.opened = false) : closePort h = h := by
  rw [closePort, closed]
  rfl

theorem closePort_opened {h : Handle δ} (isOpen : h.opened = true) :
    (closePort h).opened = false ∧ ∃ done, (closePort h).log = h.log ++ done ∧
      Closing h.interface done := by
  have eq : closePort h = { final (attempt tryClose h) with opened := false } := if_pos isOpen
  have start : tryClose h = (act (.release h.interface)
      (UsbControl.releaseInterface · h.interface) >>=
      fun _ => act .dispose UsbControl.disposeResources) h := rfl
  refine ⟨by rw [eq], ?_⟩
  obtain ⟨t, -, ⟨released, log⟩ | ⟨e, stuck, log⟩⟩ :=
    act_cases (.release h.interface) (UsbControl.releaseInterface · h.interface) h
  · rw [bind_ok released] at start
    obtain ⟨u, -, ⟨disposed, log'⟩ | ⟨e, left, log'⟩⟩ :=
      act_cases .dispose UsbControl.disposeResources t
    all_goals rw [log, List.append_assoc] at log'
    · rw [eq, attempt_ok (start.trans disposed)]
      exact ⟨_, log', .released true⟩
    · rw [eq, attempt_error (start.trans left)]
      exact ⟨_, log', .released false⟩
  · rw [bind_error stuck] at start
    rw [eq, attempt_error start]
    exact ⟨_, log, .kept⟩

theorem closePort_shut (h : Handle δ) : (closePort h).opened = false := by
  rw [closePort]
  split
  · rfl
  · simpa using ‹¬ h.opened = true›

/-- One use of the port: open it, and close it if that returned, so often. -/
def session (closes : ℕ) (h : Handle δ) : Handle δ := closePort^[closes + 1] (final (openPort h))

def sessions (uses : List ℕ) (h : Handle δ) : Handle δ := uses.foldl (fun h n => session n h) h

theorem closes_closed (n : ℕ) {h : Handle δ} (closed : h.opened = false) :
    closePort^[n] h = h := by
  induction n with
  | zero => rfl
  | succ n ih => rw [Function.iterate_succ_apply, closePort_closed closed, ih]

theorem session_log (closes : ℕ) {h : Handle δ} (closed : h.opened = false) :
    (session closes h).opened = false ∧
      ∃ done, (session closes h).log = h.log ++ done ∧ Session done := by
  obtain ⟨t, opening, log, ⟨run, isOpen, -, awake⟩ | ⟨msg, run, same, failed⟩⟩ := openPort_cases h
  · obtain ⟨shut, closing, log', kind⟩ := closePort_opened isOpen
    have ended : session closes h = closePort t := by
      rw [session, run, Function.iterate_succ_apply]
      exact closes_closed closes shut
    rw [ended]
    refine ⟨shut, opening ++ closing, ?_, .used awake kind⟩
    rw [log', log, List.append_assoc]
  · have ended : session closes h = t := by
      rw [session, run]
      exact closes_closed (closes + 1) (same.trans closed)
    rw [ended]
    exact ⟨same.trans closed, opening, log, .refused failed⟩

theorem sessions_log (uses : List ℕ) {h : Handle δ} (closed : h.opened = false) :
    (sessions uses h).opened = false ∧ ∃ logs : List (List (UsbAct × Bool)),
      logs.length = uses.length ∧ (∀ log ∈ logs, Session log) ∧
      (sessions uses h).log = h.log ++ logs.flatten := by
  induction uses generalizing h with
  | nil => exact ⟨closed, [], rfl, by simp, by simp [sessions]⟩
  | cons n uses ih =>
    obtain ⟨shut, done, log, kind⟩ := session_log n closed
    obtain ⟨ended, logs, count, kinds, whole⟩ := ih shut
    refine ⟨ended, done :: logs, congrArg (· + 1) count, List.forall_mem_cons.mpr ⟨kind, kinds⟩, ?_⟩
    rw [List.flatten_cons, ← List.append_assoc, ← log]
    exact whole

omit [UsbControl δ] in
theorem countP_detached {p : UsbAct × Bool → Bool}
    (other : ∀ intf ok, p (.detach intf, ok) = false) {detached : List (UsbAct × Bool)}
    (only : ∀ d ∈ detached, IsDetach d) : detached.countP p = 0 := by
  refine List.countP_eq_zero.mpr fun d mem => ?_
  obtain ⟨act, ok⟩ := d
  obtain ⟨intf, rfl⟩ : ∃ intf, act = .detach intf := only _ mem
  simp [other]

omit [UsbControl δ] in
theorem countP_behind {p : UsbAct × Bool → Bool} (other : ∀ intf ok, p (.detach intf, ok) = false)
    {detached : List (UsbAct × Bool)} (only : ∀ d ∈ detached, IsDetach d)
    (rest : List (UsbAct × Bool)) : (detached ++ rest).countP p = rest.countP p := by
  rw [List.countP_append, countP_detached other only, Nat.zero_add]

omit [UsbControl δ] in
theorem balanced_behind {detached rest : List (UsbAct × Bool)}
    (only : ∀ d ∈ detached, IsDetach d) (one : rest.countP claimed ≤ 1) (h : Balanced rest) :
    (detached ++ rest).countP claimed ≤ 1 ∧ Balanced (detached ++ rest) := by
  simp only [Balanced, countP_behind (p := claimed) (fun _ _ => rfl) only,
    countP_behind (p := released) (fun _ _ => rfl) only,
    countP_behind (p := stuck) (fun _ _ => rfl) only,
    countP_behind (p := unanswered) (fun _ _ => rfl) only]
  exact ⟨one, h⟩

omit [UsbControl δ] in
theorem session_balanced {log : List (UsbAct × Bool)} (h : Session log) :
    log.countP claimed ≤ 1 ∧ Balanced log := by
  cases h with
  | refused opening =>
    cases opening with
    | undiscovered => exact ⟨Nat.zero_le 1, rfl⟩
    | busy only => exact balanced_behind only (Nat.zero_le 1) rfl
    | deaf only => exact balanced_behind only (Nat.le_refl 1) rfl
  | used opening closing =>
    cases opening with
    | awake only =>
      rw [List.append_assoc]
      cases closing with
      | kept => exact balanced_behind only (Nat.le_refl 1) rfl
      | released disposed => exact balanced_behind only (Nat.le_refl 1) rfl

/-- However a device behaves over any uses of its port: no port stays open, and each use
leaves one of the traces of `Session`, with at most one claim, which is released unless the
release or the vendor request behind the claim raised. -/
theorem sessions_balanced (dev : δ) (uses : List ℕ) :
    (sessions uses (fresh dev)).opened = false ∧ ∃ logs : List (List (UsbAct × Bool)),
      (sessions uses (fresh dev)).log = logs.flatten ∧ logs.length = uses.length ∧
      ∀ log ∈ logs, Session log ∧ log.countP claimed ≤ 1 ∧ Balanced log := by
  obtain ⟨shut, logs, count, kinds, whole⟩ := sessions_log uses (h := fresh dev) rfl
  exact ⟨shut, logs, whole, count, fun log mem => ⟨kinds log mem, session_balanced (kinds log mem)⟩⟩

end Handle

/-- The lookup comes to this identity, no earlier one being there, and answers. -/
def Meets (lib : Libusb κ δ) (ids : List (ℕ × ℕ)) (answer : Except Exc (Option δ)) : Prop :=
  ∃ before id later, ids = before ++ id :: later ∧
    (∀ other ∈ before, lib.find other.1 other.2 (getBackend lib) = .ok none) ∧
    lib.find id.1 id.2 (getBackend lib) = answer

theorem Meets.cons {lib : Libusb κ δ} {ids : List (ℕ × ℕ)} {answer : Except Exc (Option δ)}
    (h : Meets lib ids answer) {id : ℕ × ℕ}
    (absent : lib.find id.1 id.2 (getBackend lib) = .ok none) : Meets lib (id :: ids) answer := by
  obtain ⟨before, found, later, rfl, absents, answers⟩ := h
  exact ⟨id :: before, found, later, rfl, List.forall_mem_cons.mpr ⟨absent, absents⟩, answers⟩

/-- The lookup goes through the identities in order and stops at the first device, or
where it raises. -/
theorem findAmong_cases (lib : Libusb κ δ) (ids : List (ℕ × ℕ)) :
    (findAmong lib ids = .ok none ∧
      ∀ id ∈ ids, lib.find id.1 id.2 (getBackend lib) = .ok none) ∨
    (∃ dev, findAmong lib ids = .ok (some dev) ∧ Meets lib ids (.ok (some dev))) ∨
    ∃ e, findAmong lib ids = .error e ∧ Meets lib ids (.error e) := by
  induction ids with
  | nil => exact .inl ⟨rfl, by simp⟩
  | cons id rest ih =>
    obtain ⟨vid, pid⟩ := id
    cases found : lib.find vid pid (getBackend lib) with
    | error e =>
      refine .inr (.inr ⟨e, ?_, [], (vid, pid), rest, rfl, by simp, found⟩)
      rw [findAmong, found]
      rfl
    | ok answer =>
      cases answer with
      | some dev =>
        refine .inr (.inl ⟨dev, ?_, [], (vid, pid), rest, rfl, by simp, found⟩)
        rw [findAmong, found]
        rfl
      | none =>
        have next : findAmong lib ((vid, pid) :: rest) = findAmong lib rest := by
          rw [findAmong, found]
          rfl
        rw [next]
        rcases ih with ⟨missing, absent⟩ | ⟨dev, ran, meets⟩ | ⟨e, ran, meets⟩
        · exact .inl ⟨missing, List.forall_mem_cons.mpr ⟨found, absent⟩⟩
        · exact .inr (.inl ⟨dev, ran, meets.cons found⟩)
        · exact .inr (.inr ⟨e, ran, meets.cons found⟩)

variable [UsbControl δ]

theorem openUsbPort_opened {lib : Libusb κ δ} {port : Handle δ}
    (opened : openUsbPort lib = .ok port) : port.opened = true := by
  rw [openUsbPort] at opened
  split at opened
  · cases opened
  · cases opened
  · rename_i dev _
    obtain ⟨h, done, log, ⟨run, isOpen, -⟩ | ⟨msg, run, -⟩⟩ :=
      Handle.openPort_cases (Handle.fresh dev)
    · rw [run] at opened
      cases opened
      exact isOpen
    · rw [run] at opened
      cases opened

/-- `open_usb_port` opens the first device in the order of `BOOTROM_IDS`, its data interface
claimed and woken, or raises `UsbUnavailable`, or what the lookup raised. -/
theorem openUsbPort_outcome (lib : Libusb κ δ) :
    (∀ port, openUsbPort lib = .ok port →
      port.opened = true ∧ Opening port.interface true port.log ∧
      ∃ dev, Meets lib bootromIds (.ok (some dev)) ∧ Settles dev (1, 0x02, 0x81) port.ends ∧
        Handle.openPort (Handle.fresh dev) = .ok () port) ∧
    ∀ e, openUsbPort lib = .error e →
      (∃ msg, e = .usbUnavailable msg) ∨ Meets lib bootromIds (.error e) := by
  cases imported : lib.pyusb with
  | false =>
    have none : findBootrom lib = .error _ := if_neg (by simp [imported])
    rw [openUsbPort, none]
    refine ⟨by simp, fun e failed => .inl ⟨_, (Except.error.inj failed).symm⟩⟩
  | true =>
    have looked : findBootrom lib = findAmong lib bootromIds := if_pos imported
    rw [openUsbPort, looked]
    rcases findAmong_cases lib bootromIds with ⟨ran, -⟩ | ⟨dev, ran, meets⟩ | ⟨e, ran, meets⟩
    · rw [ran]
      refine ⟨by simp, fun e failed => .inl ⟨_, (Except.error.inj failed).symm⟩⟩
    · rw [ran]
      obtain ⟨h, done, log, ⟨run, isOpen, settles, awake⟩ | ⟨msg, run, -⟩⟩ :=
        Handle.openPort_cases (Handle.fresh dev)
      · simp only [run]
        refine ⟨fun port returned => ?_, by simp⟩
        cases returned
        rw [Handle.fresh, List.nil_append] at log
        rw [log]
        exact ⟨isOpen, awake, dev, meets, settles, run⟩
      · simp only [run]
        exact ⟨by simp, fun e failed => .inl ⟨msg, (Except.error.inj failed).symm⟩⟩
    · rw [ran]
      refine ⟨by simp, fun e failed => ?_⟩
      cases failed
      exact .inr meets

end Life

end SprdFlash.UsbTransport
