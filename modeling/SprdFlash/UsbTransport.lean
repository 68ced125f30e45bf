import SprdFlash.Struct
import SprdFlash.Library.Script
import SprdFlash.Library.Pieces

/-!
The libusb transport. `UsbPort` cuts what is written into pieces for the bulk OUT
endpoint and keeps what a bulk IN transfer brought beyond the bytes asked for; both
directions are queues that lose nothing. The endpoints are those of one interface.
-/

namespace SprdFlash.UsbTransport

open Script

section Discovery

structure Endpoint where
  bEndpointAddress : UInt8
  bmAttributes : UInt8
  deriving DecidableEq, Repr

structure Interface where
  bInterfaceNumber : UInt8
  bInterfaceClass : UInt8
  endpoints : List Endpoint
  deriving DecidableEq, Repr

def endpointTypeBulk : UInt8 := 0x02
def endpointOut : UInt8 := 0x00

def endpointType (bmAttributes : UInt8) : UInt8 := bmAttributes &&& 0x03
def endpointDirection (address : UInt8) : UInt8 := address &&& 0x80

/-- The loop over the endpoints of one interface: the last bulk endpoint of each
direction stays. -/
def bulkEndpoints (epOut epIn : Option UInt8) : List Endpoint → Option UInt8 × Option UInt8
  | [] => (epOut, epIn)
  | ep :: rest =>
    if endpointType ep.bmAttributes ≠ endpointTypeBulk then bulkEndpoints epOut epIn rest
    else if endpointDirection ep.bEndpointAddress = endpointOut then
      bulkEndpoints (some ep.bEndpointAddress) epIn rest
    else bulkEndpoints epOut (some ep.bEndpointAddress) rest

/-- The loop over the interfaces, with the fallback it has seen. -/
def discoverFrom (fallback : Option (UInt8 × UInt8 × UInt8)) :
    List Interface → Except Exc (UInt8 × UInt8 × UInt8)
  | [] => match fallback with
    | none => .error (.usbUnavailable "no bulk endpoints found on the BootROM device")
    | some found => .ok found
  | intf :: rest => match bulkEndpoints none none intf.endpoints with
    | (some epOut, some epIn) =>
      let found := (intf.bInterfaceNumber, epOut, epIn)
      if intf.bInterfaceClass = 0x0A then .ok found
      else match fallback with
        | none => discoverFrom (some found) rest
        | some _ => discoverFrom fallback rest
    | _ => discoverFrom fallback rest

def discoverDataInterface (cfg : List Interface) : Except Exc (UInt8 × UInt8 × UInt8) :=
  discoverFrom none cfg

def Endpoint.IsBulkOut (ep : Endpoint) : Prop :=
  endpointType ep.bmAttributes = endpointTypeBulk ∧
    endpointDirection ep.bEndpointAddress = endpointOut

def Endpoint.IsBulkIn (ep : Endpoint) : Prop :=
  endpointType ep.bmAttributes = endpointTypeBulk ∧
    endpointDirection ep.bEndpointAddress ≠ endpointOut

instance (ep : Endpoint) : Decidable ep.IsBulkOut := inferInstanceAs (Decidable (_ ∧ _))
instance (ep : Endpoint) : Decidable ep.IsBulkIn := inferInstanceAs (Decidable (_ ∧ _))

def Interface.Complete (intf : Interface) : Prop :=
  (∃ ep ∈ intf.endpoints, ep.IsBulkOut) ∧ ∃ ep ∈ intf.endpoints, ep.IsBulkIn

instance (intf : Interface) : Decidable intf.Complete := inferInstanceAs (Decidable (_ ∧ _))

/-- Two bulk endpoints of one interface, in their directions. -/
def Interface.Carries (intf : Interface) (found : UInt8 × UInt8 × UInt8) : Prop :=
  found.1 = intf.bInterfaceNumber ∧
    (∃ ep ∈ intf.endpoints, ep.IsBulkOut ∧ ep.bEndpointAddress = found.2.1) ∧
    ∃ ep ∈ intf.endpoints, ep.IsBulkIn ∧ ep.bEndpointAddress = found.2.2

theorem bulkEndpoints_out (epOut epIn : Option UInt8) (eps : List Endpoint) :
    (∃ ep ∈ eps, ep.IsBulkOut ∧ (bulkEndpoints epOut epIn eps).1 = some ep.bEndpointAddress) ∨
      (∀ ep ∈ eps, ¬ ep.IsBulkOut) ∧ (bulkEndpoints epOut epIn eps).1 = epOut := by
  fun_induction bulkEndpoints epOut epIn eps with
  | case1 => simp
  | case2 epOut epIn ep rest other ih =>
    have no : ¬ ep.IsBulkOut := fun h => other h.1
    simpa [no] using ih
  | case3 epOut epIn ep rest bulk isOut ih =>
    have yes : ep.IsBulkOut := ⟨not_not.mp bulk, isOut⟩
    rcases ih with ⟨later, mem, out, stays⟩ | ⟨-, stays⟩
    · exact .inl ⟨later, List.mem_cons_of_mem ep mem, out, stays⟩
    · exact .inl ⟨ep, List.mem_cons_self, yes, stays⟩
  | case4 epOut epIn ep rest bulk isIn ih =>
    have no : ¬ ep.IsBulkOut := fun h => isIn h.2
    simpa [no] using ih

theorem bulkEndpoints_in (epOut epIn : Option UInt8) (eps : List Endpoint) :
    (∃ ep ∈ eps, ep.IsBulkIn ∧ (bulkEndpoints epOut epIn eps).2 = some ep.bEndpointAddress) ∨
      (∀ ep ∈ eps, ¬ ep.IsBulkIn) ∧ (bulkEndpoints epOut epIn eps).2 = epIn := by
  fun_induction bulkEndpoints epOut epIn eps with
  | case1 => simp
  | case2 epOut epIn ep rest other ih =>
    have no : ¬ ep.IsBulkIn := fun h => other h.1
    simpa [no] using ih
  | case3 epOut epIn ep rest bulk isOut ih =>
    have no : ¬ ep.IsBulkIn := fun h => h.2 isOut
    simpa [no] using ih
  | case4 epOut epIn ep rest bulk isIn ih =>
    have yes : ep.IsBulkIn := ⟨not_not.mp bulk, isIn⟩
    rcases ih with ⟨later, mem, isIn, stays⟩ | ⟨-, stays⟩
    · exact .inl ⟨later, List.mem_cons_of_mem ep mem, isIn, stays⟩
    · exact .inl ⟨ep, List.mem_cons_self, yes, stays⟩

theorem bulkEndpoints_complete (intf : Interface) :
    match bulkEndpoints none none intf.endpoints with
    | (some epOut, some epIn) =>
      intf.Complete ∧ intf.Carries (intf.bInterfaceNumber, epOut, epIn)
    | _ => ¬ intf.Complete := by
  have outs := bulkEndpoints_out none none intf.endpoints
  have ins := bulkEndpoints_in none none intf.endpoints
  generalize bulkEndpoints none none intf.endpoints = kept at outs ins ⊢
  rcases kept with ⟨_ | epOut, _ | epIn⟩
  · simp only [reduceCtorEq, and_false, exists_false, and_true, false_or] at outs
    exact fun ⟨⟨ep, mem, isOut⟩, _⟩ => outs ep mem isOut
  · simp only [reduceCtorEq, and_false, exists_false, and_true, false_or] at outs
    exact fun ⟨⟨ep, mem, isOut⟩, _⟩ => outs ep mem isOut
  · simp only [reduceCtorEq, and_false, exists_false, and_true, false_or] at ins
    exact fun ⟨_, ep, mem, isIn⟩ => ins ep mem isIn
  · simp only [reduceCtorEq, and_false, or_false, Option.some.injEq] at outs ins
    obtain ⟨out, outMem, isOut, rfl⟩ := outs
    obtain ⟨inn, inMem, isIn, rfl⟩ := ins
    exact ⟨⟨⟨out, outMem, isOut⟩, inn, inMem, isIn⟩, rfl, ⟨out, outMem, isOut, rfl⟩,
      inn, inMem, isIn, rfl⟩

/-- By induction on the interfaces: a fallback stands behind every CDC-Data interface
and before every other. -/
theorem discoverFrom_eq (fallback : Option (UInt8 × UInt8 × UInt8)) (cfg : List Interface) :
    match cfg.find? fun intf => intf.Complete ∧ intf.bInterfaceClass = 0x0A with
    | some intf => ∃ found, discoverFrom fallback cfg = .ok found ∧ intf.Carries found
    | none => match fallback with
      | some found => discoverFrom fallback cfg = .ok found
      | none => match cfg.find? fun intf => intf.Complete with
        | some intf => ∃ found, discoverFrom fallback cfg = .ok found ∧ intf.Carries found
        | none => ∃ msg, discoverFrom fallback cfg = .error (.usbUnavailable msg) := by
  induction cfg generalizing fallback with
  | nil =>
    cases fallback with
    | none => exact ⟨_, rfl⟩
    | some found => rfl
  | cons intf cfg ih =>
    have one := bulkEndpoints_complete intf
    have skip (no : ¬ intf.Complete) :
        (intf :: cfg).find? (fun intf => intf.Complete ∧ intf.bInterfaceClass = 0x0A) =
            cfg.find? (fun intf => intf.Complete ∧ intf.bInterfaceClass = 0x0A) ∧
          (intf :: cfg).find? (fun intf => intf.Complete) =
            cfg.find? (fun intf => intf.Complete) := by
      simp [no]
    rw [discoverFrom]
    rcases kept : bulkEndpoints none none intf.endpoints with ⟨_ | epOut, _ | epIn⟩
    · rw [kept] at one
      rw [(skip one).1, (skip one).2]
      exact ih fallback
    · rw [kept] at one
      rw [(skip one).1, (skip one).2]
      exact ih fallback
    · rw [kept] at one
      rw [(skip one).1, (skip one).2]
      exact ih fallback
    · rw [kept] at one
      obtain ⟨complete, carries⟩ := one
      by_cases cdc : intf.bInterfaceClass = 0x0A
      · rw [List.find?_cons_of_pos (by simp [complete, cdc])]
        simp only [if_pos cdc]
        exact ⟨_, rfl, carries⟩
      · rw [List.find?_cons_of_neg (by simp [cdc])]
        have first : (intf :: cfg).find? (fun intf => intf.Complete) = some intf :=
          List.find?_cons_of_pos (by simp [complete])
        simp only [if_neg cdc]
        cases fallback with
        | some found => exact ih (some found)
        | none =>
          have later := ih (some (intf.bInterfaceNumber, epOut, epIn))
          rw [first]
          generalize cfg.find? (fun intf => intf.Complete ∧ intf.bInterfaceClass = 0x0A) = other
            at later ⊢
          cases other with
          | some other => exact later
          | none => exact ⟨_, later, carries⟩

theorem discoverFrom_error {fallback : Option (UInt8 × UInt8 × UInt8)} {cfg : List Interface}
    {e : Exc} (failed : discoverFrom fallback cfg = .error e) :
    ∃ msg, e = .usbUnavailable msg := by
  fun_induction discoverFrom fallback cfg
  case case1 => exact ⟨_, (Except.error.inj failed).symm⟩
  case case2 | case3 => cases failed
  case case4 ih | case5 ih | case6 ih => exact ih failed

/-- The interface is the first complete CDC-Data one, else the first complete one, and
there is none exactly if no interface is complete. -/
theorem discoverDataInterface_consistent (cfg : List Interface) :
    (∀ intf, cfg.find? (fun intf => intf.Complete ∧ intf.bInterfaceClass = 0x0A) = some intf →
      ∃ found, discoverDataInterface cfg = .ok found ∧ intf.Carries found) ∧
    (∀ intf, cfg.find? (fun intf => intf.Complete ∧ intf.bInterfaceClass = 0x0A) = none →
      cfg.find? (fun intf => intf.Complete) = some intf →
      ∃ found, discoverDataInterface cfg = .ok found ∧ intf.Carries found) ∧
    ((∃ msg, discoverDataInterface cfg = .error (.usbUnavailable msg)) ↔
      ∀ intf ∈ cfg, ¬ intf.Complete) ∧
    ∀ e, discoverDataInterface cfg = .error e → ∃ msg, e = .usbUnavailable msg := by
  have outcome := discoverFrom_eq none cfg
  rw [← discoverDataInterface] at outcome
  have none_iff : cfg.find? (fun intf => intf.Complete) = none ↔ ∀ intf ∈ cfg, ¬ intf.Complete := by
    simp [List.find?_eq_none]
  cases preferred : cfg.find? (fun intf => intf.Complete ∧ intf.bInterfaceClass = 0x0A) with
  | some intf =>
    rw [preferred] at outcome
    obtain ⟨found, run, carries⟩ := outcome
    have complete : ∃ intf ∈ cfg, intf.Complete := by
      have chosen := List.find?_some preferred
      exact ⟨intf, List.mem_of_find?_eq_some preferred, (by simpa using chosen : _ ∧ _).1⟩
    refine ⟨fun other same => ?_, by simp, ?_, by simp [run]⟩
    · cases same
      exact ⟨found, run, carries⟩
    · simp only [run, reduceCtorEq, exists_false, false_iff, not_forall, not_not]
      obtain ⟨intf, mem, complete⟩ := complete
      exact ⟨intf, mem, complete⟩
  | none =>
    rw [preferred] at outcome
    simp only at outcome
    rw [← none_iff]
    refine ⟨by simp, fun intf _ first => ?_, ?_, fun e => discoverFrom_error⟩
    · rw [first] at outcome
      exact outcome
    · cases first : cfg.find? (fun intf => intf.Complete) with
      | some intf =>
        rw [first] at outcome
        obtain ⟨found, run, -⟩ := outcome
        simp [run]
      | none =>
        rw [first] at outcome
        simpa using outcome

example : discoverDataInterface
    [⟨0, 0x0A, [⟨0x81, 0x02⟩]⟩, ⟨1, 0xFF, [⟨0x02, 0x02⟩, ⟨0x83, 0x03⟩, ⟨0x84, 0x02⟩]⟩] =
      .ok (1, 0x02, 0x84) := by
  decide

end Discovery

section Transfers

/-- What a bulk transfer raises: whether it is a `USBTimeoutError`, and its message. -/
structure UsbExc where
  usbTimeoutError : Bool
  msg : String
  deriving DecidableEq, Repr

/-- `part in msg.lower()`. -/
def mentions (part msg : String) : Bool :=
  (msg.toList.map Char.toLower).tails.any (part.toList.isPrefixOf ·)

def isTimeout (exc : UsbExc) : Bool :=
  exc.usbTimeoutError || (mentions "timed out" exc.msg || mentions "timeout" exc.msg)

/-- The bulk endpoints of a device: OUT takes the whole piece or raises, IN brings up
to the number of bytes asked for or raises. -/
class UsbDevice (τ : Type) where
  bulkOut : τ → Bytes → Except UsbExc Unit × τ
  bulkIn : τ → ℕ → Except UsbExc Bytes × τ

/-- The device, the bytes kept back, and the transfers made so far: the pieces given to
the OUT endpoint and what each transfer asked of the IN endpoint came to. -/
structure UsbPort (τ : Type) where
  dev : τ
  rx : Bytes
  sent : List Bytes
  received : List (Except UsbExc Bytes)

abbrev UsbSession (τ : Type) := EStateM UsbExc (UsbPort τ)

def maxEpChunk : ℕ+ := 64

variable {τ : Type} [UsbDevice τ]

namespace UsbPort

def fresh (dev : τ) : UsbPort τ := ⟨dev, [], [], []⟩

def devWrite (piece : Bytes) : UsbSession τ Unit := fun s =>
  match UsbDevice.bulkOut s.dev piece with
  | (.ok (), dev) => .ok () { s with dev, sent := s.sent ++ [piece] }
  | (.error e, dev) => .error e { s with dev, sent := s.sent ++ [piece] }

def devRead (size : ℕ) : UsbSession τ Bytes := fun s =>
  match UsbDevice.bulkIn s.dev size with
  | (.ok chunk, dev) => .ok chunk { s with dev, received := s.received ++ [.ok chunk] }
  | (.error e, dev) => .error e { s with dev, received := s.received ++ [.error e] }

def writeLoop (data : Bytes) (sent : ℕ) : UsbSession τ ℕ :=
  if sent < data.length then do
    let piece := (data.drop sent).take maxEpChunk
    devWrite piece
    writeLoop data (sent + piece.length)
  else return sent
termination_by data.length - sent
decreasing_by
  have := maxEpChunk.pos
  simp only [List.length_take, List.length_drop]
  omega

def write (data : Bytes) : UsbSession τ ℕ := writeLoop data 0

def read (n : ℕ+) : UsbSession τ Bytes := fun s =>
  if s.rx = [] then
    match devRead 4096 s with
    | .ok chunk t => .ok (chunk.take n) { t with rx := chunk.drop n }
    | .error e t => if isTimeout e then .ok [] t else .error e t
  else .ok (s.rx.take n) { s with rx := s.rx.drop n }

end UsbPort

inductive Call
  | write (data : Bytes)
  | read (n : ℕ+)

inductive Called
  | wrote (data : Bytes) (result : Except UsbExc ℕ)
  | read (n : ℕ+) (result : Except UsbExc Bytes)

def call : Call → UsbPort τ → Called × UsbPort τ
  | .write data, s => match UsbPort.write data s with
    | .ok sent t => (.wrote data (.ok sent), t)
    | .error e t => (.wrote data (.error e), t)
  | .read n, s => match UsbPort.read n s with
    | .ok bs t => (.read n (.ok bs), t)
    | .error e t => (.read n (.error e), t)

def calls : List Call → UsbPort τ → List Called × UsbPort τ
  | [], s => ([], s)
  | c :: rest, s =>
    let (done, t) := call c s
    let (later, u) := calls rest t
    (done :: later, u)

def Called.call : Called → Call
  | .wrote data _ => .write data
  | .read n _ => .read n

def Called.given : Called → Bytes
  | .read _ (.ok bs) => bs
  | _ => []

def Called.data : Called → Bytes
  | .wrote data _ => data
  | .read _ _ => []

/-- Not a write that raised, which may have stopped short of its data. -/
def Called.complete : Called → Bool
  | .wrote _ (.error _) => false
  | _ => true

inductive Transfer
  | out (piece : Bytes) (result : Except UsbExc Unit)
  | into (result : Except UsbExc Bytes)

def Transfer.piece : Transfer → Option Bytes
  | .out piece _ => some piece
  | .into _ => none

def Transfer.incoming : Transfer → Option (Except UsbExc Bytes)
  | .out _ _ => none
  | .into result => some result

/-- The device makes the transfers, one after the other. -/
inductive Exchanged : τ → List Transfer → τ → Prop
  | nil (d : τ) : Exchanged d [] d
  | out {d d' : τ} {transfers : List Transfer} (piece : Bytes) :
      Exchanged (UsbDevice.bulkOut d piece).2 transfers d' →
      Exchanged d (.out piece (UsbDevice.bulkOut d piece).1 :: transfers) d'
  | into {d d' : τ} {transfers : List Transfer} :
      Exchanged (UsbDevice.bulkIn d 4096).2 transfers d' →
      Exchanged d (.into (UsbDevice.bulkIn d 4096).1 :: transfers) d'

theorem Exchanged.append {d d' d'' : τ} {xs ys : List Transfer} (first : Exchanged d xs d')
    (later : Exchanged d' ys d'') : Exchanged d (xs ++ ys) d'' := by
  induction first with
  | nil => exact later
  | out piece rest ih => exact .out piece (ih later)
  | into rest ih => exact .into (ih later)

/-- On the way from one state of the port to another, the device made the transfers that
were recorded. -/
def Recorded (s t : UsbPort τ) : Prop :=
  ∃ transfers, Exchanged s.dev transfers t.dev ∧
    t.sent = s.sent ++ transfers.filterMap Transfer.piece ∧
    t.received = s.received ++ transfers.filterMap Transfer.incoming

theorem Recorded.refl (s : UsbPort τ) : Recorded s s :=
  ⟨[], .nil _, (List.append_nil _).symm, (List.append_nil _).symm⟩

theorem Recorded.trans {s t u : UsbPort τ} (first : Recorded s t) (later : Recorded t u) :
    Recorded s u := by
  obtain ⟨xs, made, sent, received⟩ := first
  obtain ⟨ys, made', sent', received'⟩ := later
  refine ⟨xs ++ ys, made.append made', ?_, ?_⟩
  · rw [sent', sent, List.filterMap_append, List.append_assoc]
  · rw [received', received, List.filterMap_append, List.append_assoc]

def brought : Except UsbExc Bytes → Bytes
  | .ok bs => bs
  | .error _ => []

def Silent : Except UsbExc Bytes → Prop
  | .ok bs => bs = []
  | .error e => isTimeout e = true

theorem devWrite_recorded (piece : Bytes) (s : UsbPort τ) :
    Recorded s (final (UsbPort.devWrite piece s)) ∧
      (final (UsbPort.devWrite piece s)).sent = s.sent ++ [piece] ∧
      (final (UsbPort.devWrite piece s)).rx = s.rx ∧
      (final (UsbPort.devWrite piece s)).received = s.received := by
  have made : Exchanged s.dev [.out piece (UsbDevice.bulkOut s.dev piece).1]
      (UsbDevice.bulkOut s.dev piece).2 := .out piece (.nil _)
  rw [UsbPort.devWrite]
  rcases out : UsbDevice.bulkOut s.dev piece with ⟨e | u, dev⟩
  · rw [out] at made
    exact ⟨⟨_, made, rfl, (List.append_nil _).symm⟩, rfl, rfl, rfl⟩
  · rw [out] at made
    exact ⟨⟨_, made, rfl, (List.append_nil _).symm⟩, rfl, rfl, rfl⟩

/-- What a write adds to the pieces: all of its data if it returns, else a first part. -/
theorem writeLoop_pieces (data : Bytes) (sent : ℕ) (s : UsbPort τ) :
    Recorded s (final (UsbPort.writeLoop data sent s)) ∧
    match UsbPort.writeLoop data sent s with
    | .ok _ t => t.sent = s.sent ++ Pieces.pieces maxEpChunk (data.drop sent) ∧
        t.rx = s.rx ∧ t.received = s.received
    | .error _ t => ∃ part, part ≠ [] ∧ part <+: Pieces.pieces maxEpChunk (data.drop sent) ∧
        t.sent = s.sent ++ part ∧ t.rx = s.rx ∧ t.received = s.received := by
  fun_induction UsbPort.writeLoop (τ := τ) data sent generalizing s with
  | case1 sent more piece ih =>
    have some : data.drop sent ≠ [] := by
      rw [ne_eq, List.drop_eq_nil_iff]
      omega
    have next : data.drop (sent + piece.length) = (data.drop sent).drop maxEpChunk :=
      Pieces.drop_piece maxEpChunk data sent
    rw [Pieces.pieces_of_ne_nil maxEpChunk some, ← next]
    obtain ⟨here, grown, rx, received⟩ := devWrite_recorded piece s
    cases went : UsbPort.devWrite piece s with
    | error e t =>
      rw [went] at here grown rx received
      rw [bind_error went]
      exact ⟨here, [piece], by simp, ⟨_, rfl⟩, grown, rx, received⟩
    | ok u t =>
      rw [went] at here grown rx received
      obtain ⟨there, rest⟩ := ih t
      rw [bind_ok went]
      refine ⟨here.trans there, ?_⟩
      cases run : UsbPort.writeLoop data (sent + piece.length) t with
      | ok n t' =>
        rw [run] at rest
        refine ⟨?_, rest.2.1.trans rx, rest.2.2.trans received⟩
        rw [rest.1]
        exact (congrArg (· ++ _) grown).trans (List.append_assoc _ _ _)
      | error e t' =>
        rw [run] at rest
        obtain ⟨part, -, first, sent', rx', received'⟩ := rest
        refine ⟨piece :: part, by simp, List.cons_prefix_cons.mpr ⟨rfl, first⟩, ?_, rx'.trans rx,
          received'.trans received⟩
        rw [sent']
        exact (congrArg (· ++ _) grown).trans (List.append_assoc _ _ _)
  | case2 sent done =>
    rw [List.drop_eq_nil_of_le (by omega), Pieces.pieces]
    exact ⟨.refl s, (List.append_nil _).symm, rfl, rfl⟩

omit [UsbDevice τ] in
theorem take_eq_nil (n : ℕ+) {bs : Bytes} (h : bs.take n = []) : bs = [] := by
  have positive := n.pos
  rcases List.take_eq_nil_iff.mp h with zero | empty
  · omega
  · exact empty

theorem read_kept (n : ℕ+) {s : UsbPort τ} (kept : s.rx ≠ []) :
    UsbPort.read n s = .ok (s.rx.take n) { s with rx := s.rx.drop n } := by
  rw [UsbPort.read, if_neg kept]

theorem read_asks (n : ℕ+) {s : UsbPort τ} (empty : s.rx = []) :
    let asked := UsbDevice.bulkIn s.dev 4096
    let received := s.received ++ [asked.1]
    (∀ chunk, asked.1 = .ok chunk →
      UsbPort.read n s = .ok (chunk.take n) ⟨asked.2, chunk.drop n, s.sent, received⟩) ∧
    ∀ e, asked.1 = .error e → UsbPort.read n s =
      if isTimeout e then .ok [] ⟨asked.2, [], s.sent, received⟩
      else .error e ⟨asked.2, [], s.sent, received⟩ := by
  rw [UsbPort.read, if_pos empty, UsbPort.devRead]
  rcases UsbDevice.bulkIn s.dev 4096 with ⟨e | chunk, dev⟩
  · refine ⟨by simp, fun e' same => ?_⟩
    cases same
    simp [empty]
  · refine ⟨fun chunk' same => ?_, by simp⟩
    cases same
    rfl

theorem read_recorded (n : ℕ+) (s : UsbPort τ) :
    Recorded s (final (UsbPort.read n s)) ∧ (final (UsbPort.read n s)).sent = s.sent := by
  by_cases empty : s.rx = []
  · obtain ⟨brings, raises⟩ := read_asks n empty
    have made : Exchanged s.dev [.into (UsbDevice.bulkIn s.dev 4096).1]
        (UsbDevice.bulkIn s.dev 4096).2 := .into (.nil _)
    cases asked : (UsbDevice.bulkIn s.dev 4096).1 with
    | ok chunk =>
      rw [asked] at made
      rw [brings chunk asked, asked]
      exact ⟨⟨_, made, (List.append_nil _).symm, rfl⟩, rfl⟩
    | error e =>
      rw [asked] at made
      rw [raises e asked, asked]
      cases isTimeout e
      · exact ⟨⟨_, made, (List.append_nil _).symm, rfl⟩, rfl⟩
      · exact ⟨⟨_, made, (List.append_nil _).symm, rfl⟩, rfl⟩
  · rw [read_kept n empty]
    exact ⟨.refl s, rfl⟩

theorem read_keeps (n : ℕ+) (s : UsbPort τ) :
    match UsbPort.read n s with
    | .ok bs t => ∃ new, t.received = s.received ++ new ∧ bs ++ t.rx = s.rx ++ new.flatMap brought
    | .error _ t => ∃ new, t.received = s.received ++ new ∧ t.rx = s.rx ++ new.flatMap brought := by
  by_cases empty : s.rx = []
  · obtain ⟨brings, raises⟩ := read_asks n empty
    cases asked : (UsbDevice.bulkIn s.dev 4096).1 with
    | ok chunk =>
      rw [brings chunk asked, asked]
      refine ⟨[.ok chunk], rfl, ?_⟩
      rw [List.take_append_drop, empty]
      exact (List.append_nil _).symm
    | error e =>
      rw [raises e asked, asked, empty]
      cases isTimeout e
      · exact ⟨[.error e], rfl, rfl⟩
      · exact ⟨[.error e], rfl, rfl⟩
  · rw [read_kept n empty]
    refine ⟨[], (List.append_nil _).symm, ?_⟩
    rw [List.take_append_drop]
    exact (List.append_nil _).symm

theorem call_step (c : Call) (s : UsbPort τ) :
    (call c s).1.call = c ∧ Recorded s (call c s).2 ∧
      (∃ part, (call c s).2.sent = s.sent ++ part ∧
        (∀ piece ∈ part, piece ≠ [] ∧ piece.length ≤ 64) ∧ part.flatten <+: (call c s).1.data ∧
        ((call c s).1.complete = true → part.flatten = (call c s).1.data)) ∧
      ∃ new, (call c s).2.received = s.received ++ new ∧
        (call c s).1.given ++ (call c s).2.rx = s.rx ++ new.flatMap brought := by
  cases c with
  | write data =>
    obtain ⟨recorded, went⟩ := writeLoop_pieces data 0 s
    rw [← UsbPort.write] at recorded went
    rw [List.drop_zero] at went
    have pieces {piece : Bytes} (h : piece ∈ Pieces.pieces maxEpChunk data) :
        piece ≠ [] ∧ piece.length ≤ 64 := ⟨(Pieces.mem_pieces h).1, (Pieces.mem_pieces h).2.1⟩
    simp only [call]
    cases run : UsbPort.write data s with
    | ok n t =>
      rw [run] at recorded went
      have whole := Pieces.pieces_flatten maxEpChunk data
      refine ⟨rfl, recorded, ⟨_, went.1, fun piece h => pieces h, ?_, fun _ => whole⟩, [], ?_, ?_⟩
      · rw [whole]
        exact List.prefix_rfl
      · rw [went.2.2, List.append_nil]
      · rw [went.2.1]
        exact (List.append_nil _).symm
    | error e t =>
      rw [run] at recorded went
      obtain ⟨part, -, first, sent, rx, received⟩ := went
      refine ⟨rfl, recorded, ⟨part, sent, fun piece h => pieces (first.subset h),
        Pieces.flatten_prefix first, fun complete => by cases complete⟩, [], ?_, ?_⟩
      · rw [received, List.append_nil]
      · rw [rx]
        exact (List.append_nil _).symm
  | read n =>
    have kept := read_keeps n s
    obtain ⟨recorded, sent⟩ := read_recorded n s
    simp only [call]
    cases run : UsbPort.read n s with
    | ok bs t =>
      rw [run] at kept recorded sent
      obtain ⟨new, received, same⟩ := kept
      exact ⟨rfl, recorded, ⟨[], sent.trans (List.append_nil _).symm, by simp, List.prefix_rfl,
        fun _ => rfl⟩, new, received, same⟩
    | error e t =>
      rw [run] at kept recorded sent
      obtain ⟨new, received, same⟩ := kept
      exact ⟨rfl, recorded, ⟨[], sent.trans (List.append_nil _).symm, by simp, List.prefix_rfl,
        fun _ => rfl⟩, new, received, same⟩

/-- By induction on the calls: both directions stay in order and lose nothing. -/
theorem calls_run (cs : List Call) (s : UsbPort τ) :
    (calls cs s).1.map Called.call = cs ∧ Recorded s (calls cs s).2 ∧
      (∃ parts : List (List Bytes), (calls cs s).2.sent = s.sent ++ parts.flatten ∧
        (∀ part ∈ parts, ∀ piece ∈ part, piece ≠ [] ∧ piece.length ≤ 64) ∧
        List.Forall₂ (fun done part => part.flatten <+: done.data ∧
          (done.complete = true → part.flatten = done.data)) (calls cs s).1 parts) ∧
      ∃ new, (calls cs s).2.received = s.received ++ new ∧
        ((calls cs s).1.map Called.given).flatten ++ (calls cs s).2.rx =
          s.rx ++ new.flatMap brought := by
  induction cs generalizing s with
  | nil =>
    exact ⟨rfl, .refl s, ⟨[], (List.append_nil _).symm, by simp, .nil⟩, [],
      (List.append_nil _).symm, (List.append_nil _).symm⟩
  | cons c cs ih =>
    obtain ⟨first, made, ⟨part, sent, fits, data⟩, new, received, kept⟩ := call_step c s
    obtain ⟨rest, makes, ⟨parts, sents, allFit, datas⟩, news, receiveds, kepts⟩ := ih (call c s).2
    refine ⟨congrArg₂ List.cons first rest, made.trans makes,
      ⟨part :: parts, ?_, List.forall_mem_cons.mpr ⟨fits, allFit⟩, .cons data datas⟩,
      new ++ news, ?_, ?_⟩
    · rw [List.flatten_cons, ← List.append_assoc, ← sent]
      exact sents
    · rw [← List.append_assoc, ← received]
      exact receiveds
    · rw [List.flatMap_append, ← List.append_assoc, ← kept, List.append_assoc, ← kepts]
      exact List.append_assoc _ _ _

omit [UsbDevice τ] in
theorem forall₂_complete {done : List Called} {parts : List Bytes}
    (data : List.Forall₂ (fun c part => part <+: c.data ∧ (c.complete = true → part = c.data))
      done parts) (complete : ∀ c ∈ done, c.complete = true) : parts = done.map Called.data := by
  induction data with
  | nil => rfl
  | cons one rest ih =>
    rw [List.forall_mem_cons] at complete
    rw [List.map_cons, one.2 complete.1, ih complete.2]

/-- What a read does next: no transfer with bytes kept back, else exactly one. -/
theorem read_next (n : ℕ+) (s : UsbPort τ) :
    let asked := UsbDevice.bulkIn s.dev 4096
    let after := final (UsbPort.read n s)
    (s.rx ≠ [] → after.dev = s.dev ∧ after.received = s.received) ∧
    (s.rx = [] → after.dev = asked.2 ∧ after.received = s.received ++ [asked.1]) ∧
    (∀ bs, UsbPort.read n s = .ok bs after → bs.length ≤ n) ∧
    (UsbPort.read n s = .ok [] after ↔ s.rx = [] ∧ Silent asked.1) ∧
    ∀ e, UsbPort.read n s = .error e after ↔
      s.rx = [] ∧ asked.1 = .error e ∧ isTimeout e = false := by
  intro asked
  by_cases empty : s.rx = []
  · obtain ⟨brings, raises⟩ := read_asks n empty
    cases came : asked.1 with
    | ok chunk =>
      have nothing : chunk.take n = [] ↔ chunk = [] :=
        ⟨take_eq_nil n, fun none => by rw [none, List.take_nil]⟩
      rw [brings chunk came, show (UsbDevice.bulkIn s.dev 4096).1 = _ from came]
      simp [final, empty, Silent, asked, nothing]
    | error e =>
      rw [raises e came, show (UsbDevice.bulkIn s.dev 4096).1 = _ from came]
      cases timeout : isTimeout e
      · simp [final, empty, Silent, asked, timeout]
      · simp [final, empty, Silent, asked, timeout]
  · rw [read_kept n empty]
    have some : s.rx.take n ≠ [] := fun none => empty (take_eq_nil n none)
    simp [final, empty, some]

/-- The port is a lossless queue in both directions, after any calls and for the next
read; the bytes sent and received are those of the transfers that the device made. -/
theorem usbPort_lossless (dev : τ) (cs : List Call) :
    let done := (calls cs (UsbPort.fresh dev)).1
    let port := (calls cs (UsbPort.fresh dev)).2
    done.map Called.call = cs ∧
      (∃ transfers, Exchanged dev transfers port.dev ∧
        port.sent = transfers.filterMap Transfer.piece ∧
        port.received = transfers.filterMap Transfer.incoming) ∧
      (∀ piece ∈ port.sent, piece ≠ [] ∧ piece.length ≤ 64) ∧
      (∃ parts, port.sent.flatten = parts.flatten ∧ List.Forall₂ (fun c part =>
        part <+: c.data ∧ (c.complete = true → part = c.data)) done parts) ∧
      ((∀ c ∈ done, c.complete = true) → port.sent.flatten = (done.map Called.data).flatten) ∧
      (done.map Called.given).flatten ++ port.rx = port.received.flatMap brought ∧
      ∀ n, let asked := UsbDevice.bulkIn port.dev 4096
        let after := final (UsbPort.read n port)
        (port.rx ≠ [] → after.dev = port.dev ∧ after.received = port.received) ∧
        (port.rx = [] → after.dev = asked.2 ∧ after.received = port.received ++ [asked.1]) ∧
        (∀ bs, UsbPort.read n port = .ok bs after → bs.length ≤ n) ∧
        (UsbPort.read n port = .ok [] after ↔ port.rx = [] ∧ Silent asked.1) ∧
        ∀ e, UsbPort.read n port = .error e after ↔
          port.rx = [] ∧ asked.1 = .error e ∧ isTimeout e = false := by
  intro done port
  obtain ⟨made, recorded, ⟨parts, sent, fits, data⟩, new, received, kept⟩ :=
    calls_run cs (UsbPort.fresh dev)
  have pieces : port.sent = parts.flatten := sent
  have chunks : port.received = new := received
  have parts_data : List.Forall₂ (fun c part => part <+: c.data ∧
    (c.complete = true → part = c.data))
      done (parts.map List.flatten) := List.forall₂_map_right_iff.mpr data
  have whole : port.sent.flatten = (parts.map List.flatten).flatten := by
    rw [pieces]
    exact List.flatten_flatten
  refine ⟨made, recorded, fun piece mem => ?_, ⟨_, whole, parts_data⟩, fun complete => ?_, ?_,
    fun n => read_next n port⟩
  · rw [pieces] at mem
    obtain ⟨part, inParts, inPart⟩ := List.mem_flatten.mp mem
    exact fits part inParts piece inPart
  · rw [whole, forall₂_complete parts_data complete]
  · rw [chunks]
    exact kept

structure FakeUsbDev where
  inChunks : List Bytes

instance : UsbDevice FakeUsbDev where
  bulkOut d _ := (.ok (), d)
  bulkIn d _ := match d.inChunks with
    | [] => (.error ⟨false, "Operation timed out"⟩, d)
    | chunk :: rest => (.ok chunk, ⟨rest⟩)

theorem fakeUsbDev_timeout : isTimeout ⟨false, "Operation timed out"⟩ = true := by decide +kernel

/-- A transfer is drained over two reads, and an empty one and a timeout bring nothing. -/
theorem fakeUsbDev_lossless :
    let script := [Call.read 2, .write [0x7E], .read 2, .read 1, .read 1, .read 1]
    let run := calls script (UsbPort.fresh (⟨[[1, 2, 3], [], [4]]⟩ : FakeUsbDev))
    run.1.map Called.given = [[1, 2], [], [3], [], [4], []] ∧ run.2.sent = [[0x7E]] ∧
      run.2.received = [.ok [1, 2, 3], .ok [], .ok [4], .error ⟨false, "Operation timed out"⟩] ∧
      (run.1.map Called.given).flatten ++ run.2.rx = run.2.received.flatMap brought ∧
      UsbPort.read 1 run.2 = .ok [] (final (UsbPort.read 1 run.2)) := by
  intro script run
  have ran : run = ([.read 2 (.ok [1, 2]), .wrote [0x7E] (.ok 1), .read 2 (.ok [3]),
      .read 1 (.ok []), .read 1 (.ok [4]), .read 1 (.ok [])], ⟨⟨[]⟩, [], [[0x7E]],
      [.ok [1, 2, 3], .ok [], .ok [4], .error ⟨false, "Operation timed out"⟩]⟩) := by
    simp [run, script, calls, call, UsbPort.fresh, UsbPort.write, UsbPort.writeLoop,
      UsbPort.devWrite, UsbPort.read, UsbPort.devRead, UsbDevice.bulkIn, UsbDevice.bulkOut,
      fakeUsbDev_timeout, bind, EStateM.bind, pure, EStateM.pure, maxEpChunk]
  obtain ⟨-, -, -, -, -, queue, next⟩ :=
    usbPort_lossless (⟨[[1, 2, 3], [], [4]]⟩ : FakeUsbDev) script
  refine ⟨by rw [ran]; rfl, by rw [ran], by rw [ran], queue, (next 1).2.2.2.1.mpr ?_⟩
  change run.2.rx = [] ∧ Silent (UsbDevice.bulkIn run.2.dev 4096).1
  rw [ran]
  exact ⟨rfl, fakeUsbDev_timeout⟩

end Transfers

end SprdFlash.UsbTransport
