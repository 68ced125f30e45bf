import SprdFlash.Endings
import SprdFlash.Package
import SprdFlash.PacImage

/-!
The exit code of a flash. `main` names four families of exceptions, two of which come
from the device as well as from the package and the search for a port: a BSL reply that
does not come is a `TimeoutError`, one that is no message is a `ValueError`.
-/

namespace SprdFlash.ExitCodes

open Message Port Pac Flasher Native Struct Script Plan Exchange Cli Endings

variable {σ : Type} [Device σ]

def openedBy : ℕ → σ → Option (σ × List Event)
  | 0, _ => none
  | attempts + 1, device => match Device.attach device with
    | (device, some events) => some (device, events)
    | (device, none) => openedBy attempts device

/-- How the flow ends on a device, if it gets as far as its port. -/
def flowEnding (path : PacFile) (options : NativeOptions) (mode : Checksum) (device : σ) :
    Option (Ending σ) :=
  match parsePac path true with
  | .error _ => none
  | .ok info => if info.crcOk = false then none else match fdl1Of info with
    | none => none
    | some fdl1 => match openedBy 200 device with
      | none => none
      | some (device, events) => some (ending (native info fdl1 path.content options) mode device
          (if Device.discards device then [] else events))

/-- A reply is at fault: it is missing, malformed or of another type. -/
def OnReply : Ending σ → Prop
  | .goesOn _ _ _ => False
  | .broken => False
  | _ => True

/-- The exit codes of `main(['flash', pac, '--port', p])` are the documented ones. -/
structure Classified (path : PacFile) (port : String) (comports : List ComPort) (s : Port σ) :
    Prop where
  four : ∀ com stop, resolvePort (some port) comports = .ok com →
    flowEnding path (nativeOptions (portArgs port) com) s.checksum s.device = some stop →
    OnReply stop → ∃ t, main path (portArgs port) comports s = .ok 4 t
  two : ∀ t, main path (portArgs port) comports s = .ok 2 t → ∀ info, ¬ Accepted path info
  three : ∀ t, main path (portArgs port) comports s = .ok 3 t →
    ∃ e, resolvePort (some port) comports = .error e

theorem crcOk_of_invalid {path : PacFile} {info : PacInfo} (invalid : ∀ info, ¬ Accepted path info)
    (parsed : parsePac path true = .ok info) : info.crcOk = false := by
  by_contra good
  exact invalid info ⟨parsed, by simpa using good⟩

section Opening

theorem openSerial_openedBy (com : String) (attempts : ℕ) (s : Port σ) :
    match openedBy attempts s.device with
    | some (device, events) => openSerial com attempts s =
        .ok () ⟨device, events, s.log ++ [.opened], s.checksum⟩
    | none => ∃ t, openSerial com attempts s = .error (.pdlError s!"could not open {com}") t := by
  induction attempts generalizing s with
  | zero => exact ⟨s, rfl⟩
  | succ attempts ih =>
    rw [openedBy, openSerial]
    rcases tried : Device.attach s.device with ⟨device, _ | events⟩
    · have refused : attach (.osError "could not open port") s =
          .error (.osError "could not open port") { s with device } := by
        rw [attach, tried]
      simp only [refused]
      exact ih { s with device }
    · have opened : attach (.osError "could not open port") s =
          .ok () ⟨device, events, s.log ++ [.opened], s.checksum⟩ := by
        rw [attach, tried]
      simp only [opened]

omit [Device σ] in
theorem closing_ends {x : Session σ Unit} {s : Port σ} {stop : Ending σ} (h : Ends x s stop) :
    Ends (closing x) s stop := by
  rcases ends_or_raises h with ⟨mode, device, pending, log, rfl, returned⟩ |
    ⟨-, e, t, failed, again⟩
  · exact ⟨_, by rw [closing, returned]⟩
  · exact again _ s _ (by rw [closing, failed])

def openingTexts (com : String) : List String :=
  ["no FDL1 (HOST_FDL) stage in the PAC", s!"could not open {com}"]

theorem nativeFlash_ends {path : PacFile} {info : PacInfo} (accepted : Accepted path info)
    (options : NativeOptions) (s : Port σ) :
    match flowEnding path options s.checksum s.device with
    | some stop => Ends (nativeFlash path options) s stop
    | none => ∃ msg ∈ openingTexts options.com, ∃ t,
        nativeFlash path options s = .error (.pdlError msg) t := by
  rw [flowEnding, accepted.parsed]
  simp only [accepted.crcOk, Bool.true_eq_false, if_false]
  cases found : fdl1Of info with
  | none => exact ⟨_, List.mem_cons_self, s, nativeFlash_loaderless accepted found options s⟩
  | some fdl1 =>
    have opens := openSerial_openedBy options.com 200 s
    rw [nativeFlash_eq accepted found]
    rcases opened : openedBy 200 s.device with _ | ⟨device, events⟩
    · rw [opened] at opens
      obtain ⟨t, failed⟩ := opens
      exact ⟨_, List.mem_cons_of_mem _ List.mem_cons_self, t, bind_error failed⟩
    · rw [opened] at opens
      let input := if Device.discards device then [] else events
      have cleared : resetInputBuffer ⟨device, events, s.log ++ [.opened], s.checksum⟩ =
          .ok () ⟨device, input, s.log ++ [.opened], s.checksum⟩ := rfl
      have flow := perform_ends (sober_native info fdl1 path.content options)
        ⟨device, input, s.log ++ [.opened], s.checksum⟩
      exact ends_of_eq ((bind_ok opens).trans (bind_ok cleared)) (closing_ends flow)

theorem flowEnding_invalid {path : PacFile} (invalid : ∀ info, ¬ Accepted path info)
    (options : NativeOptions) (mode : Checksum) (device : σ) :
    flowEnding path options mode device = none := by
  rw [flowEnding]
  cases parsed : parsePac path true with
  | error e => rfl
  | ok info =>
    have bad := crcOk_of_invalid invalid parsed
    simp only [bad, if_true]

end Opening

section Codes

def handled (e : Exc) (t : Port σ) : EStateM.Result Exc (Port σ) ℕ :=
  match exitCode e with
  | some code => .ok code t
  | none => .error e t

theorem resolvePort_error {explicit : Option String} {comports : List ComPort} {e : Exc}
    (h : resolvePort explicit comports = .error e) : ∃ msg, e = .timeoutError msg := by
  unfold resolvePort at h
  split_ifs at h
  cases h
  exact ⟨_, rfl⟩

theorem main_invalid {path : PacFile} (invalid : ∀ info, ¬ Accepted path info) (port : String)
    (comports : List ComPort) (s : Port σ) :
    main path (portArgs port) comports s = .ok 2 s := by
  cases parsed : parsePac path true with
  | error e =>
    obtain ⟨msg, rfl⟩ := parsePac_error parsed
    have unread : raising (parsePac path true) s = .error (.valueError msg) s := by
      rw [parsed]
      rfl
    have failed : cmdFlash path (portArgs port) comports s = .error (.valueError msg) s :=
      bind_error unread
    rw [main, failed]
    rfl
  | ok info =>
    have bad := crcOk_of_invalid invalid parsed
    have refused := cmdFlash_parsed (portArgs port) parsed comports s
    rw [if_pos ⟨bad, rfl⟩] at refused
    rw [main, refused]

theorem main_accepted {path : PacFile} {info : PacInfo} (accepted : Accepted path info)
    (port : String) (comports : List ComPort) (s : Port σ) :
    main path (portArgs port) comports s = match resolvePort (some port) comports with
      | .error e => handled e s
      | .ok com => match nativeFlash path (nativeOptions (portArgs port) com) s with
        | .ok () t => .ok 0 t
        | .error e t => handled e t := by
  have passed := cmdFlash_parsed (portArgs port) accepted.parsed comports s
  rw [if_neg (by simp [accepted.crcOk])] at passed
  rw [main, passed]
  cases resolved : resolvePort (some port) comports with
  | error e =>
    rw [portArgs, resolved]
    rfl
  | ok com =>
    rw [portArgs, resolved]
    simp only
    cases nativeFlash path _ s with
    | ok u t => rfl
    | error e t => cases e <;> rfl

theorem classified_iff_of_code {path : PacFile} {info : PacInfo} (accepted : Accepted path info)
    {port com : String} {comports : List ComPort}
    (resolved : resolvePort (some port) comports = .ok com) {s t : Port σ} {code : ℕ}
    (run : main path (portArgs port) comports s = .ok code t) :
    Classified path port comports s ↔ code ≠ 2 ∧ code ≠ 3 ∧ ∀ stop,
      flowEnding path (nativeOptions (portArgs port) com) s.checksum s.device = some stop →
        OnReply stop → code = 4 := by
  constructor
  · intro classified
    refine ⟨?_, ?_, fun stop ends onReply => ?_⟩
    · rintro rfl
      exact classified.two t run info accepted
    · rintro rfl
      obtain ⟨e, unresolved⟩ := classified.three t run
      rw [resolved] at unresolved
      cases unresolved
    · obtain ⟨t', four⟩ := classified.four com stop resolved ends onReply
      rw [run] at four
      cases four
      rfl
  · rintro ⟨two, three, four⟩
    refine ⟨fun com' stop resolved' ends onReply => ?_, fun t' run' => ?_, fun t' run' => ?_⟩
    · cases resolved.symm.trans resolved'
      exact ⟨t, four stop ends onReply ▸ run⟩
    · rw [run] at run'
      cases run'
      exact absurd rfl two
    · rw [run] at run'
      cases run'
      exact absurd rfl three

theorem classified_iff_of_failure {path : PacFile} {info : PacInfo} (accepted : Accepted path info)
    {port com : String} {comports : List ComPort}
    (resolved : resolvePort (some port) comports = .ok com) {s t : Port σ} {e : Exc} {code : ℕ}
    (failed : nativeFlash path (nativeOptions (portArgs port) com) s = .error e t)
    (named : exitCode e = some code) :
    Classified path port comports s ↔ code ≠ 2 ∧ code ≠ 3 ∧ ∀ stop,
      flowEnding path (nativeOptions (portArgs port) com) s.checksum s.device = some stop →
        OnReply stop → code = 4 := by
  have run := main_accepted accepted port comports s
  rw [resolved] at run
  simp only [failed, handled, named] at run
  exact classified_iff_of_code accepted resolved run

/-- With a valid package and a port, the replies decide. -/
theorem accepted_classified_iff {path : PacFile} {info : PacInfo} (accepted : Accepted path info)
    {port com : String} {comports : List ComPort}
    (resolved : resolvePort (some port) comports = .ok com) (s : Port σ) :
    Classified path port comports s ↔
      flowEnding path (nativeOptions (portArgs port) com) s.checksum s.device ≠ some .missing ∧
      flowEnding path (nativeOptions (portArgs port) com) s.checksum s.device ≠
        some .malformed := by
  have codes := main_accepted accepted port comports s
  rw [resolved] at codes
  simp only at codes
  have ends := nativeFlash_ends accepted (nativeOptions (portArgs port) com) s
  rcases fate : flowEnding path (nativeOptions (portArgs port) com) s.checksum s.device with
    _ | stop
  · rw [fate] at ends
    obtain ⟨msg, -, t, failed⟩ := ends
    rw [classified_iff_of_failure accepted resolved failed rfl, fate]
    simp
  rw [fate] at ends
  simp only [Option.some.injEq, ne_eq]
  cases stop with
  | goesOn mode device pending =>
    obtain ⟨log, returned⟩ := ends
    rw [returned] at codes
    rw [classified_iff_of_code accepted resolved codes, fate]
    simp [OnReply]
  | missing =>
    obtain ⟨msg, t, failed⟩ := ends
    rw [classified_iff_of_failure accepted resolved failed rfl]
    simp
  | malformed =>
    obtain ⟨msg, t, failed⟩ := ends
    rw [classified_iff_of_failure accepted resolved failed rfl]
    simp
  | unexpected =>
    obtain ⟨msg, t, failed⟩ := ends
    rw [classified_iff_of_failure accepted resolved failed rfl]
    simp
  | unanswered =>
    obtain ⟨msg, -, t, failed⟩ := ends
    rw [classified_iff_of_failure accepted resolved failed rfl]
    simp
  | broken =>
    obtain ⟨e, t, failed, other⟩ := ends
    have left : main path (portArgs port) comports s = .error e t := by
      rw [codes, failed]
      simp only [handled, other]
    refine iff_of_true ⟨fun com' stop resolved' ends' onReply => ?_, fun t' run => ?_,
      fun t' run => ?_⟩ (by simp)
    · cases resolved.symm.trans resolved'
      rw [fate] at ends'
      cases ends'
      exact onReply.elim
    · rw [left] at run
      cases run
    · rw [left] at run
      cases run

/-- The exit codes are right as long as no reply of a BSL exchange is missing or
malformed. -/
theorem exits_classified_iff (path : PacFile) (port : String) (comports : List ComPort)
    (s : Port σ) :
    Classified path port comports s ↔ ∀ com, resolvePort (some port) comports = .ok com →
      flowEnding path (nativeOptions (portArgs port) com) s.checksum s.device ≠ some .missing ∧
      flowEnding path (nativeOptions (portArgs port) com) s.checksum s.device ≠
        some .malformed := by
  by_cases valid : ∃ info, Accepted path info
  · obtain ⟨info, accepted⟩ := valid
    cases resolved : resolvePort (some port) comports with
    | error e =>
      obtain ⟨msg, rfl⟩ := resolvePort_error resolved
      have code := main_accepted accepted port comports s
      rw [resolved] at code
      refine iff_of_true ⟨by simp [resolved], fun t two => ?_, fun t three => ⟨_, resolved⟩⟩
        (by simp)
      rw [code] at two
      cases two
    | ok com =>
      rw [accepted_classified_iff accepted resolved s]
      exact ⟨fun fine com' same => by cases same; exact fine, fun fine => fine com rfl⟩
  · have invalid : ∀ info, ¬ Accepted path info := fun info accepted => valid ⟨info, accepted⟩
    have code := main_invalid invalid port comports s
    have never : ∀ options mode (device : σ), flowEnding path options mode device = none :=
      flowEnding_invalid invalid
    refine iff_of_true ⟨by simp [never], fun t two => invalid, fun t three => ?_⟩ (by simp [never])
    rw [code] at three
    cases three

end Codes

section Garble

open PacImage Package

def ready : List Event :=
  [0xAE, 0x04, 0x00, 0x00, 0x00, 0xFF, 0x00, 0x00, 0x00, 0x00, 0x00, 0x00].map .byte

def verFrame : List Event := [0x7E, 0x00, 0x81, 0x00, 0x01, 0x31, 0xCE, 0x7D, 0x5D, 0x7E].map .byte

def cutAck : List Event := [0x7E, 0x00, 0x80, 0x7E].map .byte

/-- A module that loads and starts FDL1, and garbles its reply to CONNECT. -/
def garbling : Port Tape :=
  Port.fresh ⟨[[], ready, [], ready, [], ready, [], ready, [], [], verFrame, cutAck]⟩

theorem request_ready {cmd : Pdl.Command} {arg1 arg2 : ℕ} {extra : Bytes}
    (fits : Packable arg1 arg2 extra) (mode : Checksum) (rest : List (List Event)) :
    met (.request cmd arg1 arg2 extra) mode (⟨[] :: ready :: rest⟩ : Tape) [] =
      .goesOn mode ⟨rest⟩ [] := by
  have read : Pdl.recvLoop [] ready = (.ok (0, [0x00, 0x00, 0x00, 0x00]), []) := by
    simp [ready, Pdl.recvLoop, readUpTo, Pdl.pdlMagic, unpack, fromOctets]
  rw [met, if_neg (not_not.mpr fits)]
  simp only [pdlWrites, Device.onWrite, List.append_nil, List.nil_append, read]

theorem handOver_ready (mode : Checksum) (rest : List (List Event)) :
    met .handOver mode (⟨[] :: [] :: verFrame :: rest⟩ : Tape) [] = .goesOn mode ⟨rest⟩ [] := by
  have heard : Pdl.listen [] verFrame =
      (.ok (.inl [0x7E, 0x00, 0x81, 0x00, 0x01, 0x31, 0xCE, 0x7D, 0x5D, 0x7E]), []) := by
    simp [verFrame, Pdl.listen, readUpTo, Pdl.verFrame, hdlcFlag]
  have parsed : parseMessage
      (verBody [0x7E, 0x00, 0x81, 0x00, 0x01, 0x31, 0xCE, 0x7D, 0x5D, 0x7E]) =
        .ok (0x81, [0x31]) := rfl
  simp only [met, pdlWrites, Device.onWrite, List.append_nil, List.nil_append, kicked,
    heard, parsed]

theorem garbling_malformed :
    flowEnding (package 2) (nativeOptions (portArgs "COM34") "COM34") .sprd garbling.device =
      some .malformed := by
  have small : 2 < 2 ^ 32 := by decide
  obtain ⟨info, accepted, entries⟩ := package_accepted small
  have image : Native.readEntry (package 2).content (entry hostFdl 0x00838000 (payloadOffset 3) 2) =
      [0x11, 0x12] := readAt_image "package.pac" (package_layable small) 0 2
  have blocks : Pdl.blocks [0x11, 0x12] = [(0, [0x11, 0x12])] := rfl
  have opened : openedBy 200 garbling.device = some (garbling.device, []) := rfl
  obtain ⟨rest, steps⟩ : ∃ rest, native info (entry hostFdl 0x00838000 (payloadOffset 3) 2)
      (package 2).content (nativeOptions (portArgs "COM34") "COM34") =
        .request .connect 0 0 [] ::
        .request .startData 0x00838000 2 [0x50, 0x44, 0x4C, 0x31, 0x00] ::
        .request .midstData 0 2 [0x11, 0x12] ::
        .request .endData 0 0 (fields .little 4 [0]) ::
        .handOver :: .setChecksum .sprd :: .command bslCmdConnect [] "CONNECT" :: rest := by
    rw [native, image, loader_eq, blocks, bslWrites]
    exact ⟨_, rfl⟩
  have switched : met (.setChecksum .sprd) .sprd (⟨[cutAck]⟩ : Tape) [] =
      .goesOn .sprd ⟨[cutAck]⟩ [] := rfl
  have garbled : met (.command bslCmdConnect [] "CONNECT") .sprd (⟨[cutAck]⟩ : Tape) [] =
      .malformed := rfl
  rw [flowEnding, accepted.parsed]
  simp only [accepted.crcOk, Bool.true_eq_false, if_false, package_fdl1 entries, opened, steps]
  simp (disch := decide) only [ending, garbling, Port.fresh, ite_self, request_ready,
    handOver_ready, switched, garbled]

theorem garbling_misclassified : ¬ Classified (package 2) "COM34" [] garbling := by
  have small : 2 < 2 ^ 32 := by decide
  obtain ⟨info, accepted, -⟩ := package_accepted small
  have resolved : resolvePort (some "COM34") [] = .ok "COM34" := rfl
  rw [accepted_classified_iff accepted resolved]
  exact fun fine => fine.2 garbling_malformed

end Garble

end SprdFlash.ExitCodes
