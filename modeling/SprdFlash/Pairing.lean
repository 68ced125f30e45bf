import SprdFlash.Line
import SprdFlash.HandOver

/-!
What CONNECT finds behind a handshake. The host repeats its flag while answers
are under way, and the device answers each; it stops at the first version frame,
with the later ones unread. CONNECT reads its own ACK exactly when no whole frame
of them is left.
-/

namespace SprdFlash.Pairing

open Message Port SpdIO Script Exchange Stuffing Handshake Acknowledging Line

/-- One VER frame for each lone flag, one ACK for each CONNECT, nothing for the
EXEC in front of them. -/
class Greeter (α : Type) [Agent α] : Prop where
  flag : ∀ a : α, ∃ v : Bytes × Checksum, v.1.length < 65536 ∧
    (Agent.respond a [hdlcFlag]).2 = wireMessage bslRepVer v.1 v.2
  connect : ∀ (a : α) (mode : Checksum), ∃ reply : Bytes × Checksum, reply.1.length < 65536 ∧
    (Agent.respond a (wireMessage bslCmdConnect [] mode)).2 = wireMessage bslRepAck reply.1 reply.2
  exec : ∀ (a : α) (bs : Bytes), bs ∈ [pdlHeader 12, pdlPayload .exec 0 0 []] →
    (Agent.respond a bs).2 = []

inductive Greeting
  | autobaud (attempts : ℕ)
  | exec (timeoutMs : ℕ)

variable {α : Type} [Agent α]

def Greeting.session : Greeting → Session (Slow α) Bytes
  | .autobaud attempts => SpdIO.autobaud attempts
  | .exec timeoutMs => Pdl.execAndGetVer timeoutMs

/-- The same port and device, with the time to come left open. -/
structure Retimed (t t' : Port (Slow α)) : Prop where
  agent : t'.device.agent = t.device.agent
  stream : outstanding t' = outstanding t
  checksum : t'.checksum = t.checksum
  log : t'.log = t.log
  faultless : Faultless t'

/-- Whatever reply `connect` reads is the answer to its own CONNECT, and no
ProtocolError is raised. -/
def Paired (t : Port (Slow α)) : Prop :=
  (∃ acts, (final (connect t)).log = t.log ++ acts ∧ ∀ body, .reply body ∈ acts →
      enclose hdlc (escape hdlc body) =
        (Agent.respond t.device.agent (wireMessage bslCmdConnect [] t.checksum)).2) ∧
    ∀ msg u, connect t ≠ .error (.protocolError msg) u

section Exec

omit [Agent α] in
theorem listen_suffix (buf : Bytes) (events : List Event) :
    (Pdl.listen buf events).2 <:+ events := by
  induction buf, events using Pdl.listen.induct with
  | case1 buf =>
    rw [Pdl.listen]
  | case2 buf rest =>
    rw [Pdl.listen]
    exact List.suffix_cons _ rest
  | case3 buf rest =>
    rw [Pdl.listen]
    exact List.suffix_cons _ rest
  | case4 buf rest =>
    rw [Pdl.listen]
    exact List.suffix_cons _ rest
  | case5 buf rest ih =>
    rw [Pdl.listen]
    exact ih.trans (List.suffix_cons _ rest)
  | case6 buf b rest unread _ read =>
    have suffix := readUpTo_suffix 64 (.byte b :: rest)
    rw [read] at suffix
    rw [listen_fault buf b rest unread read]
    exact suffix
  | case7 buf b rest bytes unread _ read ver found =>
    have suffix := readUpTo_suffix 64 (.byte b :: rest)
    rw [read] at suffix
    rw [listen_byte buf b rest unread read, found]
    exact suffix
  | case8 buf b rest bytes unread _ read none ih =>
    have suffix := readUpTo_suffix 64 (.byte b :: rest)
    rw [read] at suffix
    rw [listen_byte buf b rest unread read, none]
    exact ih.trans suffix

omit [Agent α] in
theorem hear_behind (buf : Bytes) (s : Port (Slow α)) : Behind s (final (Pdl.hear buf s)) := by
  have suffix := listen_suffix buf s.pending
  rw [Pdl.hear]
  rcases run : Pdl.listen buf s.pending with ⟨e | heard, rest⟩
  · rw [run] at suffix
    exact ⟨rfl, suffix, rfl⟩
  · rw [run] at suffix
    exact ⟨rfl, suffix, rfl⟩

variable {Here : α → Prop} {Kind : Bytes × Checksum → Prop}

/-- By induction on the flags that can still be sent. -/
theorem kickLoop_line (G : Greets Here Kind) (kicks : ℕ) (buf : Bytes) {s t : Port (Slow α)}
    {ver : Bytes} (h : Greeted Here Kind s) (run : Pdl.kickLoop kicks buf s = .ok ver t) :
    Greeted Here Kind t := by
  induction kicks generalizing buf s with
  | zero => cases run
  | succ kicks ih =>
    obtain ⟨s₁, sent, asked, -⟩ := G.ask h
    rw [Pdl.kickLoop, bind_ok sent] at run
    obtain ⟨heard, s₂, hear, rest⟩ := bind_eq_ok run
    have behind := hear_behind buf s₁
    rw [hear] at behind
    cases heard with
    | inl ver' =>
      cases rest
      exact asked.behind behind
    | inr buf' => exact ih buf' (asked.behind behind) rest

end Exec

section Pairs

variable [Greeter α]

def Fits (v : Bytes × Checksum) : Prop := v.1.length < 65536

theorem greets : Greets (fun _ : α => True) Fits where
  small _ fits := fits
  flag a _ := by
    obtain ⟨v, fits, answer⟩ := Greeter.flag a
    exact ⟨trivial, [v], by rwa [List.forall_mem_singleton], answer.trans (List.append_nil _).symm⟩

def asked (s : Port (Slow α)) : ℕ := s.log.count (.wrote [hdlcFlag])

omit [Agent α] [Greeter α] in
theorem asked_append {s t : Port (Slow α)} {acts : List Act} (log : t.log = s.log ++ acts)
    (others : .wrote [hdlcFlag] ∉ acts) : asked t = asked s := by
  rw [asked, asked, log, List.count_append, List.count_eq_zero.mpr others, Nat.add_zero]

theorem exec_kicks {timeoutMs : ℕ} {s t : Port (Slow α)} {ver : Bytes} (faultless : Faultless s)
    (run : Pdl.execAndGetVer timeoutMs s = .ok ver t) :
    ∃ s', Pdl.kickLoop (timeoutMs / 50) [] s' = .ok ver t ∧ Faultless s' ∧
      outstanding s' = outstanding s ∧ asked s' = asked s := by
  obtain ⟨s₁, header, faultless₁, stream₁, -, -, log₁, -⟩ := write_line (pdlHeader 12) faultless
  obtain ⟨s₂, body, faultless₂, stream₂, -, -, log₂, -⟩ :=
    write_line (pdlPayload .exec 0 0 []) faultless₁
  rw [Greeter.exec _ _ List.mem_cons_self, List.append_nil] at stream₁
  rw [Greeter.exec _ _ (List.mem_cons_of_mem _ List.mem_cons_self), List.append_nil] at stream₂
  have sent : Pdl.send (pdlPayload .exec 0 0 []) s = .ok () s₂ := by
    rw [pdlSend_eq (by decide)]
    exact (bind_ok header).trans body
  rw [execAndGetVer_eq, bind_ok sent] at run
  exact ⟨s₂, run, faultless₂, stream₂.trans stream₁,
    (asked_append log₂ (by decide)).trans (asked_append log₁ (by decide))⟩

/-- Behind either handshake nothing but version frames is left. -/
theorem handshake_line (greeting : Greeting) {s t : Port (Slow α)} {ver : Bytes}
    (faultless : Faultless s) (nothing : outstanding s = [])
    (run : greeting.session s = .ok ver t) : Greeted (fun _ => True) Fits t := by
  have start : Greeted (fun _ => True) Fits s := ⟨faultless, trivial, [], by simp, .inl nothing⟩
  cases greeting with
  | autobaud attempts =>
    have line := autobaudFrom_line greets attempts attempts start
    have run' : autobaudFrom attempts attempts s = .ok ver t := run
    rw [run'] at line
    exact line.1
  | exec timeoutMs =>
    obtain ⟨s', kicked, faultless', stream, -⟩ := exec_kicks faultless run
    exact kickLoop_line greets _ _ ⟨faultless', trivial, [], by simp, .inl (stream.trans nothing)⟩
      kicked

theorem paired_of_none {t : Port (Slow α)} (faultless : Faultless t)
    (tail : Tail hdlc (wires []) (outstanding t)) : Paired t := by
  obtain ⟨reply, fits, answer⟩ := Greeter.connect t.device.agent t.checksum
  have line := command_line (show Framable bslCmdConnect [] by decide) "CONNECT" faultless
    (fun v hv => absurd hv List.not_mem_nil) tail fits answer
  cases run : command bslCmdConnect [] bslRepAck "CONNECT" t with
  | ok rdata u =>
    have connected : connect t = .ok () u := bind_ok run
    rw [run] at line
    obtain ⟨-, -, -, -, -, -, log⟩ := line
    refine ⟨⟨_, by rw [connected]; exact log, ?_⟩, by simp [connected]⟩
    intro body hbody
    simp only [List.mem_cons, List.not_mem_nil, or_false, reduceCtorEq, false_or,
      Act.reply.injEq] at hbody
    rw [hbody, answer]
    rfl
  | error e u =>
    have failed : connect t = .error e u := bind_error run
    rw [run] at line
    obtain ⟨-, ⟨⟨msg, rfl⟩, log⟩ | ⟨-, v, rest, none, -⟩⟩ := line
    · exact ⟨⟨_, by rw [failed]; exact log, by simp⟩, by simp [failed]⟩
    · cases none

def prompt (t : Port (Slow α)) : Port (Slow α) :=
  let answer := (Agent.respond t.device.agent (wireMessage bslCmdConnect [] t.checksum)).2
  ⟨⟨t.device.agent, outstanding t, [List.replicate (outstanding t ++ answer).length .arrive],
    t.device.heard⟩, [], t.log, t.checksum⟩

omit [Agent α] [Greeter α] in
theorem play_arrive (owed : Bytes) :
    play (List.replicate owed.length .arrive) owed = (owed.map .byte, []) := by
  induction owed with
  | nil => rfl
  | cons b owed ih => rw [List.length_cons, List.replicate_succ, play, ih, List.map_cons]

theorem prompt_refused {t : Port (Slow α)} {v : Bytes × Checksum} {vs : List (Bytes × Checksum)}
    (fits : Fits v) (tail : Tail hdlc (wires (v :: vs)) (outstanding t)) :
    ∃ u, connect (prompt t) = .error (refusal "CONNECT" bslRepVer) u := by
  obtain ⟨reply, -, answer⟩ := Greeter.connect t.device.agent t.checksum
  have arrives := play_arrive (outstanding t ++
    (Agent.respond t.device.agent (wireMessage bslCmdConnect [] t.checksum)).2)
  obtain ⟨u, run, stream⟩ : ∃ u, send bslCmdConnect [] (prompt t) = .ok () u ∧ u.pending =
      (outstanding t ++ wireMessage bslRepAck reply.1 reply.2).map .byte := by
    rw [send_framable (by decide)]
    refine ⟨_, rfl, ?_⟩
    rw [← answer]
    exact congrArg Prod.fst arrives
  have live : Live u.pending := by
    rw [stream]
    intro ev hev
    obtain ⟨b, -, rfl⟩ := List.mem_map.mp hev
    simp
  have found : next hdlc .seeking (received u.pending) =
      some (escape hdlc (verBody v), Stuffing.stream hdlc
        (wires vs ++ [escape hdlc (ackBody reply)])) := by
    rw [stream, received_bytes, ack_stream]
    exact (tail.append [escape hdlc (ackBody reply)]).next (ack_clean (v :: vs) reply)
  obtain ⟨after, read, -⟩ := Framing.readFrame_next live found
  have whole : hdlcUnescape (escape hdlc (verBody v)) = verBody v := hdlcUnescape_escape _
  have parsed : parseMessage (verBody v) = .ok (bslRepVer, v.1) :=
    parseMessage_messageBody (by decide) fits v.2
  obtain ⟨u', refused⟩ : ∃ u', command bslCmdConnect [] bslRepAck "CONNECT" (prompt t) =
      .error (refusal "CONNECT" bslRepVer) u' := by
    rw [command_read run "CONNECT", read]
    simp only [whole, parsed]
    exact ⟨_, if_neg (by decide)⟩
  exact ⟨u', bind_error refused⟩

/-- CONNECT is paired with its own ACK exactly when at most the end of a version
frame is left unread. -/
theorem connect_paired_iff (greeting : Greeting) {s t : Port (Slow α)} {ver : Bytes}
    (faultless : Faultless s) (nothing : outstanding s = [])
    (run : greeting.session s = .ok ver t) :
    (∀ t', Retimed t t' → Paired t') ↔ (outstanding t).count hdlcFlag ≤ 1 := by
  obtain ⟨faultless', -, vs, fits, tail⟩ := handshake_line greeting faultless nothing run
  have none_left := tail.count_le_one_iff (wires_clean vs)
  constructor
  · intro paired
    have retimed : Retimed t (prompt t) :=
      ⟨rfl, by simp [outstanding, prompt], rfl, rfl, by simp [Faultless, prompt]⟩
    cases vs with
    | nil => exact none_left.mpr rfl
    | cons v vs =>
      obtain ⟨u, refused⟩ := prompt_refused (fits v List.mem_cons_self) tail
      exact absurd refused ((paired _ retimed).2 _ u)
  · intro few t' retimed
    have nil := none_left.mp few
    rw [nil, ← retimed.stream] at tail
    exact paired_of_none retimed.faultless tail

section Single

/-- Flags that come with new answers apart, at least so many have been read. -/
def Reads (n : ℕ) (s t : Port (Slow α)) : Prop :=
  (outstanding t).count hdlcFlag + n + 2 * asked s ≤ (outstanding s).count hdlcFlag + 2 * asked t

theorem ask_reads {s : Port (Slow α)} (faultless : Faultless s) :
    ∃ t, write [hdlcFlag] s = .ok () t ∧ Faultless t ∧ Reads 0 s t := by
  obtain ⟨t, run, faultless', stream, -, -, log, -⟩ := write_line [hdlcFlag] faultless
  obtain ⟨v, -, answer⟩ := Greeter.flag s.device.agent
  have flags : (wireMessage bslRepVer v.1 v.2).count hdlcFlag = 2 := by
    have whole := count_stream (wires_clean [v])
    rwa [show Stuffing.stream hdlc (wires [v]) = wireMessage bslRepVer v.1 v.2 from
      List.append_nil _] at whole
  refine ⟨t, run, faultless', ?_⟩
  rw [Reads, asked, asked, stream, answer, log, List.count_append, List.count_append, flags,
    List.count_singleton_self]
  omega

omit [Agent α] [Greeter α] in
theorem Behind.reads {s t : Port (Slow α)} (behind : Behind s t) (same : asked t = asked s) :
    Reads 0 s t := by
  have fewer := behind.outstanding_suffix.sublist.count_le hdlcFlag
  rw [Reads, same]
  omega

omit [Agent α] [Greeter α] in
theorem readFrame_reads {s t : Port (Slow α)} {body : Bytes} (faultless : Faultless s)
    (run : readFrame s = .ok body t) : Behind s t ∧ Reads 2 s t := by
  have read := readFrame_line faultless
  rw [run] at read
  obtain ⟨behind, log, w, found, -⟩ := read
  obtain ⟨-, gap, n, -, split⟩ := next_eq_some hdlc found
  have flags : (outstanding t).count hdlcFlag + 2 ≤ (outstanding s).count hdlcFlag := by
    have whole := congrArg (List.count hdlcFlag) split
    simp only [hdlc, List.count_append, List.count_replicate_self, List.count_cons_self] at whole
    omega
  refine ⟨behind, ?_⟩
  rw [Reads, asked_append log (by simp)]
  omega

theorem autobaudFrom_reads (total attempts : ℕ) {s t : Port (Slow α)} {ver : Bytes}
    (faultless : Faultless s) (run : autobaudFrom total attempts s = .ok ver t) : Reads 2 s t := by
  induction attempts generalizing s with
  | zero => cases run
  | succ attempts ih =>
    obtain ⟨s₁, sent, faultless₁, first⟩ := ask_reads faultless
    have read := readFrame_line faultless₁
    rw [autobaudFrom_write total attempts sent] at run
    cases frame : readFrame s₁ with
    | error e s₂ =>
      rw [frame] at read run
      obtain ⟨behind, log, msg, rfl⟩ := read
      have second := Behind.reads behind (show asked s₂ = asked s₁ by rw [asked, asked, log])
      have third := ih (behind.faultless faultless₁) run
      unfold Reads at first second third ⊢
      omega
    | ok body s₂ =>
      obtain ⟨behind, second⟩ := readFrame_reads faultless₁ frame
      rw [frame] at run
      cases found : version body with
      | some data =>
        simp only [found] at run
        cases run
        have same : asked { s₂ with
            log := s₂.log ++ [.version ver]
            checksum := (detectChecksum body).getD s₂.checksum } = asked s₂ :=
          asked_append rfl (by simp)
        unfold Reads at first second ⊢
        rw [same]
        exact (show (outstanding s₂).count hdlcFlag + 2 + 2 * asked s ≤
          (outstanding s).count hdlcFlag + 2 * asked s₂ by omega)
      | none =>
        simp only [found] at run
        have third := ih (behind.faultless faultless₁) run
        unfold Reads at first second third ⊢
        omega

omit [Agent α] [Greeter α] in
theorem verFrame_flags {buf ver : Bytes} (h : Pdl.verFrame buf = some ver) :
    2 ≤ buf.count hdlcFlag := by
  rw [HandOver.verFrame_eq, Option.map_eq_some_iff] at h
  obtain ⟨w, found, -⟩ := h
  obtain ⟨-, gap, rest, -, rfl⟩ := HandOver.between_eq_some.mp found
  simp only [List.count_append, List.count_cons_self]
  omega

omit [Agent α] [Greeter α] in
theorem listen_flags (buf : Bytes) (events : List Event) :
    match Pdl.listen buf events with
    | (.ok (.inl _), rest) => (received rest).count hdlcFlag + 2 ≤
        buf.count hdlcFlag + (received events).count hdlcFlag
    | (.ok (.inr buf'), rest) => buf'.count hdlcFlag + (received rest).count hdlcFlag =
        buf.count hdlcFlag + (received events).count hdlcFlag
    | (.error _, _) => True := by
  induction buf, events using Pdl.listen.induct with
  | case1 buf =>
    rw [Pdl.listen]
    trivial
  | case2 buf rest =>
    rw [Pdl.listen]
    trivial
  | case3 buf rest =>
    rw [Pdl.listen]
    trivial
  | case4 buf rest =>
    rw [Pdl.listen]
    rfl
  | case5 buf rest ih =>
    rw [Pdl.listen, received_idle]
    exact ih
  | case6 buf b rest unread _ read =>
    rw [listen_fault buf b rest unread read]
    trivial
  | case7 buf b rest bytes unread _ read ver found =>
    have two := verFrame_flags found
    rw [List.count_append] at two
    rw [listen_byte buf b rest unread read, readUpTo_received read, List.count_append, found]
    simp only
    omega
  | case8 buf b rest bytes unread _ read none ih =>
    rw [listen_byte buf b rest unread read, readUpTo_received read, List.count_append,
      ← Nat.add_assoc, ← List.count_append, none]
    exact ih

theorem kickLoop_reads (kicks : ℕ) (buf : Bytes) {s t : Port (Slow α)} {ver : Bytes}
    (faultless : Faultless s) (run : Pdl.kickLoop kicks buf s = .ok ver t) :
    (outstanding t).count hdlcFlag + 2 + 2 * asked s ≤
      buf.count hdlcFlag + (outstanding s).count hdlcFlag + 2 * asked t := by
  induction kicks generalizing buf s with
  | zero => cases run
  | succ kicks ih =>
    obtain ⟨s₁, sent, faultless₁, first⟩ := ask_reads faultless
    rw [Pdl.kickLoop, bind_ok sent] at run
    obtain ⟨heard, s₂, hear, rest⟩ := bind_eq_ok run
    have behind := hear_behind buf s₁
    have flags := listen_flags buf s₁.pending
    rw [hear] at behind
    rw [Pdl.hear] at hear
    rcases listened : Pdl.listen buf s₁.pending with ⟨e | heard', unread⟩
    · rw [listened] at hear
      cases hear
    · rw [listened] at hear flags
      cases hear
      have whole (u : Port (Slow α)) : (outstanding u).count hdlcFlag =
          (received u.pending).count hdlcFlag + u.device.owed.count hdlcFlag := List.count_append
      have before := whole s₁
      have after := whole { s₁ with pending := unread }
      cases heard with
      | inl ver' =>
        cases rest
        have same : asked { s₁ with pending := unread } = asked s₁ := rfl
        unfold Reads at first
        simp only at flags after
        omega
      | inr buf' =>
        have later := ih (s := { s₁ with pending := unread }) buf'
          (behind.faultless faultless₁) rest
        have same : asked { s₁ with pending := unread } = asked s₁ := rfl
        unfold Reads at first
        simp only at flags after
        omega

/-- The frames left behind are answers to flags repeated: behind a single flag
there are none. -/
theorem single_flag (greeting : Greeting) {s t : Port (Slow α)} {ver : Bytes}
    (faultless : Faultless s) (nothing : outstanding s = [])
    (run : greeting.session s = .ok ver t) (once : asked t = asked s + 1) :
    (outstanding t).count hdlcFlag = 0 := by
  cases greeting with
  | autobaud attempts =>
    have reads := autobaudFrom_reads attempts attempts faultless run
    rw [Reads, nothing, List.count_nil] at reads
    omega
  | exec timeoutMs =>
    obtain ⟨s', kicked, faultless', stream, same⟩ := exec_kicks faultless run
    have reads := kickLoop_reads _ _ faultless' kicked
    rw [same, stream, nothing, List.count_nil] at reads
    omega

end Single

end Pairs

section Acker

instance : Agent Acker := ⟨fun d bs => (d, Acker.answer bs)⟩

instance : Greeter Acker where
  flag a := ⟨([0x31, 0x2E, 0x30], .sprd), by decide, rfl⟩
  connect a mode := by
    refine ⟨([], .sprd), by decide, ?_⟩
    change Acker.answer _ = _
    rw [Acker.answer, WireLog.decodeWrite_wireMessage (by decide)]
    rfl
  exec a bs hbs := by
    change Acker.answer _ = _
    simp only [List.mem_cons, List.not_mem_nil, or_false] at hbs
    rcases hbs with rfl | rfl
    · rfl
    · rw [Acker.answer, WireLog.decodeWrite_pdlPayload .exec (by decide)]
      rfl

/-- Nothing arrives in the time of the first flag, and one frame in that of the second. -/
def hasty : Port (Slow Acker) :=
  Port.fresh ⟨.mk, [], [[], List.replicate 11 .arrive, List.replicate 22 .arrive], []⟩

theorem hasty_refused (total attempts : ℕ) : ∃ ver t u,
    autobaudFrom total (attempts + 2) hasty = .ok ver t ∧ Faultless t ∧
      connect t = .error (refusal "CONNECT" bslRepVer) u := by
  rw [autobaudFrom_succ]
  change ∃ ver t u, autobaudFrom total (attempts + 1) _ = _ ∧ _
  rw [autobaudFrom_succ]
  exact ⟨_, _, _, rfl, play_faultless _ _, rfl⟩

theorem hasty_unpaired : ¬ ∀ ver t, (Greeting.autobaud 200).session hasty = .ok ver t →
    ∀ t', Retimed t t' → Paired t' := by
  intro paired
  obtain ⟨ver, t, u, run, faultless, refused⟩ := hasty_refused 200 198
  exact (paired ver t run t ⟨rfl, rfl, rfl, rfl, faultless⟩).2 _ u refused

/-- The answer to the first flag arrives in its time. -/
def timely : Port (Slow Acker) := Port.fresh ⟨.mk, [], [List.replicate 11 .arrive], []⟩

theorem timely_paired : ∃ ver t, (Greeting.autobaud 200).session timely = .ok ver t ∧
    ∀ t', Retimed t t' → Paired t' := by
  obtain ⟨ver, t, run, left⟩ : ∃ ver t, autobaudFrom 200 (199 + 1) timely = .ok ver t ∧
      (outstanding t).count hdlcFlag ≤ 1 := by
    rw [autobaudFrom_succ]
    exact ⟨_, _, rfl, by decide⟩
  exact ⟨ver, t, run, (connect_paired_iff (.autobaud 200) (by decide) rfl run).mpr left⟩

end Acker

end SprdFlash.Pairing
