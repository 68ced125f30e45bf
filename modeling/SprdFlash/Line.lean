import SprdFlash.Handshake
import SprdFlash.Exchange

/-!
A device behind a slow line. Its agent answers each write; the answers wait on
the line, in order, and a schedule says how much of them arrives, and what the
clock does, before the next write. A write hands over the events up to the next
one, so a schedule fixes one interleaving of retries, timeouts and arrivals. What
is on the line and what lies unread in the port form one stream, of which every
read takes a first part.
-/

namespace SprdFlash.Line

open Message Port SpdIO Script Exchange Stuffing Framing Handshake

class Agent (α : Type) where
  respond : α → Bytes → α × Bytes

/-- One byte arrives, or something on the clock passes. -/
inductive Tick
  | arrive
  | idle
  | late
  | expired
  deriving DecidableEq, Repr

/-- The events of a schedule, and what is still on the line after it. -/
def play : List Tick → Bytes → List Event × Bytes
  | [], owed => ([], owed)
  | .arrive :: ticks, [] => play ticks []
  | .arrive :: ticks, b :: owed => (.byte b :: (play ticks owed).1, (play ticks owed).2)
  | .idle :: ticks, owed => (.idle :: (play ticks owed).1, (play ticks owed).2)
  | .late :: ticks, owed => (.late :: (play ticks owed).1, (play ticks owed).2)
  | .expired :: ticks, owed => (.expired :: (play ticks owed).1, (play ticks owed).2)

/-- The record keeps what was heard, and the agent that heard it. -/
structure Slow (α : Type) where
  agent : α
  owed : Bytes
  schedule : List (List Tick)
  heard : List (α × Bytes)

variable {α : Type}

instance [Agent α] : Device (Slow α) where
  attach line := (line, some [])
  discards _ := true
  onWrite line bs :=
    let (agent, answer) := Agent.respond line.agent bs
    let (events, owed) := play (line.schedule.headD []) (line.owed ++ answer)
    some (⟨agent, owed, line.schedule.tail, line.heard ++ [(line.agent, bs)]⟩, events)

theorem play_stream (ticks : List Tick) (owed : Bytes) :
    received (play ticks owed).1 ++ (play ticks owed).2 = owed := by
  fun_induction play ticks owed with
  | case1 => rfl
  | case2 ticks ih => exact ih
  | case3 ticks b owed ih => rw [received_byte, List.cons_append, ih]
  | case4 ticks owed ih => exact ih
  | case5 ticks owed ih => exact ih
  | case6 ticks owed ih => exact ih

theorem play_faultless (ticks : List Tick) (owed : Bytes) : .fault ∉ (play ticks owed).1 := by
  fun_induction play ticks owed with
  | case1 => simp
  | case2 ticks ih => exact ih
  | case3 ticks b owed ih => simpa using ih
  | case4 ticks owed ih => simpa using ih
  | case5 ticks owed ih => simpa using ih
  | case6 ticks owed ih => simpa using ih

/-- What the device has sent and the host has not read. -/
def outstanding (s : Port (Slow α)) : Bytes := received s.pending ++ s.device.owed

def Faultless (s : Port (Slow α)) : Prop := .fault ∉ s.pending

instance (s : Port (Slow α)) : Decidable (Faultless s) := inferInstanceAs (Decidable (_ ∉ _))

theorem write_line [Agent α] (bs : Bytes) {s : Port (Slow α)} (faultless : Faultless s) :
    ∃ t, write bs s = .ok () t ∧ Faultless t ∧
      outstanding t = outstanding s ++ (Agent.respond s.device.agent bs).2 ∧
      t.device.agent = (Agent.respond s.device.agent bs).1 ∧
      t.device.heard = s.device.heard ++ [(s.device.agent, bs)] ∧
      t.log = s.log ++ [.wrote bs] ∧ t.checksum = s.checksum := by
  refine ⟨_, rfl, ?_, ?_, rfl, rfl, rfl, rfl⟩
  · intro fault
    rcases List.mem_append.mp fault with early | late
    · exact faultless early
    · exact play_faultless _ _ late
  · change received (s.pending ++ _) ++ _ = received s.pending ++ s.device.owed ++ _
    rw [received_append, List.append_assoc, play_stream, List.append_assoc]
    rfl

section Reading

theorem readBody_suffix (body : Bytes) (events : List Event) :
    (readBody body events).2 <:+ events := by
  fun_induction readBody body events with
  | case1 => exact List.suffix_rfl
  | case2 => exact List.suffix_cons _ _
  | case3 => exact List.suffix_cons _ _
  | case4 body events ih => exact ih.trans (List.suffix_cons _ _)
  | case5 body events ih => exact ih.trans (List.suffix_cons _ _)
  | case6 events ih => exact ih.trans (List.suffix_cons _ _)
  | case7 => exact List.suffix_cons _ _
  | case8 body b events isFlag ih => exact ih.trans (List.suffix_cons _ _)

theorem seekFlag_suffix (events : List Event) : (seekFlag events).2 <:+ events := by
  fun_induction seekFlag events with
  | case1 => exact List.suffix_rfl
  | case2 => exact List.suffix_cons _ _
  | case3 => exact List.suffix_cons _ _
  | case4 events ih => exact ih.trans (List.suffix_cons _ _)
  | case5 events ih => exact ih.trans (List.suffix_cons _ _)
  | case6 events => exact (readBody_suffix [] events).trans (List.suffix_cons _ _)
  | case7 b events isFlag ih => exact ih.trans (List.suffix_cons _ _)

theorem readBody_timeout {body : Bytes} {events rest : List Event} {e : Exc}
    (faultless : .fault ∉ events) (h : readBody body events = (.error e, rest)) :
    ∃ msg, e = .timeoutError msg := by
  fun_induction readBody body events with
  | case1 =>
    cases h
    exact ⟨_, rfl⟩
  | case2 =>
    cases h
    exact ⟨_, rfl⟩
  | case3 => simp at faultless
  | case4 body events ih => exact ih (by simpa using faultless) h
  | case5 body events ih => exact ih (by simpa using faultless) h
  | case6 events ih => exact ih (by simpa using faultless) h
  | case7 => cases h
  | case8 body b events isFlag ih => exact ih (by simpa using faultless) h

theorem seekFlag_timeout {events rest : List Event} {e : Exc}
    (faultless : .fault ∉ events) (h : seekFlag events = (.error e, rest)) :
    ∃ msg, e = .timeoutError msg := by
  fun_induction seekFlag events with
  | case1 =>
    cases h
    exact ⟨_, rfl⟩
  | case2 =>
    cases h
    exact ⟨_, rfl⟩
  | case3 => simp at faultless
  | case4 events ih => exact ih (by simpa using faultless) h
  | case5 events ih => exact ih (by simpa using faultless) h
  | case6 events => exact readBody_timeout (by simpa using faultless) h
  | case7 b events isFlag ih => exact ih (by simpa using faultless) h

theorem received_suffix {rest events : List Event} (part : rest <:+ events) :
    received rest <:+ received events := part.filterMap Event.byte?

structure Behind (s t : Port (Slow α)) : Prop where
  device : t.device = s.device
  suffix : t.pending <:+ s.pending
  checksum : t.checksum = s.checksum

theorem Behind.outstanding_suffix {s t : Port (Slow α)} (h : Behind s t) :
    outstanding t <:+ outstanding s := by
  obtain ⟨front, split⟩ := received_suffix h.suffix
  refine ⟨front, ?_⟩
  rw [outstanding, outstanding, h.device, ← split, List.append_assoc]

theorem Behind.faultless {s t : Port (Slow α)} (h : Behind s t) (faultless : Faultless s) :
    Faultless t := fun fault => faultless (h.suffix.subset fault)

theorem readFrame_line {s : Port (Slow α)} (faultless : Faultless s) :
    match readFrame s with
    | .ok body t => Behind s t ∧ t.log = s.log ++ [.reply body] ∧
        ∃ w, next hdlc .seeking (outstanding s) = some (w, outstanding t) ∧ body = hdlcUnescape w
    | .error e t => Behind s t ∧ t.log = s.log ∧ ∃ msg, e = .timeoutError msg := by
  have suffix := seekFlag_suffix s.pending
  rw [readFrame]
  rcases run : seekFlag s.pending with ⟨e | body, rest⟩
  · rw [run] at suffix
    exact ⟨⟨rfl, suffix, rfl⟩, rfl, seekFlag_timeout faultless run⟩
  · rw [run] at suffix
    refine ⟨⟨rfl, suffix, rfl⟩, rfl, ?_⟩
    obtain ⟨early, split, live, taken⟩ := seekFlag_taken run
    have agrees := seekFlag_agrees live
    cases found : next hdlc .seeking (received early) with
    | none =>
      rw [found, taken] at agrees
      obtain ⟨msg, silent⟩ := agrees
      cases silent
    | some p =>
      obtain ⟨w, back⟩ := p
      rw [found, taken] at agrees
      obtain ⟨after, same, bytes, -⟩ := agrees
      cases same
      rw [received_nil] at bytes
      subst bytes
      refine ⟨w, ?_, rfl⟩
      rw [outstanding, split, received_append, List.append_assoc]
      exact next_append hdlc found (received rest ++ s.device.owed)

end Reading

section Greeting

def verBody (v : Bytes × Checksum) : Bytes := messageBody bslRepVer v.1 v.2

def wires (vs : List (Bytes × Checksum)) : List Bytes := vs.map fun v => escape hdlc (verBody v)

theorem wires_clean (vs : List (Bytes × Checksum)) : ∀ w ∈ wires vs, Clean hdlc w := by
  rw [wires, List.forall_mem_map]
  exact fun v _ => clean_escape_messageBody _ _ _

variable [Agent α]

/-- Agents that answer a lone flag with version frames of a kind, any number of
them, and stay where they are. -/
structure Greets (Here : α → Prop) (Kind : Bytes × Checksum → Prop) : Prop where
  small : ∀ v, Kind v → v.1.length < 65536
  flag : ∀ a, Here a → Here (Agent.respond a [hdlcFlag]).1 ∧
    ∃ vs, (∀ v ∈ vs, Kind v) ∧ (Agent.respond a [hdlcFlag]).2 = stream hdlc (wires vs)

/-- Nothing is on its way to the host but version frames, perhaps behind the end
of one. -/
structure Greeted (Here : α → Prop) (Kind : Bytes × Checksum → Prop) (s : Port (Slow α)) :
    Prop where
  faultless : Faultless s
  agent : Here s.device.agent
  tail : ∃ vs, (∀ v ∈ vs, Kind v) ∧ Tail hdlc (wires vs) (outstanding s)

variable {Here : α → Prop} {Kind : Bytes × Checksum → Prop} {s t : Port (Slow α)}

omit [Agent α] in
theorem Greeted.behind (h : Greeted Here Kind s) (behind : Behind s t) : Greeted Here Kind t := by
  obtain ⟨vs, kind, tail⟩ := h.tail
  obtain ⟨ws, ⟨front, split⟩, rest⟩ := tail.suffix (wires_clean vs) behind.outstanding_suffix
  obtain ⟨gone, left, rfl, -, same⟩ := List.map_eq_append_iff.mp split.symm
  refine ⟨behind.faultless h.faultless, behind.device ▸ h.agent, left, ?_, ?_⟩
  · exact fun v hv => kind v (List.mem_append_right gone hv)
  · rw [wires, same]
    exact rest

theorem Greeted.next (G : Greets Here Kind) (h : Greeted Here Kind s) {w rest : Bytes}
    (found : Stuffing.next hdlc .seeking (outstanding s) = some (w, rest)) :
    ∃ v vs, Kind v ∧ (∀ u ∈ vs, Kind u) ∧ version (hdlcUnescape w) = some v.1 ∧
      hdlcUnescape w = verBody v ∧ rest = stream hdlc (wires vs) := by
  obtain ⟨vs, kind, tail⟩ := h.tail
  rw [tail.next (wires_clean vs)] at found
  cases vs with
  | nil => cases found
  | cons v vs =>
    cases found
    have body : hdlcUnescape (escape hdlc (verBody v)) = verBody v := hdlcUnescape_escape _
    refine ⟨v, vs, kind v List.mem_cons_self, fun u hu => kind u (List.mem_cons_of_mem v hu), ?_,
      body, rfl⟩
    rw [body, version_eq_some]
    exact parseMessage_messageBody (by decide) (G.small v (kind v List.mem_cons_self)) v.2

theorem Greets.ask (G : Greets Here Kind) (h : Greeted Here Kind s) :
    ∃ t, write [hdlcFlag] s = .ok () t ∧ Greeted Here Kind t ∧ t.checksum = s.checksum := by
  obtain ⟨t, run, faultless, stream, agent, -, -, mode⟩ := write_line [hdlcFlag] h.faultless
  obtain ⟨here, more, kinds, answer⟩ := G.flag _ h.agent
  obtain ⟨vs, kind, tail⟩ := h.tail
  refine ⟨t, run, ⟨faultless, agent ▸ here, vs ++ more, ?_, ?_⟩, mode⟩
  · exact List.forall_mem_append.mpr ⟨kind, kinds⟩
  · rw [stream, answer, wires, List.map_append]
    exact tail.append _

theorem autobaudFrom_write {σ : Type} [Device σ] (total attempts : ℕ) {s t : Port σ}
    (sent : write [hdlcFlag] s = .ok () t) :
    autobaudFrom total (attempts + 1) s =
      match readFrame t with
      | .ok body u =>
        match version body with
        | some data => .ok data { u with
            log := u.log ++ [.version data]
            checksum := (detectChecksum body).getD u.checksum }
        | none => autobaudFrom total attempts u
      | .error e u => if isTimeoutOrValue e then autobaudFrom total attempts u else .error e u := by
  rw [autobaudFrom_succ]
  cases reaction : Device.onWrite s.device [hdlcFlag] with
  | none =>
    cases (write_of_none reaction).symm.trans sent
  | some answer =>
    cases (write_of_some reaction).symm.trans sent
    simp only [readFrame]
    rcases seekFlag (s.pending ++ answer.2) with ⟨e | body, rest⟩
    · rfl
    · rfl

/-- By induction on the attempts: a handshake that ends well has read one version
frame, and whole ones are left. -/
theorem autobaudFrom_line (G : Greets Here Kind) (total attempts : ℕ) (h : Greeted Here Kind s) :
    match autobaudFrom total attempts s with
    | .ok data t => Greeted Here Kind t ∧
        (∃ vs, (∀ v ∈ vs, Kind v) ∧ outstanding t = stream hdlc (wires vs)) ∧
        ∃ v old, Kind v ∧ data = v.1 ∧ t.checksum = (detectChecksum (verBody v)).getD old
    | .error _ _ => True := by
  induction attempts generalizing s with
  | zero => trivial
  | succ attempts ih =>
    obtain ⟨t, sent, asked, -⟩ := G.ask h
    have read := readFrame_line asked.faultless
    rw [autobaudFrom_write total attempts sent]
    cases run : readFrame t with
    | error e u =>
      rw [run] at read
      obtain ⟨behind, -, msg, rfl⟩ := read
      exact ih (asked.behind behind)
    | ok body u =>
      rw [run] at read
      obtain ⟨behind, -, w, found, rfl⟩ := read
      obtain ⟨v, vs, kind, kinds, ver, same, rest⟩ := asked.next G found
      simp only [ver]
      have left := asked.behind behind
      exact ⟨⟨left.faultless, left.agent, left.tail⟩, ⟨vs, kinds, rest⟩, v, u.checksum, kind, rfl,
        by rw [same]⟩

end Greeting

section Command

def refusal (what : String) (rtype : ℕ) : Exc :=
  let wanted := repName bslRepAck
  let got := repName rtype
  .protocolError s!"{what}: expected {wanted}, got {got}"

theorem command_read {σ : Type} [Device σ] {cmd : ℕ} {data : Bytes} {s t : Port σ}
    (sent : send cmd data s = .ok () t) (what : String) :
    command cmd data bslRepAck what s =
      match readFrame t with
      | .ok body u =>
        match parseMessage body with
        | .ok (rtype, rdata) =>
          if rtype = bslRepAck then .ok rdata u else .error (refusal what rtype) u
        | .error e => .error e u
      | .error e u => .error e u := by
  rw [command_def, bind_ok sent]
  simp only [bind, EStateM.bind, recv_def]
  cases readFrame t with
  | error e u => rfl
  | ok body u =>
    simp only [raising]
    cases parseMessage body with
    | error e => rfl
    | ok message =>
      obtain ⟨rtype, rdata⟩ := message
      by_cases acked : rtype = bslRepAck
      · simp only [acked, if_true]
        rfl
      · simp only [acked, ne_eq, not_false_eq_true, if_true, if_false]
        rfl

def ackBody (reply : Bytes × Checksum) : Bytes := messageBody bslRepAck reply.1 reply.2

theorem ack_stream (reply : Bytes × Checksum) :
    wireMessage bslRepAck reply.1 reply.2 = stream hdlc [escape hdlc (ackBody reply)] :=
  (List.append_nil _).symm

theorem ack_clean (vs : List (Bytes × Checksum)) (reply : Bytes × Checksum) :
    ∀ w ∈ wires vs ++ [escape hdlc (ackBody reply)], Clean hdlc w := by
  rw [List.forall_mem_append, List.forall_mem_singleton]
  exact ⟨wires_clean vs, clean_escape_messageBody _ _ _⟩

variable [Agent α] {Kind : Bytes × Checksum → Prop}

/-- A command that is answered with one ACK, while version frames may be left:
it reads that ACK exactly when none of them is whole. -/
theorem command_line {cmd : ℕ} {data : Bytes} (fits : Framable cmd data) (what : String)
    {s : Port (Slow α)} (faultless : Faultless s) {vs : List (Bytes × Checksum)}
    (small : ∀ v ∈ vs, v.1.length < 65536) (tail : Tail hdlc (wires vs) (outstanding s))
    {reply : Bytes × Checksum} (fitting : reply.1.length < 65536)
    (answer : (Agent.respond s.device.agent (wireMessage cmd data s.checksum)).2 =
      wireMessage bslRepAck reply.1 reply.2) :
    match command cmd data bslRepAck what s with
    | .ok _ t => vs = [] ∧ Faultless t ∧ outstanding t = [] ∧ t.checksum = s.checksum ∧
        t.device.agent = (Agent.respond s.device.agent (wireMessage cmd data s.checksum)).1 ∧
        t.device.heard = s.device.heard ++ [(s.device.agent, wireMessage cmd data s.checksum)] ∧
        t.log = s.log ++ [.wrote (wireMessage cmd data s.checksum), .reply (ackBody reply)]
    | .error e t =>
        t.device.heard = s.device.heard ++ [(s.device.agent, wireMessage cmd data s.checksum)] ∧
        ((∃ msg, e = .timeoutError msg) ∧
            t.log = s.log ++ [.wrote (wireMessage cmd data s.checksum)] ∨
          (∃ msg, e = .protocolError msg) ∧ ∃ v rest, vs = v :: rest ∧
            t.log = s.log ++ [.wrote (wireMessage cmd data s.checksum), .reply (verBody v)]) := by
  obtain ⟨t, sent, faultless', stream', agent, heard, log, mode⟩ :=
    write_line (wireMessage cmd data s.checksum) faultless
  have sent' : send cmd data s = .ok () t := (send_framable fits s).trans sent
  have tail' : Tail hdlc (wires vs ++ [escape hdlc (ackBody reply)]) (outstanding t) := by
    rw [stream', answer, ack_stream]
    exact tail.append _
  have next := tail'.next (ack_clean vs reply)
  have read := readFrame_line faultless'
  rw [command_read sent' what]
  cases run : readFrame t with
  | error e u =>
    rw [run] at read
    obtain ⟨behind, silent, timeout⟩ := read
    exact ⟨by rw [behind.device, heard], .inl ⟨timeout, silent.trans log⟩⟩
  | ok body u =>
    rw [run] at read
    obtain ⟨behind, logged, w, found, rfl⟩ := read
    rw [next] at found
    cases vs with
    | nil =>
      obtain ⟨rfl, rest⟩ := Prod.mk.inj (Option.some.inj found)
      have whole : hdlcUnescape (escape hdlc (ackBody reply)) = ackBody reply :=
        hdlcUnescape_escape _
      have parsed : parseMessage (ackBody reply) = .ok (bslRepAck, reply.1) :=
        parseMessage_messageBody (by decide) fitting reply.2
      simp only [whole, parsed, if_true]
      rw [whole] at logged
      exact ⟨trivial, behind.faultless faultless', rest.symm, behind.checksum.trans mode,
        by rw [behind.device, agent], by rw [behind.device, heard], by simp [logged, log]⟩
    | cons v vs =>
      obtain ⟨rfl, rest⟩ := Prod.mk.inj (Option.some.inj found)
      have whole : hdlcUnescape (escape hdlc (verBody v)) = verBody v := hdlcUnescape_escape _
      have parsed : parseMessage (verBody v) = .ok (bslRepVer, v.1) :=
        parseMessage_messageBody (by decide) (small v List.mem_cons_self) v.2
      simp only [whole, parsed]
      rw [if_neg (by decide)]
      rw [whole] at logged
      exact ⟨by rw [behind.device, heard], .inr ⟨⟨_, rfl⟩, v, vs, rfl, by simp [logged, log]⟩⟩

end Command

end SprdFlash.Line
