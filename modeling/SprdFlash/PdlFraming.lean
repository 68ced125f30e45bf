import SprdFlash.Exchange
import SprdFlash.Library.Packets

/-!
The messages of the PDL layer as packets. What `recv` returns is the payload of
the first packet behind the magic byte, in whatever pieces its bytes arrive, and
a transfer ends with exactly the last of them.
-/

namespace SprdFlash.PdlFraming

open Port Struct Exchange Packets

/-- The header both sides use: magic, length, five bytes that are not looked at. -/
def agent : Format UInt8 where
  magic := Pdl.pdlMagic
  header := 8
  size buf := unpack .little ((buf.drop 1).take 2)
  header_pos := by decide
  size_append head later long := by
    rw [List.drop_append_of_le_length (by omega), List.take_append_of_le_length]
    rw [List.length_drop]
    omega

def packet (skipped payload : Bytes) (five : skipped.length = 5) (fits : payload.length < 65536) :
    Packet agent where
  head := Pdl.pdlMagic :: (field .little 2 payload.length ++ skipped)
  body := payload
  opens := rfl
  length := by simp [five, agent]
  size := by
    change unpack .little (List.take 2 (List.drop 1 (_ :: _))) = _
    rw [List.drop_succ_cons, List.drop_zero, List.take_left' (by simp)]
    exact unpack_field .little 2 _ fits

def built (payload : Bytes) (fits : payload.length < 65536) : Packet agent :=
  packet [0x00, 0x00, 0xFF, 0x00, 0x00] payload rfl fits

theorem built_wire (payload : Bytes) (fits : payload.length < 65536) :
    (built payload fits).wire = pdlHeader payload.length ++ payload := by
  simp [Packet.wire, built, packet, pdlHeader, fields]

/-- The status a response starts with, and the one `recv` puts in its place. -/
def statusOf (payload : Bytes) : ℕ :=
  if 4 ≤ payload.length then unpack .little (payload.take 4) else 0

theorem recvLoop_byte (buf : Bytes) (b : UInt8) (rest unread : List Event) {bs : Bytes}
    (h : readUpTo 64 (.byte b :: rest) = (some bs, unread)) :
    Pdl.recvLoop buf (.byte b :: rest) =
      let buf := sync agent (buf ++ bs)
      if Complete agent buf then (.ok (statusOf (payload agent buf), payload agent buf), unread)
      else Pdl.recvLoop buf unread := by
  rw [Pdl.recvLoop]
  split
  · rename_i failed _
    rw [h] at failed
    cases failed
  · rename_i taken _
    rw [h] at taken
    cases taken
    rfl

theorem readUpTo_live (n : ℕ) {events : List Event} (live : Live events) :
    ∃ first unread, readUpTo n events = (some first, unread) ∧
      received events = first ++ received unread ∧ unread <:+ events := by
  have reads : ∃ first, (readUpTo n events).1 = some first := by
    fun_induction readUpTo n events with
    | case3 n b rest ih =>
      obtain ⟨first, taken⟩ := ih live.tail
      exact ⟨b :: first, by rw [taken]; rfl⟩
    | case7 => exact absurd rfl (live _ List.mem_cons_self).2
    | _ => exact ⟨[], rfl⟩
  obtain ⟨first, taken⟩ := reads
  have run : readUpTo n events = (some first, (readUpTo n events).2) := Prod.ext taken rfl
  exact ⟨first, _, run, readUpTo_received run, readUpTo_suffix n events⟩

theorem recvLoop_packet (p : Packet agent) {buf : Bytes} {events : List Event}
    (live : Live events) (total : sync agent (buf ++ received events) = p.wire)
    (synced : sync agent buf = buf) (missing : buf ≠ p.wire) :
    ∃ rest, Pdl.recvLoop buf events = (.ok (statusOf p.body, p.body), rest) ∧
      received rest = [] ∧ rest <:+ events := by
  induction buf, events using Pdl.recvLoop.induct with
  | case1 buf =>
    rw [received_nil, List.append_nil, synced] at total
    exact absurd total missing
  | case2 buf rest => exact absurd rfl (live _ List.mem_cons_self).1
  | case3 buf rest => exact absurd rfl (live _ List.mem_cons_self).2
  | case4 buf rest ih =>
    obtain ⟨after, run, done, suffix⟩ := ih live.tail total synced missing
    exact ⟨after, by rw [Pdl.recvLoop, run], done, suffix.trans (List.suffix_cons _ rest)⟩
  | case5 buf rest ih =>
    obtain ⟨after, run, done, suffix⟩ := ih live.tail total synced missing
    exact ⟨after, by rw [Pdl.recvLoop, run], done, suffix.trans (List.suffix_cons _ rest)⟩
  | case6 buf b rest unread _ read =>
    obtain ⟨first, unread', read', -⟩ := readUpTo_live 64 live
    rw [read] at read'
    cases read'
  | case7 buf b rest bytes unread _ read buf' rlen complete =>
    have suffix := readUpTo_suffix 64 (.byte b :: rest)
    rw [read] at suffix
    rw [readUpTo_received read, ← List.append_assoc, ← sync_append] at total
    rcases complete_or_missing agent p (sync_sync agent _) total with
      ⟨full, last, whole⟩ | ⟨waiting, -⟩
    · have body := p.payload_wire []
      rw [List.append_nil, ← whole] at body
      rw [recvLoop_byte buf b rest unread read]
      simp only
      rw [if_pos full]
      exact ⟨unread, by rw [body], last, suffix⟩
    · exact absurd complete waiting
  | case8 buf b rest bytes unread _ read buf' rlen waiting ih =>
    have suffix := readUpTo_suffix 64 (.byte b :: rest)
    rw [read] at suffix
    rw [readUpTo_received read, ← List.append_assoc, ← sync_append] at total
    rcases complete_or_missing agent p (sync_sync agent _) total with ⟨full, -⟩ | ⟨partly, missing'⟩
    · exact absurd full waiting
    · obtain ⟨after, run, done, suffix'⟩ :=
        ih (live.suffix suffix) total (sync_sync agent _) missing'
      rw [recvLoop_byte buf b rest unread read]
      simp only
      rw [if_neg partly]
      exact ⟨after, run, done, suffix'.trans suffix⟩

variable {σ : Type}

/-- `recv` on a queue with one packet behind bytes that are not magic. -/
theorem recv_packet (p : Packet agent) {junk : Bytes} (noMagic : Pdl.pdlMagic ∉ junk) {s : Port σ}
    (live : Live s.pending) (bytes : received s.pending = junk ++ p.wire) :
    ∃ rest, Pdl.recv s = .ok (statusOf p.body, p.body)
        { s with pending := rest, log := s.log ++ [.response p.body] } ∧
      received rest = [] ∧ rest <:+ s.pending := by
  have total : sync agent ([] ++ received s.pending) = p.wire := by
    rw [List.nil_append, bytes, sync_gap agent noMagic, sync_wire]
  obtain ⟨rest, run, done, suffix⟩ := recvLoop_packet p live total rfl p.wire_ne_nil.symm
  exact ⟨rest, Pdl.recv_of_ok run, done, suffix⟩

end SprdFlash.PdlFraming
