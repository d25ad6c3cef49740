/-
# A peer that asks and does not listen

A peer asks for an option that nobody supports, again and again, and takes no bytes.  Every
demand is refused, for a refusal goes out however often it was said before; the read that
finds the demand tries to send the refusal, gives up when its time is over, and leaves it
pending.

`Stuffed` is the invariant of such a session between two reads.  A read of one byte queues
what the codec makes of it (`Stuffed.read`), so a demand that comes in byte by byte makes
more pending (`Stuffed.refuse`), and so does every further one (`Stuffed.pending_grows`).
-/

import RemoteTerminal.Proofs.Telnet.View

namespace RemoteTerminal

/-- A retrying flush gives up at the first stall that takes all its time, with everything
pending still. -/
theorem Outbox.flushRetry_of_stall {timeout idle : Nat} {o : Outbox} {l : Line}
    {rest : List WriteAnswer} (hsome : o.pending ≠ [])
    (h : l.transport.outgoing = .fail .wouldBlock idle :: rest) (hidle : timeout ≤ idle) :
    ∃ l', o.flushRetry timeout l = (.ok 0, o, l') ∧
      l'.transport.incoming = l.transport.incoming ∧ l'.transport.outgoing = rest := by
  have hwrite : l.write o.pending = (.error .wouldBlock,
      { l with transport := (l.transport.write o.pending).2 }) := by
    simp [Line.write, Transport.write, h]
  have hlate : timeout < (l.transport.write o.pending).2.clock - l.transport.clock := by
    simp only [Transport.write, h, Transport.record]
    omega
  unfold flushRetry Line.sendRetrying
  rw [h, RemoteTerminal.sendRetrying, if_neg hsome, hwrite]
  simp only [Fault.isInterrupted, Fault.isWouldBlock, hlate]
  refine ⟨_, rfl, ?_, ?_⟩
  · simp [Line.note, Line.log, Transport.write, h, Transport.record]
  · simp [Line.note, Line.log, h]

namespace Telnet
namespace Session

/-- A transport takes nothing: whatever it is offered, a retrying flush gives up on it. -/
def Stalls (timeout : Nat) (t : Transport) : Prop :=
  ∀ answer ∈ t.outgoing, answer = .fail .wouldBlock timeout

theorem takeReplies_of_nil {c : Codec} (h : c.replies = []) : c.takeReplies = ([], c) := by
  cases c
  dsimp only at h
  subst h
  rfl

/-- What the codec has to say is queued; if it was anything, a write was made and stalled. -/
theorem sendReplies_of_stalls {s : Session} (h : Stalls s.timeout s.line.transport)
    (hleft : s.line.transport.outgoing ≠ []) :
    ∃ line, s.sendReplies = (.ok (), { s with
        codec := s.codec.takeReplies.2
        outbox := s.outbox.extend s.codec.replies
        line }) ∧
      line.transport.incoming = s.line.transport.incoming ∧
      line.transport.outgoing <:+ s.line.transport.outgoing ∧
      s.line.transport.outgoing.length ≤ line.transport.outgoing.length + 1 := by
  unfold sendReplies
  by_cases hnone : s.codec.replies = []
  · refine ⟨s.line, ?_, rfl, List.suffix_rfl, Nat.le_succ _⟩
    simp [takeReplies_of_nil hnone, hnone]
  · obtain ⟨answer, rest, hout⟩ := List.exists_cons_of_ne_nil hleft
    have hanswer : answer = .fail .wouldBlock s.timeout := h answer (by simp [hout])
    rw [hanswer] at hout
    have hsome : (s.outbox.extend s.codec.replies).pending ≠ [] := by
      simp [Outbox.extend, hnone]
    obtain ⟨line, hflush, hin, hrest⟩ :=
      Outbox.flushRetry_of_stall hsome hout (Nat.le_refl _)
    refine ⟨line, ?_, hin, ?_, ?_⟩
    · simp [Codec.takeReplies, hnone, hflush, Except.map]
    · rw [hrest, hout]
      exact List.suffix_cons ..
    · rw [hrest, hout]
      exact Nat.le_refl _

/-- Without payload there is nothing to deliver, whatever is said. -/
theorem respondAndDeliver_of_stalls {s : Session} (hp : s.payload = [])
    (h : Stalls s.timeout s.line.transport) (hleft : s.line.transport.outgoing ≠ []) :
    ∃ line, (s.respondAndDeliver 1).2 = { s with
        codec := s.codec.takeReplies.2
        outbox := s.outbox.extend s.codec.replies
        line } ∧
      line.transport.incoming = s.line.transport.incoming ∧
      line.transport.outgoing <:+ s.line.transport.outgoing ∧
      s.line.transport.outgoing.length ≤ line.transport.outgoing.length + 1 := by
  obtain ⟨line, hsend, hin, hout, hone⟩ := sendReplies_of_stalls h hleft
  unfold respondAndDeliver
  split
  · refine ⟨line, ?_, hin, hout, hone⟩
    simp [hsend, deliverOrBlock, deliver, hp]
  · rename_i hsilent
    have hnone : s.codec.replies = [] := by simpa [Codec.hasReplies] using hsilent
    refine ⟨s.line, ?_, rfl, List.suffix_rfl, Nat.le_succ _⟩
    simp [deliverOrBlock, deliver, hp, takeReplies_of_nil hnone, hnone]

/-- A session that has begun, with a transport that takes nothing for as long as it has
something to deliver. -/
structure Stuffed (s : Session) : Prop where
  begun : s.progress.isStarted = true
  carried : s.payload = []
  drained : s.intake.Drained
  flowing : s.intake.phase = .flowing
  stalls : Stalls s.timeout s.line.transport
  lasts : s.line.transport.incoming.length ≤ s.line.transport.outgoing.length

namespace Stuffed

variable {s : Session} (h : s.Stuffed)
include h

/-- Reading a byte is decoding it. -/
theorem hear {byte : UInt8} {rest : List (Except Fault Bytes)}
    (hin : s.line.transport.incoming = .ok [byte] :: rest)
    (hquiet : (s.codec.decode [byte]).1.payload = []) :
    ∃ heard : Session, s.read 1 = heard.respondAndDeliver 1 ∧ heard.Stuffed ∧
      heard.line.transport.incoming = rest ∧
      rest.length < heard.line.transport.outgoing.length ∧
      heard.codec = (s.codec.decode [byte]).2 ∧ heard.outbox = s.outbox := by
  have hpos := h.drained.capacity_pos
  have hone : [byte].length ≤ s.intake.capacity := hpos
  let line := { s.line with transport := (s.line.transport.read s.intake.capacity).2 }
  have hread : s.line.read s.intake.capacity = (.ok [byte], line) := by
    simp [line, Line.read, Transport.read, hin, List.take_of_length_le hone]
  have hfill : s.intake.fill s.intake.capacity s.line =
      (.ok (), { s.intake with buffer := [byte] }, line) := by
    simp [Intake.fill, Intake.isEof, h.flowing, h.drained.buffer_eq, Nat.ne_of_gt hpos, hread]
  have hrest : line.transport.incoming = rest := by
    simp [line, Transport.read, hin, Nat.ne_of_gt hpos, Transport.record]
  have hout : line.transport.outgoing = s.line.transport.outgoing := by
    simp [line, Transport.read, hin, Transport.record]
  have hview := view_absorb_of_flowing
    (s := { s with intake := { s.intake with buffer := [byte] }, line }) h.flowing
  have hlasts := h.lasts
  rw [hin, List.length_cons, ← hout] at hlasts
  refine ⟨({ s with intake := { s.intake with buffer := [byte] }, line } : Session).absorb,
    ?_, ⟨h.begun, ?_, ⟨rfl, hpos⟩, h.flowing, ?_, ?_⟩, hrest, hlasts,
    congrArg View.codec hview, rfl⟩
  · unfold Session.read
    rw [if_neg Nat.one_ne_zero, start_of_isStarted h.begun]
    simp only [h.carried, Intake.poll_of_flowing h.flowing, refill, hfill]
    rfl
  · have hpayload := congrArg View.payload hview
    simpa [view, h.carried, hquiet] using hpayload
  · exact fun answer ha => h.stalls answer (hout ▸ ha)
  · show line.transport.incoming.length ≤ line.transport.outgoing.length
    rw [hrest]
    omega

/-- What the codec makes of a byte that is no payload is queued, and all else is as it was. -/
theorem read {byte : UInt8} {rest : List (Except Fault Bytes)}
    (hin : s.line.transport.incoming = .ok [byte] :: rest)
    (hquiet : (s.codec.decode [byte]).1.payload = []) :
    let s' := (s.read 1).2
    s'.Stuffed ∧ s'.line.transport.incoming = rest ∧
      s'.codec = (s.codec.decode [byte]).2.takeReplies.2 ∧
      s'.outbox.pending = s.outbox.pending ++ (s.codec.decode [byte]).2.replies := by
  intro s'
  obtain ⟨heard, hread, hheard, hrest, hleft, hcodec, houtbox⟩ := h.hear hin hquiet
  have hsome : heard.line.transport.outgoing ≠ [] := List.ne_nil_of_length_pos (by omega)
  obtain ⟨line, hs', hin', hout', hone⟩ :=
    respondAndDeliver_of_stalls hheard.carried hheard.stalls hsome
  rw [← hread] at hs'
  rw [show s' = _ from hs', ← hcodec, ← houtbox]
  refine ⟨⟨hheard.begun, hheard.carried, hheard.drained, hheard.flowing, ?_, ?_⟩,
    hin'.trans hrest, rfl, rfl⟩
  · exact fun answer ha => hheard.stalls answer (hout'.subset ha)
  · show line.transport.incoming.length ≤ line.transport.outgoing.length
    rw [hin', hrest]
    omega

end Stuffed

/-- The three bytes of a demand for an option that nobody supports: the decoder finds no
payload in them, and the last one gives it something to say. -/
theorem decode_demand (c : Codec) :
    (c.state = .data → (c.decode [Code.iac]).1.payload = [] ∧
      (c.decode [Code.iac]).2.state = .command) ∧
    (c.state = .command → (c.decode [Verb.do.toByte]).1.payload = [] ∧
      (c.decode [Verb.do.toByte]).2.state = .negotiate .do) ∧
    (c.state = .negotiate .do → (c.decode [0x63]).1.payload = [] ∧
      (c.decode [0x63]).2.state = .data ∧ (c.decode [0x63]).2.replies ≠ []) := by
  refine ⟨fun h => ?_, fun h => ?_, fun h => ?_⟩
  · simp [Codec.decode, Codec.step, h]
  · have hverb : Verb.ofByte? Verb.do.toByte = some .do := Verb.ofByte?_toByte .do
    have hiac : Verb.do.toByte ≠ Code.iac := by decide
    have hsb : Verb.do.toByte ≠ Code.sb := by decide
    simp [Codec.decode, Codec.step, h, Codec.interpret, hiac, hsb, hverb]
  · have hrespond : respond c.role (TelnetOption.ofByte 0x63) .do = .refuse .wont := by
      cases c.role <;> rfl
    simp [Codec.decode, Codec.step, h, Codec.negotiate, hrespond, Codec.sayVerb, Codec.reply]

/-- A peer that asks for an option that nobody supports, byte by byte. -/
def demand : List (Except Fault Bytes) := [.ok [Code.iac], .ok [Verb.do.toByte], .ok [0x63]]

/-- Three reads, which take in a demand. -/
def threeReads : List Call := [.read 1, .read 1, .read 1]

/-- **A demand is refused, and the refusal is pending.** -/
theorem Stuffed.refuse {s : Session} (h : s.Stuffed) (hstate : s.codec.state = .data)
    {rest : List (Except Fault Bytes)} (hin : s.line.transport.incoming = demand ++ rest) :
    let s' := (s.run threeReads).2
    s'.Stuffed ∧ s'.codec.state = .data ∧ s'.line.transport.incoming = rest ∧
      s.outbox.pending.length < s'.outbox.pending.length := by
  obtain ⟨hquiet₁, hstate₁⟩ := (decode_demand s.codec).1 hstate
  obtain ⟨h₁, hin₁, hcodec₁, hpending₁⟩ := h.read hin hquiet₁
  have hstate₁' : (s.read 1).2.codec.state = .command := hcodec₁ ▸ hstate₁
  obtain ⟨hquiet₂, hstate₂⟩ := (decode_demand (s.read 1).2.codec).2.1 hstate₁'
  obtain ⟨h₂, hin₂, hcodec₂, hpending₂⟩ := h₁.read hin₁ hquiet₂
  have hstate₂' : ((s.read 1).2.read 1).2.codec.state = .negotiate .do := hcodec₂ ▸ hstate₂
  obtain ⟨hquiet₃, hstate₃, hsays⟩ := (decode_demand ((s.read 1).2.read 1).2.codec).2.2 hstate₂'
  obtain ⟨h₃, hin₃, hcodec₃, hpending₃⟩ := h₂.read hin₂ hquiet₃
  refine ⟨h₃, hcodec₃ ▸ hstate₃, hin₃, ?_⟩
  have hlength := List.length_pos_iff.2 hsays
  show s.outbox.pending.length < (((s.read 1).2.read 1).2.read 1).2.outbox.pending.length
  rw [hpending₃, hpending₂, hpending₁]
  simp only [List.length_append]
  omega

/-- **Every demand makes more pending**, by induction on how many there are. -/
theorem Stuffed.pending_grows (demands : Nat) {s : Session} (h : s.Stuffed)
    (hstate : s.codec.state = .data)
    (hin : s.line.transport.incoming = (List.replicate demands demand).flatten) :
    s.outbox.pending.length + demands ≤
      (s.run (List.replicate demands threeReads).flatten).2.outbox.pending.length := by
  induction demands generalizing s with
  | zero => exact Nat.le_refl _
  | succ demands ih =>
    rw [List.replicate_succ, List.flatten_cons] at hin
    obtain ⟨hstuffed, hstate', hrest, hmore⟩ := h.refuse hstate hin
    have hgrown := ih hstuffed hstate' hrest
    rw [List.replicate_succ, List.flatten_cons]
    show s.outbox.pending.length + (demands + 1) ≤ ((s.run threeReads).2.run
      (List.replicate demands threeReads).flatten).2.outbox.pending.length
    omega

/-- A transport that delivers demands and takes nothing. -/
def flood (demands timeout : Nat) : Transport where
  incoming := (List.replicate demands demand).flatten
  outgoing := List.replicate (3 * demands + 1) (.fail .wouldBlock timeout)

/-- Once it has begun, a session on such a transport is stuffed. -/
theorem stuffed_start (role : Role) (terminal : Terminal) (size timeout demands : Nat) :
    let s := (fresh role terminal size timeout (flood demands timeout)).start.2
    s.Stuffed ∧ s.codec.state = .data ∧
      s.line.transport.incoming = (List.replicate demands demand).flatten := by
  intro s
  let begun := ({ fresh role terminal size timeout (flood demands timeout) with
    codec := (Codec.start { role, terminal }).2, progress := .sentOptions } : Session).log
      ((Codec.start { role, terminal }).1 ++ [Note.debug "Sending telnet options"])
  have hstalls : Stalls begun.timeout begun.line.transport :=
    fun answer ha => List.eq_of_mem_replicate ha
  have hlong : begun.line.transport.incoming.length < begun.line.transport.outgoing.length := by
    simp [begun, fresh, create, log, Line.log, Transport.unused, flood, demand]
    omega
  have hsome : begun.line.transport.outgoing ≠ [] := List.ne_nil_of_length_pos (by omega)
  obtain ⟨line, hsend, hin, hout, hone⟩ := sendReplies_of_stalls hstalls hsome
  have hs : s = _ := congrArg Prod.snd hsend
  have hdata : (Codec.start { role, terminal }).2.takeReplies.2.state = .data := by
    cases role <;> rfl
  rw [hs]
  refine ⟨⟨rfl, rfl, Intake.drained_ofCapacity size, rfl, ?_, ?_⟩, hdata, hin⟩
  · exact fun answer ha => hstalls answer (hout.subset ha)
  · show line.transport.incoming.length ≤ line.transport.outgoing.length
    rw [hin]
    omega

end Session
end Telnet
end RemoteTerminal
