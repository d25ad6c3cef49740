/-
# A session as its two sides see it

How far the output has got on its way is a matter between the outbox and the
transport, and no call of a session depends on it in any other way than through its
answer.  A `View` leaves it out: of the output it keeps the bytes, of the transport
the answers to its reads.  On views the steps of a call are equations
(`view_flush`, `view_sendReplies`, `view_start`, …), whatever became of the writes in
between, and a whole call does one of a few things: `read_reads` and `write_writes`
say which.
-/

import RemoteTerminal.Proofs.Stream.Intake
import RemoteTerminal.Proofs.Stream.Outbox
import RemoteTerminal.Proofs.Telnet.Framing
import RemoteTerminal.Proofs.Telnet.Steps
import RemoteTerminal.Telnet.Run

namespace RemoteTerminal
namespace Telnet

/-- A session without the difference between output that was sent and output that
is pending. -/
structure View where
  codec : Codec
  progress : Progress
  intake : Intake
  payload : Bytes
  deferred : Option TransportError
  /-- All output so far. -/
  output : Bytes
  /-- The answers to all reads of the transport so far. -/
  answers : List (Except Fault Bytes)

namespace View

/-- What the codec has to say becomes output. -/
def collect (v : View) : View :=
  { v with codec := v.codec.takeReplies.2, output := v.output ++ v.codec.replies }

/-- The requests of the beginning become output, once. -/
def start (v : View) : View :=
  if v.progress.isStarted then v
  else { v with codec := v.codec.start.2, progress := .sentOptions }.collect

/-- At most `room` bytes of payload are handed out. -/
def deliver (room : Nat) (v : View) : View := { v with payload := v.payload.drop room }

/-- The transport answers a read: bytes are decoded, and no bytes end the stream. -/
def hear (answer : Except Fault Bytes) (v : View) : View :=
  match answer with
  | .error f => { v with answers := v.answers ++ [.error f] }
  | .ok [] =>
    { v with
      codec := v.codec.releaseCr.2
      intake := { v.intake with phase := .ended }
      payload := v.payload ++ v.codec.releaseCr.1
      answers := v.answers ++ [.ok []] }
  | .ok data =>
    { v with
      codec := (v.codec.decode data).2
      payload := v.payload ++ (v.codec.decode data).1.payload
      answers := v.answers ++ [.ok data] }

/-- A piece of the notice is handed out, after which the intake is in `phase`. -/
def tell (phase : Phase) (v : View) : View := { v with intake := { v.intake with phase } }

/-- The window has another size. -/
def resize (window : WindowSize) (v : View) : View :=
  let codec := (v.codec.setWindow window).2.2
  if (v.codec.setWindow window).1 then { v with codec }.collect else { v with codec }

/-- A command becomes output. -/
def command (c : Command) (v : View) : View :=
  { v with codec := (v.codec.sayCommand c).2 }.collect

/-- Framed payload becomes output. -/
def frame (data : Bytes) (deferred : Option TransportError) (v : View) : View :=
  { v with output := v.output ++ v.codec.encode data, deferred }

/-- A codec that has nothing to say adds nothing to the output. -/
theorem collect_of_replies_nil {v : View} (h : v.codec.replies = []) : v.collect = v := by
  obtain ⟨codec, progress, intake, payload, deferred, output, answers⟩ := v
  obtain ⟨role, terminal, flags, announced, state, pendingCr, gathered, overflow, replies⟩ := codec
  dsimp only at h
  subst h
  simp [collect, Codec.takeReplies]

theorem start_of_isStarted {v : View} (h : v.progress.isStarted = true) : v.start = v := by
  rw [start, if_pos h]

/-- An answer that is not the end of the stream is decoded; a failure has nothing to
decode. -/
theorem hear_of_ne_end {v : View} {answer : Except Fault Bytes} (h : answer ≠ .ok []) :
    v.hear answer =
      { v with
        codec := (v.codec.decode (bytesOf answer)).2
        payload := v.payload ++ (v.codec.decode (bytesOf answer)).1.payload
        answers := v.answers ++ [answer] } := by
  match answer with
  | .error f => simp [hear, bytesOf, Codec.decode]
  | .ok [] => exact absurd rfl h
  | .ok (byte :: rest) => rfl

@[simp] theorem start_intake (v : View) : v.start.intake = v.intake := by
  unfold start
  split <;> rfl

@[simp] theorem start_payload (v : View) : v.start.payload = v.payload := by
  unfold start
  split <;> rfl

@[simp] theorem start_answers (v : View) : v.start.answers = v.answers := by
  unfold start
  split <;> rfl

@[simp] theorem start_isStarted (v : View) : v.start.progress.isStarted = true := by
  unfold start
  split
  · assumption
  · rfl

/-- Framing two parts of a text in turn, cut cleanly, is framing them together. -/
theorem frame_frame {v : View} {front back : Bytes} {d d' : Option TransportError}
    (h : CleanCut v.codec.flags.binaryMode front back) :
    (v.frame front d).frame back d' = v.frame (front ++ back) d' := by
  simp only [frame, Codec.encode, encode_append h, List.append_assoc]

/-- What a read of nothing but `data` may answer: those bytes if there are any, and
an error if there are none. -/
inductive Gives (data : Bytes) : Except TransportError Bytes → Prop where
  | some (h : data ≠ []) : Gives data (.ok data)
  | none (h : data = []) (e : TransportError) : Gives data (.error e)

theorem Gives.bytesOf_eq {data : Bytes} {result : Except TransportError Bytes}
    (h : Gives data result) : bytesOf result = data := by
  cases h with
  | some h => rfl
  | none h e => exact h.symm

theorem Gives.ne_nothing {data : Bytes} {result : Except TransportError Bytes}
    (h : Gives data result) : result ≠ .ok [] := by
  cases h with
  | some h => exact fun he => h (Except.ok.inj he)
  | none h e => exact fun he => (nomatch he)

/-- What a read of at most `room` bytes can do. -/
inductive Reads : Nat → View → Except TransportError Bytes → View → Prop where
  /-- Nothing was asked for. -/
  | nothing (v : View) : Reads 0 v (.ok []) v
  /-- The requests of the beginning could not be sent. -/
  | unsent {room : Nat} {v : View} (hr : room ≠ 0) (hs : v.progress.isStarted = false)
      (e : TransportError) : Reads room v (.error e) v.start
  /-- There was payload from before. -/
  | carried {room : Nat} {v : View} (hr : room ≠ 0) (hp : v.payload ≠ []) :
      Reads room v (.ok (v.payload.take room)) (v.start.deliver room)
  /-- A piece of the notice, of which `sent` bytes were out. -/
  | notice {room : Nat} {v : View} (sent : Nat) (hr : room ≠ 0) (hp : v.payload = [])
      (hphase : v.intake.phase = .notice sent ∨ v.intake.phase = .ended ∧ sent = 0) :
      Reads room v (.ok (Farewell.piece sent room)) (v.start.tell (Farewell.after sent room))
  /-- All was said. -/
  | closed {room : Nat} {v : View} (hr : room ≠ 0) (hp : v.payload = [])
      (hphase : v.intake.phase = .closed) : Reads room v (.ok []) v.start
  /-- The transport was read, and failed. -/
  | failed {room : Nat} {v : View} (hr : room ≠ 0) (hp : v.payload = [])
      (hphase : v.intake.phase = .flowing) (f : Fault) (e : TransportError) :
      Reads room v (.error e) (v.start.hear (.error f))
  /-- The transport was read, and what it answered was decoded and responded to. -/
  | heard {room : Nat} {v : View} (hr : room ≠ 0) (hp : v.payload = [])
      (hphase : v.intake.phase = .flowing) (data : Bytes) {result : Except TransportError Bytes}
      (hresult : Gives ((v.start.hear (.ok data)).payload.take room) result) :
      Reads room v result ((v.start.hear (.ok data)).collect.deliver room)

/-- What a write of `data` can do. -/
inductive Writes (data : Bytes) (v : View) : Except TransportError Nat → View → Prop where
  /-- An earlier fault is reported. -/
  | reported (e : TransportError) (h : v.deferred = some e) :
      Writes data v (.error e) { v with deferred := none }
  /-- There is nothing to write. -/
  | nothing (h : v.deferred = none) (hdata : data = []) : Writes data v (.ok 0) v
  /-- What was pending could not be sent. -/
  | unsent (h : v.deferred = none) (hdata : data ≠ []) (e : TransportError) :
      Writes data v (.error e) v.start
  /-- The first `count` bytes were framed. -/
  | framed (h : v.deferred = none) (hdata : data ≠ []) (count : Nat)
      (hcount : count ≤ data.length) (deferred : Option TransportError) :
      Writes data v (.ok count) (v.start.frame (data.take count) deferred)

end View

namespace Session

/-- A session of a role on a transport that nobody has used. -/
def fresh (role : Role) (terminal : Terminal) (size timeout : Nat) (t : Transport) : Session :=
  create { role, terminal } size timeout t.unused

/-- What a session looks like from both of its sides. -/
def view (s : Session) : View where
  codec := s.codec
  progress := s.progress
  intake := s.intake
  payload := s.payload
  deferred := s.deferred
  output := s.outbox.output s.line
  answers := s.line.transport.readAnswers

/-- Bytes that moved from the outbox to the transport are not seen to have moved. -/
theorem view_of_conserves {s : Session} {outbox : Outbox} {line : Line}
    (h : s.outbox.Conserves s.line outbox line) : { s with outbox, line }.view = s.view := by
  simp only [view, h.output_eq, h.readAnswers_eq]

@[simp] theorem view_flush (s : Session) : s.flush.2.view = s.view :=
  view_of_conserves (Outbox.flush_conserves s.outbox s.line)

@[simp] theorem view_sendReplies (s : Session) : s.sendReplies.2.view = s.view.collect := by
  unfold sendReplies Codec.takeReplies
  dsimp only
  split
  · rename_i h
    simp [view, View.collect, Codec.takeReplies, h]
  · have h := Outbox.flushRetry_conserves s.timeout (s.outbox.extend s.codec.replies) s.line
    simp only [view, View.collect, Codec.takeReplies, h.output_eq, h.readAnswers_eq,
      Outbox.output_extend]

@[simp] theorem view_start (s : Session) : s.start.2.view = s.view.start := by
  unfold start View.start
  by_cases h : s.progress.isStarted = true
  · rw [if_pos h, if_pos (show s.view.progress.isStarted = true from h)]
  · rw [if_neg h, if_neg (show ¬s.view.progress.isStarted = true from h)]
    dsimp only
    rw [view_sendReplies]
    rfl

@[simp] theorem view_resize (window : WindowSize) (s : Session) :
    (s.resize window).2.view = s.view.resize window := by
  unfold resize View.resize
  dsimp only
  split
  · rename_i h
    rw [view_sendReplies, if_pos (show (s.view.codec.setWindow window).1 = true from h)]
    rfl
  · rename_i h
    rw [if_neg (show ¬(s.view.codec.setWindow window).1 = true from h)]
    rfl

@[simp] theorem view_sendCommand (c : Command) (s : Session) :
    (s.sendCommand c).2.view = s.view.command c := by
  unfold sendCommand
  dsimp only
  rw [view_sendReplies]
  rfl

/-! ### Reading -/

/-- Once a session has begun, beginning it is no matter. -/
theorem start_of_isStarted {s : Session} (h : s.progress.isStarted = true) :
    s.start = (.ok (), s) := by
  rw [start, if_pos h]

theorem gives_deliverOrBlock (room : Nat) (s : Session) :
    View.Gives (s.payload.take room) (s.deliverOrBlock room).1 := by
  unfold deliverOrBlock deliver
  dsimp only
  split
  · rename_i h
    rw [h]
    exact .none rfl _
  · rename_i h
    exact .some h

/-- Whether or not the replies can be sent, they are output, and payload that is
there is given. -/
theorem respondAndDeliver_gives (room : Nat) (s : Session) :
    View.Gives (s.payload.take room) (s.respondAndDeliver room).1 ∧
      (s.respondAndDeliver room).2.view = s.view.collect.deliver room := by
  have hview := view_sendReplies s
  have hpayload : s.sendReplies.2.payload = s.payload := congrArg View.payload hview
  have hresponds := respondAndDeliver_respondsBy room s
  generalize s.respondAndDeliver room = result at hresponds ⊢
  cases hresponds with
  | silent h =>
    have hnone : s.codec.replies = [] := by simpa [Codec.hasReplies] using h
    rw [View.collect_of_replies_nil (show s.view.codec.replies = [] from hnone)]
    exact ⟨gives_deliverOrBlock room s, rfl⟩
  | said h hs =>
    exact ⟨hpayload ▸ gives_deliverOrBlock room s.sendReplies.2,
      congrArg (View.deliver room) hview⟩
  | unsent h hs hp =>
    -- Without payload nothing is delivered, which is delivering none.
    rw [hpayload] at hp
    have hdrop : s.payload.drop room = s.payload := by simp [hp]
    refine ⟨.none (by simp [hp]) _, hview.trans ?_⟩
    simp only [View.deliver, View.collect, view, hdrop]
  | passedOver h hs hp =>
    exact ⟨hpayload ▸ gives_deliverOrBlock room _, congrArg (View.deliver room) hview⟩

/-- Decoding what an intake of the stream's middle holds. -/
theorem view_absorb_of_flowing {s : Session} (h : s.intake.phase = .flowing) :
    s.absorb.view =
      { s.view with
        codec := (s.codec.decode s.intake.buffer).2
        intake := { s.intake with buffer := [] }
        payload := s.payload ++ (s.codec.decode s.intake.buffer).1.payload } := by
  have heof : ({ s.intake with buffer := [] } : Intake).isEof = false := by simp [Intake.isEof, h]
  simp [absorb, Intake.take, heof, view]

/-- At the end of the stream nothing is held but a carriage return. -/
theorem view_absorb_of_ended {s : Session} (hi : s.intake.Drained) (h : s.intake.phase = .ended) :
    s.absorb.view =
      { s.view with
        codec := s.codec.releaseCr.2
        payload := s.payload ++ s.codec.releaseCr.1 } := by
  have heof : ({ s.intake with buffer := [] } : Intake).isEof = true := by simp [Intake.isEof, h]
  rw [hi.forget] at heof
  simp [absorb, Intake.take, hi.buffer_eq, Codec.decode, heof, hi.forget, view]

/-- Reading the transport: it fails, or its answer is heard and responded to. -/
theorem refill_spec (room : Nat) {s : Session} (hi : s.intake.Drained)
    (hp : s.intake.phase = .flowing) :
    (∃ f e, (s.refill room).1 = .error e ∧ (s.refill room).2.view = s.view.hear (.error f)) ∨
      ∃ data, View.Gives ((s.view.hear (.ok data)).payload.take room) (s.refill room).1 ∧
        (s.refill room).2.view = (s.view.hear (.ok data)).collect.deliver room := by
  have hlimit : s.intake.capacity ≠ 0 := Nat.ne_of_gt hi.capacity_pos
  obtain ⟨answer, hfilled, hread, haccepted⟩ := Intake.fill_filled hi hp hlimit s.line
  have houtput : s.outbox.output (s.intake.fill s.intake.capacity s.line).2.2 =
      s.outbox.output s.line := by
    rw [Outbox.output, haccepted, Outbox.output]
  unfold refill
  revert hfilled hread houtput
  generalize s.intake.fill s.intake.capacity s.line = result
  obtain ⟨outcome, intake, line⟩ := result
  intro hfilled hread houtput
  dsimp only at hfilled hread houtput
  cases hfilled with
  | failed f e =>
    refine .inl ⟨f, e, rfl, ?_⟩
    simp only [view, View.hear, hread, houtput]
  | ended =>
    refine .inr ⟨[], ?_⟩
    have hview : ({ s with intake := { s.intake with phase := .ended }, line }.absorb).view =
        s.view.hear (.ok []) := by
      rw [view_absorb_of_ended (hi.phase .ended) rfl]
      simp only [view, View.hear, hread, houtput]
    rw [← hview]
    exact respondAndDeliver_gives room _
  | taken data h =>
    refine .inr ⟨data, ?_⟩
    have hview : ({ s with intake := { s.intake with buffer := data }, line }.absorb).view =
        s.view.hear (.ok data) := by
      have habsorb := view_absorb_of_flowing
        (s := { s with intake := { s.intake with buffer := data }, line }) hp
      rw [habsorb]
      cases data with
      | nil => exact absurd rfl h
      | cons byte rest => simp only [view, View.hear, hread, houtput, hi.forget]
    rw [← hview]
    exact respondAndDeliver_gives room _

/-- **What a read does.** -/
theorem read_reads (room : Nat) {s : Session} (hi : s.intake.Drained) :
    View.Reads room s.view (s.read room).1 (s.read room).2.view := by
  have hview := view_start s
  have hpayload : s.start.2.payload = s.payload :=
    (congrArg View.payload hview).trans (View.start_payload _)
  have hintake : s.start.2.intake = s.intake :=
    (congrArg View.intake hview).trans (View.start_intake _)
  have hphase : s.view.intake.phase = s.start.2.intake.phase := by rw [hintake]; rfl
  rw [← hintake] at hi
  have hreads := read_readsBy room s
  generalize s.read room = result at hreads ⊢
  cases hreads with
  | nothing hr => exact hr ▸ .nothing s.view
  | @unstarted hr e hs =>
    have hidle : s.progress.isStarted = false := by
      cases h : s.progress.isStarted with
      | false => rfl
      | true => cases (congrArg Prod.fst (start_of_isStarted h)).symm.trans hs
    rw [hview]
    exact .unsent hr hidle e
  | carried hr hs hp =>
    rw [hpayload] at hp ⊢
    show View.Reads room s.view (.ok (s.payload.take room)) (s.start.2.view.deliver room)
    rw [hview]
    exact .carried hr hp
  | notice hr hs hp hdue =>
    obtain ⟨sent, hsent, hpoll⟩ := hi.of_notice_due hdue
    have h := View.Reads.notice sent hr (hpayload.symm.trans hp) (hphase ▸ hsent)
    rw [← hview] at h
    rw [hpoll, Intake.readNotice_of_notice rfl]
    exact h
  | closed hr hs hp hdue =>
    obtain ⟨hclosed, hpoll⟩ := hi.of_nothing_due hdue
    rw [hpoll]
    exact hview ▸ .closed hr (hpayload.symm.trans hp) (hphase.trans hclosed)
  | refilled hr hs hp hdue =>
    obtain ⟨hflowing, hpoll⟩ := hi.of_payload_due hdue
    rw [hpoll]
    rcases refill_spec room hi hflowing with ⟨f, e, herror, hrefill⟩ | ⟨data, hgives, hrefill⟩
    · show View.Reads room s.view (s.start.2.refill room).1 (s.start.2.refill room).2.view
      rw [herror, hrefill, hview]
      exact .failed hr (hpayload.symm.trans hp) (hphase.trans hflowing) f e
    · show View.Reads room s.view (s.start.2.refill room).1 (s.start.2.refill room).2.view
      rw [hview] at hgives hrefill
      rw [hrefill]
      exact .heard hr (hpayload.symm.trans hp) (hphase.trans hflowing) data hgives

/-! ### Writing -/

/-- One round of pouring: what is framed is output, however much of it is sent. -/
theorem view_flush_framed (data : Bytes) (s : Session) :
    (s.framed data).flush.2.view = s.view.frame (data.take (s.taken data)) s.deferred := by
  rw [view_flush, framed_eq]
  simp only [view, View.frame, Codec.encode, Outbox.output_extend]

/-- Whatever stops it, pouring frames the bytes that it answers for. -/
theorem pour_spec (data : Bytes) (s : Session) :
    (s.pour data).1 ≤ data.length ∧ (s.pour data).2.view =
      s.view.frame (data.take (s.pour data).1) (s.pour data).2.deferred := by
  have hpours := pour_poursBy data s
  generalize s.pour data = result at hpours ⊢
  induction hpours with
  | done h => exact ⟨Nat.zero_le _, by simp [View.frame, Codec.encode, encode, view]⟩
  | @complete data s hsome hdata hf rest hrest ih =>
    have hcut := fillsLimit_taken data s
    obtain ⟨hle, hpour⟩ := ih
    have hused := hcut.le_length
    refine ⟨?_, ?_⟩
    · show s.taken data + rest.1 ≤ data.length
      rw [List.length_drop] at hle
      omega
    · show rest.2.view = s.view.frame (data.take (s.taken data + rest.1)) rest.2.deferred
      rw [hpour, view_flush_framed, View.frame_frame (hcut.clean.take _), List.take_add]
  | @stalled data s hsome hdata hf =>
    exact ⟨(fillsLimit_taken data s).le_length, view_flush_framed data s⟩
  | @failed data s hsome hdata e hf =>
    exact ⟨(fillsLimit_taken data s).le_length,
      congrArg (fun v => { v with deferred := some e }) (view_flush_framed data s)⟩

/-- **What a write does.** -/
theorem write_writes (data : Bytes) (s : Session) :
    View.Writes data s.view (s.write data).1 (s.write data).2.view := by
  have hstart := view_start s
  have hflush : s.start.2.flush.2.view = s.view.start := (view_flush s.start.2).trans hstart
  have hgoes := write_goes data s
  generalize s.write data = result at hgoes ⊢
  cases hgoes with
  | reported e h => exact .reported e h
  | nothing h hdata => exact .nothing h hdata
  | @unstarted h hdata e hs =>
    rw [hstart]
    exact .unsent h hdata e
  | @unsent h hdata e hf =>
    rw [hflush]
    exact .unsent h hdata e
  | stalled h hdata hf =>
    rw [hflush]
    exact .unsent h hdata .wouldBlock
  | poured h hdata hf =>
    obtain ⟨hle, hpour⟩ := pour_spec data s.start.2.flush.2
    rw [hpour, hflush]
    exact .framed h hdata _ hle _

end Session
end Telnet
end RemoteTerminal
