/-
# What a session writes comes to

Two kinds of bytes enter the output of a session: what its codec has to say, and what
a caller writes.  A `Ledger` keeps the two in the order in which they came up.  It is
made from the calls alone, with their outcomes and what the transport answered to
their reads (`Entry`): a codec by itself, whose replies are entered as soon as there
are any, and a caller's bytes, framed without a limit, once a write has answered for
them.

`output_stream` says that what the transport has accepted, followed by what is pending,
is what the ledger holds.  So no byte is lost or doubled on the way, and none is moved:
a reply stands between two texts and never in one.
-/

import RemoteTerminal.Proofs.Telnet.View

namespace RemoteTerminal
namespace Telnet

/-- A stretch of output. -/
inductive Stretch where
  /-- What the codec had to say. -/
  | said (bytes : Bytes)
  /-- A caller's bytes, in the mode that was in effect. -/
  | framed (binary : Bool) (data : Bytes)
  deriving DecidableEq, Repr

/-- The bytes of a stretch on the wire. -/
def Stretch.bytes : Stretch → Bytes
  | said bytes => bytes
  | framed binary data => encode binary data

/-- A call, its outcome, and what the transport answered to its reads. -/
structure Entry where
  call : Call
  outcome : Outcome TransportError
  answers : List (Except Fault Bytes)

/-- A codec by itself, and the output so far. -/
structure Ledger where
  codec : Codec
  begun : Bool := false
  stretches : List Stretch := []

namespace Ledger

/-- All output, in order. -/
def output (l : Ledger) : Bytes := l.stretches.flatMap Stretch.bytes

/-- Enter what the codec has to say. -/
def collect (l : Ledger) : Ledger :=
  { l with
    codec := l.codec.takeReplies.2
    stretches := l.stretches ++ [.said l.codec.takeReplies.1] }

/-- The requests of the beginning, once. -/
def start (l : Ledger) : Ledger :=
  if l.begun then l else { l with codec := l.codec.start.2, begun := true }.collect

/-- Decode what the transport answered to a read; at the end of the stream a return
that is held back is given up. -/
def hear (l : Ledger) : Except Fault Bytes → Ledger
  | .error _ => l
  | .ok [] => { l with codec := l.codec.releaseCr.2 }
  | .ok data => { l with codec := (l.codec.decode data).2 }.collect

/-- Enter a caller's bytes. -/
def frame (data : Bytes) (l : Ledger) : Ledger :=
  { l with stretches := l.stretches ++ [.framed l.codec.flags.binaryMode data] }

/-- Enter what comes of a call.  A write has put out the bytes that it answers for, and
none if it failed. -/
def enter (l : Ledger) (e : Entry) : Ledger :=
  match e.call with
  | .start => l.start
  | .read room => if room = 0 then l else e.answers.foldl hear l.start
  | .write data =>
    if data = [] then l
    else
      match e.outcome with
      | .count (.ok count) => l.start.frame (data.take count)
      | _ => l.start
  | .flush => l
  | .resize window => { l with codec := (l.codec.setWindow window).2.2 }.collect
  | .command c => { l with codec := (l.codec.sayCommand c).2 }.collect

end Ledger

namespace Session

/-- A call as it is entered. -/
def entry (call : Call) (s : Session) : Entry where
  call := call
  outcome := (s.perform call).1
  answers :=
    (s.perform call).2.line.transport.readAnswers.drop s.line.transport.readAnswers.length

/-- Calls as they are entered, made in order. -/
def entries : List Call → Session → List Entry
  | [], _ => []
  | call :: rest, s => s.entry call :: entries rest (s.perform call).2

end Session

/-- A window size that is not reported gives the codec nothing to say. -/
theorem Codec.replies_setWindow_of_not_reported {window : WindowSize} {c : Codec}
    (h : (c.setWindow window).1 = false) : (c.setWindow window).2.2.replies = c.replies := by
  unfold setWindow at h ⊢
  dsimp only at h ⊢
  split at h
  · cases h
  · rename_i hn
    rw [if_neg hn]

namespace View

/-- Between two calls the codec has nothing left to say, and a write that owes a fault
was made by a session that has begun. -/
structure Settled (v : View) : Prop where
  drained : v.intake.Drained
  silent : v.codec.replies = []
  begun : v.deferred.isSome = true → v.progress.isStarted = true

/-- A ledger that holds the output of a view, at the same codec. -/
structure Matches (l : Ledger) (v : View) : Prop where
  codec_eq : l.codec = v.codec
  begun_eq : l.begun = v.progress.isStarted
  output_eq : l.output = v.output

namespace Matches

variable {l : Ledger} {v : View}

theorem collect (h : Matches l v) : Matches l.collect v.collect := by
  obtain ⟨hcodec, hbegun, houtput⟩ := h
  refine ⟨?_, hbegun, ?_⟩
  · rw [Ledger.collect, View.collect, hcodec]
  · rw [Ledger.collect, Ledger.output, List.flatMap_append, View.collect, ← houtput, hcodec]
    simp [Stretch.bytes, Codec.takeReplies, Ledger.output]

theorem start (h : Matches l v) : Matches l.start v.start := by
  obtain ⟨hcodec, hbegun, houtput⟩ := h
  unfold Ledger.start View.start
  rw [hbegun, hcodec]
  split
  · exact ⟨hcodec, hbegun, houtput⟩
  · exact collect ⟨rfl, rfl, houtput⟩

theorem frame (h : Matches l v) (data : Bytes) (deferred : Option TransportError) :
    Matches (l.frame data) (v.frame data deferred) := by
  obtain ⟨hcodec, hbegun, houtput⟩ := h
  refine ⟨hcodec, hbegun, ?_⟩
  rw [Ledger.frame, Ledger.output, List.flatMap_append, View.frame, ← houtput, hcodec]
  simp [Stretch.bytes, Codec.encode, Ledger.output]

/-- Hearing an answer, for which a view that hears the end has nothing to collect. -/
theorem hear (h : Matches l v) (hs : v.codec.replies = []) (data : Bytes) :
    Matches (l.hear (.ok data)) (v.hear (.ok data)).collect := by
  obtain ⟨hcodec, hbegun, houtput⟩ := h
  cases data with
  | nil =>
    rw [collect_of_replies_nil (v := v.hear (.ok [])) hs]
    refine ⟨?_, hbegun, houtput⟩
    rw [Ledger.hear, hcodec]
    rfl
  | cons byte rest =>
    have hdecoded : Matches { l with codec := (l.codec.decode (byte :: rest)).2 }
        (v.hear (.ok (byte :: rest))) := by
      refine ⟨?_, hbegun, houtput⟩
      rw [hcodec]
      rfl
    exact hdecoded.collect

theorem command (h : Matches l v) (c : Command) :
    Matches { l with codec := (l.codec.sayCommand c).2 }.collect (v.command c) := by
  obtain ⟨hcodec, hbegun, houtput⟩ := h
  refine collect ⟨?_, hbegun, houtput⟩
  rw [hcodec]

/-- A size that is not reported leaves nothing to collect. -/
theorem resize (h : Matches l v) (hs : v.codec.replies = []) (window : WindowSize) :
    Matches { l with codec := (l.codec.setWindow window).2.2 }.collect (v.resize window) := by
  obtain ⟨hcodec, hbegun, houtput⟩ := h
  have hcollected : v.resize window =
      { v with codec := (v.codec.setWindow window).2.2 }.collect := by
    unfold View.resize
    dsimp only
    split
    · rfl
    · rename_i hsilent
      have hreplies := Codec.replies_setWindow_of_not_reported (by simpa using hsilent)
      rw [collect_of_replies_nil (hreplies.trans hs)]
  rw [hcollected]
  refine collect ⟨?_, hbegun, houtput⟩
  rw [hcodec]

end Matches

/-! ### One call -/

theorem silent_start {v : View} (h : v.codec.replies = []) : v.start.codec.replies = [] := by
  unfold start
  split
  · exact h
  · rfl

theorem Settled.fresh (role : Role) (terminal : Terminal) (size timeout : Nat) (t : Transport) :
    Settled (Session.fresh role terminal size timeout t).view where
  drained := Intake.drained_ofCapacity size
  silent := rfl
  begun h := nomatch h

theorem Settled.start {v : View} (h : Settled v) : Settled v.start :=
  ⟨start_intake v ▸ h.drained, silent_start h.silent, fun _ => start_isStarted v⟩

theorem Settled.resize {v : View} (h : Settled v) (window : WindowSize) :
    Settled (v.resize window) := by
  unfold View.resize
  split
  · exact ⟨h.drained, rfl, h.begun⟩
  · rename_i hsilent
    have hreplies := Codec.replies_setWindow_of_not_reported (by simpa using hsilent)
    exact ⟨h.drained, hreplies.trans h.silent, h.begun⟩

variable {l : Ledger} {v v' : View}

/-- An answer is the newest of all answers. -/
theorem answers_hear (v : View) (answer : Except Fault Bytes) :
    (v.hear answer).answers = v.answers ++ [answer] := by
  match answer with
  | .error f => rfl
  | .ok [] => rfl
  | .ok (byte :: rest) => rfl

theorem Settled.hear {v : View} (h : Settled v) (answer : Except Fault Bytes) :
    (v.hear answer).intake.Drained ∧
      ((v.hear answer).deferred.isSome = true → (v.hear answer).progress.isStarted = true) := by
  match answer with
  | .error f => exact ⟨h.drained, h.begun⟩
  | .ok [] => exact ⟨h.drained.phase .ended, h.begun⟩
  | .ok (byte :: rest) => exact ⟨h.drained, h.begun⟩

/-- What a read adds to the output comes of the answer that it got, if it got to read
the transport. -/
theorem Reads.enter (hm : Matches l v) (hs : Settled v) {room : Nat}
    {result : Except TransportError Bytes} (hr : Reads room v result v') :
    Settled v' ∧
      Matches (l.enter ⟨.read room, .data result, v'.answers.drop v.answers.length⟩) v' := by
  have hstart := hm.start
  have hsettled := hs.start
  have henter (hroom : room ≠ 0) (answers : List (Except Fault Bytes)) :
      l.enter ⟨.read room, .data result, answers⟩ = answers.foldl Ledger.hear l.start :=
    if_neg hroom
  have hnone : v.start.answers.drop v.answers.length = [] := by rw [start_answers, List.drop_length]
  have hone (answer : Except Fault Bytes) :
      (v.start.hear answer).answers.drop v.answers.length = [answer] := by
    rw [answers_hear, start_answers, List.drop_left]
  cases hr with
  | nothing v => exact ⟨hs, hm⟩
  | unsent hr hidle e =>
    rw [henter hr, hnone]
    exact ⟨hsettled, hstart⟩
  | carried hr hp =>
    have hanswers : (v.start.deliver room).answers = v.start.answers := rfl
    rw [henter hr, hanswers, hnone]
    exact ⟨⟨hsettled.drained, hsettled.silent, hsettled.begun⟩,
      ⟨hstart.codec_eq, hstart.begun_eq, hstart.output_eq⟩⟩
  | notice sent hr hp hphase =>
    have hanswers : (v.start.tell (Farewell.after sent room)).answers = v.start.answers := rfl
    rw [henter hr, hanswers, hnone]
    exact ⟨⟨hsettled.drained.phase _, hsettled.silent, hsettled.begun⟩,
      ⟨hstart.codec_eq, hstart.begun_eq, hstart.output_eq⟩⟩
  | closed hr hp hphase =>
    rw [henter hr, hnone]
    exact ⟨hsettled, hstart⟩
  | failed hr hp hphase f e =>
    rw [henter hr, hone]
    exact ⟨⟨hsettled.drained, hsettled.silent, hsettled.begun⟩,
      ⟨hstart.codec_eq, hstart.begun_eq, hstart.output_eq⟩⟩
  | heard hr hp hphase data hgives =>
    obtain ⟨hdrained, hbegun⟩ := hsettled.hear (.ok data)
    obtain ⟨hcodec, hstarted, houtput⟩ := hstart.hear hsettled.silent data
    have hanswers : ((v.start.hear (.ok data)).collect.deliver room).answers =
        (v.start.hear (.ok data)).answers := rfl
    rw [henter hr, hanswers, hone]
    exact ⟨⟨hdrained, rfl, hbegun⟩, ⟨hcodec, hstarted, houtput⟩⟩

/-- A write adds the framed form of the bytes that it answers for. -/
theorem Writes.enter (hm : Matches l v) (hs : Settled v) {data : Bytes}
    {result : Except TransportError Nat} (hw : Writes data v result v')
    (answers : List (Except Fault Bytes)) :
    Settled v' ∧ Matches (l.enter ⟨.write data, .count result, answers⟩) v' := by
  have hstart := hm.start
  have hsettled := hs.start
  cases hw with
  | reported e h =>
    have hbegun : v.progress.isStarted = true := hs.begun (by rw [h]; rfl)
    rw [start_of_isStarted hbegun] at hstart
    refine ⟨⟨hs.drained, hs.silent, fun hd => (nomatch hd)⟩, ?_⟩
    by_cases hdata : data = []
    · simpa [Ledger.enter, hdata] using ⟨hm.codec_eq, hm.begun_eq, hm.output_eq⟩
    · simpa [Ledger.enter, hdata] using ⟨hstart.codec_eq, hstart.begun_eq, hstart.output_eq⟩
  | nothing h hdata => exact ⟨hs, by simpa [Ledger.enter, hdata] using hm⟩
  | unsent h hdata e => exact ⟨hsettled, by simpa [Ledger.enter, hdata] using hstart⟩
  | framed h hdata count hcount deferred =>
    refine ⟨⟨hsettled.drained, hsettled.silent, fun _ => start_isStarted v⟩, ?_⟩
    simpa [Ledger.enter, hdata] using hstart.frame (data.take count) deferred

end View

namespace Session

open View (Settled Matches)

variable {l : Ledger}

/-- **Every call adds to the output what is entered for it.** -/
theorem matches_perform (call : Call) {s : Session} (hm : Matches l s.view) (hs : Settled s.view) :
    Settled (s.perform call).2.view ∧ Matches (l.enter (s.entry call)) (s.perform call).2.view := by
  cases call with
  | start => exact view_start s ▸ ⟨hs.start, hm.start⟩
  | read room => exact View.Reads.enter hm hs (read_reads room hs.drained)
  | write data => exact View.Writes.enter hm hs (write_writes data s) _
  | flush => exact view_flush s ▸ ⟨hs, hm⟩
  | resize window => exact view_resize window s ▸ ⟨hs.resize window, hm.resize hs.silent window⟩
  | command c =>
    exact view_sendCommand c s ▸ ⟨⟨hs.drained, rfl, hs.begun⟩, hm.command c⟩

/-- So do runs. -/
theorem matches_run (calls : List Call) {s : Session} (hm : Matches l s.view)
    (hs : Settled s.view) :
    Settled (s.run calls).2.view ∧
      Matches ((entries calls s).foldl Ledger.enter l) (s.run calls).2.view := by
  induction calls generalizing s l with
  | nil => exact ⟨hs, hm⟩
  | cons call rest ih =>
    obtain ⟨hsettled, hmatches⟩ := matches_perform call hm hs
    exact ih hmatches hsettled

/-- **Every byte of output is accounted for, once and in its place.**  This is so of
every session from its beginning, of all calls in any order, and of all that a
transport may answer.  What the transport has accepted, followed by what is pending,
is what a codec by itself had to say and what the writes have answered for, in the
order in which they came up; and the codec has nothing left to say. -/
theorem output_stream (role : Role) (terminal : Terminal) (size timeout : Nat) (t : Transport)
    (calls : List Call) :
    let first := fresh role terminal size timeout t
    let s := (first.run calls).2
    let ledger := (entries calls first).foldl Ledger.enter { codec := { role, terminal } }
    s.line.transport.accepted ++ s.outbox.pending = ledger.output ∧
      ledger.codec = s.codec ∧ s.codec.replies = [] := by
  intro first s ledger
  have hfirst : Matches { codec := { role, terminal } } first.view := ⟨rfl, rfl, rfl⟩
  obtain ⟨hsettled, hmatches⟩ := matches_run calls hfirst (.fresh role terminal size timeout t)
  exact ⟨hmatches.output_eq.symm, hmatches.codec_eq, hsettled.silent⟩

end Session
end Telnet
end RemoteTerminal
