/-
# What reading a session comes to

The transport brings bytes in chunks, the intake passes them to the codec, payload
that nobody has asked for yet is carried over, and at the end come a carriage return
that was held back and the close notice.  In between, replies may fail to be sent.

Over all of it there is one account (`View.Account`): what was handed to the caller,
followed by what is carried over, is what the codec makes of the stream, and once the
stream has ended also the return and the part of the notice that is out.  Every call
keeps it (`Account.reads`, `SameInput`), so every run does (`Session.account_run`).
`read_stream` reads off what a caller has to know.
-/

import RemoteTerminal.Proofs.Telnet.Reader
import RemoteTerminal.Proofs.Telnet.View

namespace RemoteTerminal

/-- The bytes that a call handed to its caller. -/
def Outcome.bytes {ε : Type} : Outcome ε → Bytes
  | .data result => bytesOf result
  | _ => []

/-- The bytes that were read by calls. -/
def bytesRead {ε : Type} (outcomes : List (Outcome ε)) : Bytes := outcomes.flatMap Outcome.bytes

namespace Telnet

/-- What a codec of a role makes of the answers to all reads. -/
def heard (role : Role) (answers : List (Except Fault Bytes)) : Decoded × Codec :=
  ({ role } : Codec).decode (answers.flatMap bytesOf)

theorem heard_append (role : Role) (answers : List (Except Fault Bytes))
    (answer : Except Fault Bytes) :
    heard role (answers ++ [answer]) =
      ((heard role answers).1 ++ ((heard role answers).2.decode (bytesOf answer)).1,
        ((heard role answers).2.decode (bytesOf answer)).2) := by
  simp [heard, Codec.decode_append]

namespace View

/-! ### Calls that read nothing -/

/-- The way from one view to another took nothing in and handed nothing out. -/
structure SameInput (v v' : View) : Prop where
  intake_eq : v'.intake = v.intake
  payload_eq : v'.payload = v.payload
  answers_eq : v'.answers = v.answers
  reader_eq : v'.codec.reader = v.codec.reader
  begun : v.progress.isStarted = true → v'.progress.isStarted = true

theorem SameInput.refl (v : View) : SameInput v v := ⟨rfl, rfl, rfl, rfl, id⟩

theorem SameInput.trans {v v' v'' : View} (h : SameInput v v') (h' : SameInput v' v'') :
    SameInput v v'' :=
  ⟨h'.intake_eq.trans h.intake_eq, h'.payload_eq.trans h.payload_eq,
    h'.answers_eq.trans h.answers_eq, h'.reader_eq.trans h.reader_eq,
    fun hb => h'.begun (h.begun hb)⟩

theorem sameInput_collect (v : View) : SameInput v v.collect := ⟨rfl, rfl, rfl, rfl, id⟩

theorem sameInput_start (v : View) : SameInput v v.start := by
  refine ⟨start_intake v, start_payload v, start_answers v, ?_, fun _ => start_isStarted v⟩
  unfold start
  split
  · rfl
  · exact Codec.reader_start v.codec

theorem sameInput_resize (window : WindowSize) (v : View) : SameInput v (v.resize window) := by
  have hreader := Codec.reader_setWindow window v.codec
  unfold resize
  split
  · exact ⟨rfl, rfl, rfl, hreader, id⟩
  · exact ⟨rfl, rfl, rfl, hreader, id⟩

theorem sameInput_command (c : Command) (v : View) : SameInput v (v.command c) :=
  ⟨rfl, rfl, rfl, rfl, id⟩

theorem Writes.sameInput {data : Bytes} {v v' : View} {result : Except TransportError Nat}
    (h : Writes data v result v') : SameInput v v' := by
  cases h with
  | reported e h => exact ⟨rfl, rfl, rfl, rfl, id⟩
  | nothing h hdata => exact .refl v
  | unsent h hdata e => exact sameInput_start v
  | framed h hdata count hcount d => exact (sameInput_start v).trans ⟨rfl, rfl, rfl, rfl, id⟩

/-! ### The account -/

/-- The account of a stream of which a caller was handed the bytes `given`. -/
structure Account (role : Role) (given : Bytes) (v : View) : Prop where
  drained : v.intake.Drained
  /-- Before the end: what was handed out and what is carried over is what was heard. -/
  flowing : v.intake.phase = .flowing →
    given ++ v.payload = (heard role v.answers).1.payload ∧
      v.codec.reader = (heard role v.answers).2.reader
  /-- After the end: the return that was held back comes after it, then the notice. -/
  ended : v.intake.phase ≠ .flowing →
    given ++ v.payload = (heard role v.answers).1.payload ++
      Return.release (heard role v.answers).2.pendingCr ++ v.intake.phase.told
  sawEnd_iff : .ok [] ∈ v.answers ↔ v.intake.phase ≠ .flowing
  begun : v.intake.phase ≠ .flowing → v.progress.isStarted = true
  /-- The notice does not begin before the payload is out. -/
  emptied : v.intake.phase.told ≠ [] → v.payload = []
  unfinished : ∀ sent, v.intake.phase = .notice sent → sent < closeNotice.length

namespace Account

variable {role : Role} {given : Bytes} {v v' : View}

theorem fresh (role : Role) (terminal : Terminal) (size timeout : Nat) (t : Transport) :
    Account role [] (Session.fresh role terminal size timeout t).view where
  drained := Intake.drained_ofCapacity size
  flowing _ := ⟨rfl, rfl⟩
  ended h := absurd rfl h
  sawEnd_iff := ⟨fun h => absurd h List.not_mem_nil, fun h => absurd rfl h⟩
  begun h := absurd rfl h
  emptied _ := rfl
  unfinished _ h := nomatch h

theorem sameInput (h : Account role given v) (hsame : SameInput v v') : Account role given v' := by
  obtain ⟨hintake, hpayload, hanswers, hreader, hbegun⟩ := hsame
  refine ⟨?_, ?_, ?_, ?_, ?_, ?_, ?_⟩
  · exact hintake ▸ h.drained
  · rw [hintake, hpayload, hanswers, hreader]
    exact h.flowing
  · rw [hintake, hpayload, hanswers]
    exact h.ended
  · rw [hintake, hanswers]
    exact h.sawEnd_iff
  · rw [hintake]
    exact fun hp => hbegun (h.begun hp)
  · rw [hintake, hpayload]
    exact h.emptied
  · rw [hintake]
    exact h.unfinished

/-- Handing out payload moves it from one side of the account to the other. -/
theorem deliver (h : Account role given v) (room : Nat) :
    Account role (given ++ v.payload.take room) (v.deliver room) := by
  have hbytes : given ++ v.payload.take room ++ (v.deliver room).payload = given ++ v.payload := by
    rw [View.deliver, List.append_assoc, List.take_append_drop]
  refine ⟨h.drained, ?_, ?_, h.sawEnd_iff, h.begun, ?_, h.unfinished⟩
  · rw [hbytes]
    exact h.flowing
  · rw [hbytes]
    exact h.ended
  · intro htold
    rw [View.deliver, h.emptied htold, List.drop_nil]

/-- A chunk that was heard, or a failure, while the stream is flowing. -/
theorem hear_of_ne_end (h : Account role given v) (hp : v.intake.phase = .flowing)
    {answer : Except Fault Bytes} (hne : answer ≠ .ok []) : Account role given (v.hear answer) := by
  obtain ⟨hpaid, hreader⟩ := h.flowing hp
  obtain ⟨hdecoded, hnext⟩ := Codec.decode_congr hreader (bytesOf answer)
  have hnoEnd : .ok [] ∉ v.answers ++ [answer] := by
    rw [List.mem_append, List.mem_singleton]
    rintro (hmem | heq)
    · exact h.sawEnd_iff.1 hmem hp
    · exact hne heq.symm
  rw [View.hear_of_ne_end hne]
  refine ⟨h.drained, fun _ => ⟨?_, ?_⟩, fun hp' => absurd hp hp', ?_, fun hp' => absurd hp hp',
    fun htold => absurd (by rw [hp]; rfl) htold, h.unfinished⟩
  · rw [heard_append, Decoded.payload_append, ← hdecoded, ← hpaid, List.append_assoc]
  · rw [heard_append]
    exact hnext
  · exact ⟨fun hmem => absurd hmem hnoEnd, fun hp' => absurd hp hp'⟩

/-- The end of the stream. -/
theorem hear_end (h : Account role given v) (hp : v.intake.phase = .flowing)
    (hb : v.progress.isStarted = true) : Account role given (v.hear (.ok [])) := by
  obtain ⟨hpaid, hreader⟩ := h.flowing hp
  have hcr : v.codec.pendingCr = (heard role v.answers).2.pendingCr :=
    congrArg Reader.pendingCr hreader
  refine ⟨h.drained.phase .ended, fun hp' => (nomatch hp'), fun _ => ?_, ?_, fun _ => hb,
    fun htold => absurd rfl htold, fun _ hp' => (nomatch hp')⟩
  · show given ++ (v.payload ++ Return.release v.codec.pendingCr) =
      (heard role (v.answers ++ [.ok []])).1.payload ++
        Return.release (heard role (v.answers ++ [.ok []])).2.pendingCr ++ []
    rw [heard_append, hcr, ← List.append_assoc, hpaid]
    simp [bytesOf, Codec.decode]
  · exact ⟨fun _ hp' => (nomatch hp'), fun _ => List.mem_append_right _ (List.mem_singleton.2 rfl)⟩

/-- A piece of the notice is handed out. -/
theorem tell (h : Account role given v) (hpayload : v.payload = []) {sent : Nat} (room : Nat)
    (hphase : v.intake.phase = .notice sent ∨ v.intake.phase = .ended ∧ sent = 0) :
    Account role (given ++ Farewell.piece sent room) (v.tell (Farewell.after sent room)) := by
  have hne : v.intake.phase ≠ .flowing := by
    rcases hphase with hphase | ⟨hphase, -⟩ <;> simp [hphase]
  have htold : v.intake.phase.told = closeNotice.take sent := by
    rcases hphase with hphase | ⟨hphase, rfl⟩ <;> rw [hphase] <;> rfl
  have hpaid := h.ended hne
  rw [hpayload, List.append_nil, htold] at hpaid
  have hafter := Farewell.after_ne_flowing sent room
  refine ⟨h.drained.phase _, fun hp => absurd hp hafter, fun _ => ?_, ?_, fun _ => h.begun hne,
    fun _ => hpayload, fun _ hp => Farewell.lt_of_after_eq_notice hp⟩
  · show given ++ Farewell.piece sent room ++ v.payload = _
    rw [hpayload, List.append_nil, hpaid, List.append_assoc, View.tell, Phase.told_after]
  · exact ⟨fun _ => hafter, fun _ => h.sawEnd_iff.2 hne⟩

/-- **A read keeps the account.** -/
theorem reads (h : Account role given v) {room : Nat} {result : Except TransportError Bytes}
    (hr : Reads room v result v') : Account role (given ++ bytesOf result) v' := by
  have hstart := h.sameInput (sameInput_start v)
  have hnone : given ++ [] = given := List.append_nil given
  cases hr with
  | nothing v => exact hnone.symm ▸ h
  | unsent hr hs e => exact hnone.symm ▸ hstart
  | carried hr hp =>
    have hd := hstart.deliver room
    rwa [start_payload] at hd
  | notice sent hr hp hphase =>
    exact hstart.tell ((start_payload v).trans hp) room (by rwa [start_intake])
  | closed hr hp hphase => exact hnone.symm ▸ hstart
  | failed hr hp hphase f e =>
    have hne : (.error f : Except Fault Bytes) ≠ .ok [] := fun he => nomatch he
    exact hnone.symm ▸ hstart.hear_of_ne_end (by rwa [start_intake]) hne
  | heard hr hp hphase data hresult =>
    rw [← start_intake] at hphase
    have hh : Account role given (v.start.hear (.ok data)) := by
      cases data with
      | nil => exact hstart.hear_end hphase (start_isStarted v)
      | cons byte rest => exact hstart.hear_of_ne_end hphase (by simp)
    rw [hresult.bytesOf_eq]
    exact (hh.sameInput (sameInput_collect _)).deliver room

/-- A read of something that gives nothing comes after the whole notice. -/
theorem closed_of_reads_nothing (h : Account role given v) {room : Nat} (hroom : room ≠ 0)
    (hr : Reads room v (.ok []) v') : v.intake.phase = .closed := by
  generalize hresult : (.ok [] : Except TransportError Bytes) = result at hr
  cases hr with
  | nothing v => exact absurd rfl hroom
  | unsent hr hs e => cases hresult
  | carried hr hp =>
    have hnone := Except.ok.inj hresult
    cases hpayload : v.payload with
    | nil => exact absurd hpayload hp
    | cons byte rest =>
      rw [hpayload] at hnone
      cases room with
      | zero => exact absurd rfl hr
      | succ room => cases hnone
  | notice sent hr hp hphase =>
    have hlt : sent < closeNotice.length := by
      rcases hphase with hphase | ⟨-, rfl⟩
      · exact h.unfinished sent hphase
      · decide
    exact absurd (Except.ok.inj hresult).symm (Farewell.piece_ne_nil hlt hr)
  | closed hr hp hphase => exact hphase
  | failed hr hp hphase f e => cases hresult
  | heard hr hp hphase data hgives => exact absurd hresult.symm hgives.ne_nothing

/-- Nothing but the last piece completes the notice. -/
theorem closed_of_given (h : Account role given v)
    (hgiven : given = (heard role v.answers).1.payload ++
      Return.release (heard role v.answers).2.pendingCr ++ closeNotice) :
    v.intake.phase = .closed := by
  have hnotice := closeNotice_length
  have hlength := congrArg List.length hgiven
  simp only [List.length_append] at hlength
  cases hphase : v.intake.phase with
  | flowing =>
    have hpaid := congrArg List.length (h.flowing hphase).1
    rw [List.length_append] at hpaid
    omega
  | ended =>
    have hpaid := congrArg List.length (h.ended (by simp [hphase]))
    simp only [List.length_append, hphase, Phase.told, List.length_nil] at hpaid
    omega
  | notice sent =>
    have hlt := h.unfinished sent hphase
    have hpaid := congrArg List.length (h.ended (by simp [hphase]))
    simp only [List.length_append, hphase, Phase.told, List.length_take] at hpaid
    omega
  | closed => rfl

/-- After the whole notice a read gives nothing, and takes nothing in. -/
theorem reads_of_closed (h : Account role given v) (hc : v.intake.phase = .closed) {room : Nat}
    {result : Except TransportError Bytes} (hr : Reads room v result v') :
    result = .ok [] ∧ SameInput v v' := by
  have hbegun : v.progress.isStarted = true := h.begun (by simp [hc])
  have hempty : v.payload = [] := h.emptied (by rw [hc]; decide)
  cases hr with
  | nothing v => exact ⟨rfl, .refl v⟩
  | unsent hr hs e => simp [hbegun] at hs
  | carried hr hp => exact absurd hempty hp
  | notice sent hr hp hphase => simp [hc] at hphase
  | closed hr hp hphase => exact ⟨rfl, sameInput_start v⟩
  | failed hr hp hphase f e => simp [hc] at hphase
  | heard hr hp hphase data hgives => simp [hc] at hphase

end Account
end View

namespace Session

open View (Account SameInput)

variable {role : Role} {given : Bytes}

theorem sameInput_perform {call : Call} (hcall : ∀ room, call ≠ .read room) (s : Session) :
    SameInput s.view (s.perform call).2.view ∧ (s.perform call).1.bytes = [] := by
  cases call with
  | read room => exact absurd rfl (hcall room)
  | start => exact ⟨view_start s ▸ View.sameInput_start s.view, rfl⟩
  | write data => exact ⟨(write_writes data s).sameInput, rfl⟩
  | flush => exact ⟨view_flush s ▸ .refl s.view, rfl⟩
  | resize window => exact ⟨view_resize window s ▸ View.sameInput_resize window s.view, rfl⟩
  | command c => exact ⟨view_sendCommand c s ▸ View.sameInput_command c s.view, rfl⟩

/-- **Every call keeps the account.** -/
theorem account_perform (call : Call) {s : Session} (h : Account role given s.view) :
    Account role (given ++ (s.perform call).1.bytes) (s.perform call).2.view := by
  by_cases hcall : ∃ room, call = .read room
  · obtain ⟨room, rfl⟩ := hcall
    exact h.reads (read_reads room h.drained)
  · obtain ⟨hsame, hnone⟩ := sameInput_perform (fun room he => hcall ⟨room, he⟩) s
    rw [hnone, List.append_nil]
    exact h.sameInput hsame

/-- So do runs. -/
theorem account_run (calls : List Call) {s : Session} (h : Account role given s.view) :
    Account role (given ++ bytesRead (s.run calls).1) (s.run calls).2.view := by
  induction calls generalizing s given with
  | nil => simpa [run, bytesRead] using h
  | cons call rest ih =>
    have hrest := ih (account_perform call h)
    rw [List.append_assoc] at hrest
    exact hrest

/-- After the whole notice every read gives nothing, and nothing is read any more. -/
theorem run_of_closed (calls : List Call) {s : Session} (h : Account role given s.view)
    (hc : s.intake.phase = .closed) :
    SameInput s.view (s.run calls).2.view ∧ ∀ r, .data r ∈ (s.run calls).1 → r = .ok [] := by
  induction calls generalizing s given with
  | nil => exact ⟨.refl _, fun r hr => absurd hr List.not_mem_nil⟩
  | cons call rest ih =>
    have hfirst : SameInput s.view (s.perform call).2.view ∧
        ∀ r, .data r = (s.perform call).1 → r = .ok [] := by
      by_cases hcall : ∃ room, call = .read room
      · obtain ⟨room, rfl⟩ := hcall
        obtain ⟨hnothing, hsame⟩ := h.reads_of_closed hc (read_reads room h.drained)
        exact ⟨hsame, fun r hr => (Outcome.data.inj hr).trans hnothing⟩
      · refine ⟨(sameInput_perform (fun room he => hcall ⟨room, he⟩) s).1, fun r hr => ?_⟩
        cases call with
        | read room => exact absurd ⟨room, rfl⟩ hcall
        | start | write | flush | resize | command => cases hr
    obtain ⟨hsame, hnothing⟩ := hfirst
    have hstill : (s.perform call).2.intake.phase = .closed :=
      (congrArg Intake.phase hsame.intake_eq).trans hc
    obtain ⟨hmore, hrest⟩ := ih (h.sameInput hsame) hstill
    refine ⟨hsame.trans hmore, fun r hr => ?_⟩
    rcases List.mem_cons.1 hr with hr | hr
    · exact hnothing r hr
    · exact hrest r hr

/-- **What a caller reads is what a codec makes of the stream.**  This is so of every
session from its beginning, of all calls in any order, and of all that a transport may
answer.  `whole` is what one codec makes of all bytes that the transport handed out.

* Before the end of the stream, what was read and what is carried over is its payload.
* After it, these are the payload, the return that was held back, and as much of the
  close notice as is out; the notice does not begin before the payload is out.
* A read of something gives nothing only after all of this and the whole notice.
* Once that is out, every read gives nothing, and the transport is not read any more. -/
theorem read_stream (role : Role) (terminal : Terminal) (size timeout : Nat) (t : Transport)
    (calls : List Call) :
    let first := fresh role terminal size timeout t
    let s := (first.run calls).2
    let given := bytesRead (first.run calls).1
    let whole := ({ role } : Codec).decode s.line.transport.delivered
    let ending := Return.release whole.2.pendingCr
    (¬s.line.transport.SawEnd → given ++ s.payload = whole.1.payload) ∧
      (s.line.transport.SawEnd → ∃ count ≤ closeNotice.length,
        given ++ s.payload = whole.1.payload ++ ending ++ closeNotice.take count ∧
          (count ≠ 0 → s.payload = [])) ∧
      (∀ room ≠ 0, (s.read room).1 = .ok [] →
        given = whole.1.payload ++ ending ++ closeNotice) ∧
      (given = whole.1.payload ++ ending ++ closeNotice → ∀ later,
        (∀ r, .data r ∈ (s.run later).1 → r = .ok []) ∧
          (s.run later).2.line.transport.readAnswers = s.line.transport.readAnswers) := by
  intro first s given whole ending
  have hfirst : Account role [] first.view := .fresh role terminal size timeout t
  have h : Account role given s.view := account_run calls hfirst
  have hwhole : whole = heard role s.view.answers :=
    congrArg (fun bytes => ({ role } : Codec).decode bytes) (Transport.delivered_eq _)
  have hending : ending = Return.release (heard role s.view.answers).2.pendingCr := by
    rw [← hwhole]
  rw [hending, hwhole]
  refine ⟨fun hopen => ?_, fun hsaw => ?_, fun room hroom hnothing => ?_, fun hgiven later => ?_⟩
  · have hp : s.view.intake.phase = .flowing :=
      Classical.byContradiction fun hp => hopen (h.sawEnd_iff.2 hp)
    exact (h.flowing hp).1
  · have hp : s.view.intake.phase ≠ .flowing := h.sawEnd_iff.1 hsaw
    obtain ⟨count, hle, htold⟩ := s.view.intake.phase.exists_told_eq_take
    refine ⟨count, hle, htold ▸ h.ended hp, fun hcount => h.emptied ?_⟩
    rw [htold, ← List.length_pos_iff, List.length_take]
    have := closeNotice_length
    omega
  · have hread := read_reads room h.drained
    rw [hnothing] at hread
    have hclosed := h.closed_of_reads_nothing hroom hread
    have hempty : s.view.payload = [] := h.emptied (by rw [hclosed]; decide)
    have hpaid := h.ended (by simp [hclosed])
    rwa [hempty, List.append_nil, hclosed] at hpaid
  · obtain ⟨hsame, hnothing⟩ := run_of_closed later h (h.closed_of_given hgiven)
    exact ⟨hnothing, hsame.answers_eq⟩

/-- A return that the end of the stream finds held back, and a read that failed. -/
example :
    let t : Transport := { incoming := [.ok [104, 13], .error .interrupted, .ok []] }
    let first := fresh .client {} 64 5000 t
    bytesRead (first.run [.read 1, .read 8, .read 8, .read 18, .read 8]).1 =
      [104, 13] ++ closeNotice := by
  decide +kernel

end Session
end Telnet
end RemoteTerminal
