/-
# What is read from an SSH channel

Whatever an adapter hands out comes from two sources, one after the other: the data in the
library's answers up to the first that ends the channel, and the close notice.  `Account` is
the state of the two in between any calls.

| phase | read of the library | handed out |
| --- | --- | --- |
| `flowing` | yes | its data; the first piece of the notice if it is at its end |
| `notice sent` | no | the next piece of the notice |
| `closed` | no | nothing, for ever |

A read is the only call that adds to the account (`Account.read`); writing, resizing and
closing ask the library for something else.  `channel_stream` reads off what the account comes
to after a run.
-/

import RemoteTerminal.Proofs.Ssh.Custody
import RemoteTerminal.Proofs.Stream.InputQueue
import RemoteTerminal.Ssh.Run

namespace RemoteTerminal

namespace Ssh

/-! ### Answers to reads -/

/-- Whether an answer to a read ends the channel. -/
def isEnd : Except ChannelFault Bytes → Bool
  | .ok [] | .error .eof => true
  | _ => false

/-- The data in some answers to reads, up to the first that ends the channel. -/
def dataOf : List (Except ChannelFault Bytes) → Bytes
  | [] => []
  | answer :: rest => if isEnd answer then [] else bytesOf answer ++ dataOf rest

theorem isEnd_ok {data : Bytes} (h : data ≠ []) : isEnd (.ok data) = false := by
  cases data with
  | nil => exact absurd rfl h
  | cons byte rest => rfl

theorem bytesOf_of_isEnd {answer : Except ChannelFault Bytes} (h : isEnd answer = true) :
    bytesOf answer = [] := by
  match answer with
  | .ok [] => rfl
  | .ok (byte :: rest) => cases h
  | .error f => rfl

/-- Answers that do not end the channel have all their data counted. -/
theorem dataOf_concat {answers : List (Except ChannelFault Bytes)}
    (h : answers.any isEnd = false) (answer : Except ChannelFault Bytes) :
    dataOf (answers ++ [answer]) = dataOf answers ++ bytesOf answer := by
  induction answers with
  | nil =>
    show (if isEnd answer then [] else bytesOf answer ++ []) = bytesOf answer
    split
    · rename_i hend
      exact (bytesOf_of_isEnd hend).symm
    · exact List.append_nil _
  | cons first rest ih =>
    rw [List.any_cons, Bool.or_eq_false_iff] at h
    simp [dataOf, h.1, ih h.2]

/-- **One read takes its data off the front of what the channel has to give.** -/
theorem Channel.dataOf_read {room : Nat} (hroom : room ≠ 0) (c : Channel) :
    dataOf c.reads =
      bytesOf (c.read room).1 ++
        if isEnd (c.read room).1 then [] else dataOf (c.read room).2.reads := by
  unfold Channel.read
  split
  · rename_i hnone
    simp [hnone, dataOf, isEnd, bytesOf]
  · rename_i f rest hfault
    rw [hfault]
    rfl
  · rename_i data rest hdata
    rw [hdata]
    by_cases hnil : data = []
    · subst hnil
      simp [dataOf, isEnd, bytesOf]
    have htake : data.take room ≠ [] := by
      rw [Ne, List.take_eq_nil_iff]
      exact not_or.2 ⟨hroom, hnil⟩
    simp only [dataOf, isEnd_ok hnil, isEnd_ok htake, bytesOf, Bool.false_eq_true, if_false]
    split
    · -- The rest of the data stands in front of what is still to come.
      rename_i hlong
      have hdrop : data.drop room ≠ [] := by
        rw [Ne, List.drop_eq_nil_iff]
        omega
      simp only [dataOf, isEnd_ok hdrop, bytesOf, Bool.false_eq_true, if_false]
      rw [← List.append_assoc, List.take_append_drop]
    · rename_i hshort
      rw [List.take_of_length_le (by omega)]

@[simp] theorem Channel.reads_write (offered : Bytes) (c : Channel) :
    (c.write offered).2.reads = c.reads := by
  unfold Channel.write
  split <;> rfl

@[simp] theorem Channel.reads_resize (c : Channel) : c.resize.2.reads = c.reads := by
  unfold Channel.resize
  split <;> rfl

/-- The answer to a read, if the library was asked for one. -/
def Event.readAnswer? : Event → Option (Except ChannelFault Bytes)
  | .read _ answer => some answer
  | _ => none

/-- The library's answers to reads. -/
def Record.readAnswers (r : Record) : List (Except ChannelFault Bytes) :=
  r.trail.filterMap Event.readAnswer?

/-- One more event may be one more answer. -/
theorem Record.readAnswers_of_trail {r r' : Record} {e : Event} (h : r'.trail = r.trail ++ [e]) :
    r'.readAnswers = r.readAnswers ++ e.readAnswer?.toList := by
  rw [readAnswers, h, List.filterMap_append, readAnswers]
  cases e <;> rfl

namespace Adapter

/-! ### One call -/

/-- What a read comes to for the account. -/
inductive ReadsBy (room : Nat) (a : Adapter) (r : Record) :
    Except ConnectionError Bytes → Adapter → Record → Prop where
  /-- A piece of the notice is handed out. -/
  | notice {sent : Nat} (hp : a.phase = .notice sent) :
    ReadsBy room a r (.ok (Farewell.piece sent room))
      { a with phase := Farewell.after sent room } r
  /-- There is nothing any more. -/
  | closed (hp : a.phase = .closed) : ReadsBy room a r (.ok []) a r
  /-- The channel turns out to be at its end. -/
  | ended {r' : Record} (hp : a.phase = .flowing) (hend : isEnd (a.channel.read room).1 = true)
    (htrail : r'.trail = r.trail ++ [.read room (a.channel.read room).1]) :
    ReadsBy room a r (.ok (Farewell.piece 0 room))
      { a with channel := (a.channel.read room).2, phase := Farewell.after 0 room } r'
  /-- The channel has answered with data, or failed. -/
  | answered {result : Except ConnectionError Bytes} {r' : Record} (hp : a.phase = .flowing)
    (hmore : isEnd (a.channel.read room).1 = false)
    (hresult : bytesOf result = bytesOf (a.channel.read room).1) (hsome : result ≠ .ok [])
    (htrail : r'.trail = r.trail ++ [.read room (a.channel.read room).1]) :
    ReadsBy room a r result { a with channel := (a.channel.read room).2 } r'

theorem exists_readsBy {room : Nat} (hroom : room ≠ 0) {a : Adapter} (hp : a.phase ≠ .ended)
    (r : Record) :
    ∃ result a' r', a.read room r = (result, a', r') ∧ ReadsBy room a r result a' r' := by
  refine ⟨(a.read room r).1, (a.read room r).2.1, (a.read room r).2.2, rfl, ?_⟩
  unfold read
  rw [if_neg hroom]
  split
  · rename_i sent hphase
    exact .notice hphase
  · rename_i hphase
    exact .closed hphase
  · rename_i hphase
    dsimp only
    split
    · rename_i hanswer
      exact .ended hphase (by rw [hanswer]; rfl) rfl
    · rename_i hanswer
      exact .ended hphase (by rw [hanswer]; rfl) rfl
    · rename_i data hsome hanswer
      refine .answered hphase ?_ ?_ (by simpa using hsome) rfl
      · rw [hanswer, isEnd_ok hsome]
      · rw [hanswer]
        rfl
    · rename_i f heof hanswer
      refine .answered hphase ?_ ?_ (by simp) (trail_failure ..)
      · rw [hanswer]
        cases f with
        | eof => exact absurd rfl heof
        | wouldBlock | hostKeyChanged | fatal => rfl
      · rw [hanswer]
        rfl
  · rename_i hphase
    exact absurd hphase hp

/-- The other calls leave the phase and what there is to read alone, and hand nothing out. -/
theorem perform_of_not_read {call : Call} (hcall : ∀ room, call ≠ .read room) (a : Adapter)
    (r : Record) :
    (a.perform call r).1.handed = [] ∧ (a.perform call r).2.1.phase = a.phase ∧
      (a.perform call r).2.1.channel.reads = a.channel.reads ∧
      (a.perform call r).2.2.readAnswers = r.readAnswers := by
  have hother {e : Event} {r' : Record} (htrail : r'.trail = r.trail ++ [e])
      (he : e.readAnswer? = none) : r'.readAnswers = r.readAnswers := by
    rw [Record.readAnswers_of_trail htrail, he, Option.toList_none, List.append_nil]
  cases call with
  | read room => exact absurd rfl (hcall room)
  | write data =>
    unfold perform write
    dsimp only
    split
    · exact ⟨rfl, rfl, rfl, rfl⟩
    · split
      · exact ⟨rfl, rfl, Channel.reads_write .., hother rfl rfl⟩
      · exact ⟨rfl, rfl, Channel.reads_write .., hother (trail_failure ..) rfl⟩
  | resize lines columns =>
    unfold perform resize
    dsimp only
    split
    · exact ⟨rfl, rfl, Channel.reads_resize .., hother rfl rfl⟩
    · exact ⟨rfl, rfl, Channel.reads_resize .., hother (trail_failure ..) rfl⟩
  | close =>
    unfold perform close
    dsimp only
    split
    · exact ⟨rfl, rfl, rfl, rfl⟩
    · exact ⟨rfl, rfl, rfl, hother rfl rfl⟩

/-! ### The account -/

/-- What was handed out after some answers of the library, of all that the channel had to
give at first. -/
structure Account (whole given : Bytes) (answers : List (Except ChannelFault Bytes)) (a : Adapter) :
    Prop where
  given_eq : given = dataOf answers ++ a.phase.told
  whole_eq : whole = dataOf answers ++ if answers.any isEnd then [] else dataOf a.channel.reads
  flowing_iff : a.phase = .flowing ↔ answers.any isEnd = false
  ne_ended : a.phase ≠ .ended
  /-- Only the last answer may end the channel. -/
  last : answers.dropLast.any isEnd = false
  unfinished : ∀ sent, a.phase = .notice sent → sent < closeNotice.length

namespace Account

variable {whole given : Bytes} {answers : List (Except ChannelFault Bytes)} {a : Adapter}

theorem fresh (channel : Channel) (host : String) :
    Account (dataOf channel.reads) [] [] { channel, host } where
  given_eq := rfl
  whole_eq := rfl
  flowing_iff := ⟨fun _ => rfl, fun _ => rfl⟩
  ne_ended h := nomatch h
  last := rfl
  unfinished _ h := nomatch h

/-- Once the channel has ended, all that can change is how much of the notice is out. -/
theorem tell (h : Account whole given answers a) (hend : answers.any isEnd = true) {phase : Phase}
    {piece : Bytes} (htold : phase.told = a.phase.told ++ piece) (hflowing : phase ≠ .flowing)
    (hended : phase ≠ .ended) (hsent : ∀ sent, phase = .notice sent → sent < closeNotice.length) :
    Account whole (given ++ piece) answers { a with phase } where
  given_eq := by rw [h.given_eq, List.append_assoc, htold]
  whole_eq := h.whole_eq
  flowing_iff := iff_of_false hflowing (by simp [hend])
  ne_ended := hended
  last := h.last
  unfinished := hsent

/-- As long as the channel flows, one more answer brings its data. -/
theorem hear (h : Account whole given answers a) (hp : a.phase = .flowing) {room : Nat}
    (hroom : room ≠ 0) :
    let answer := (a.channel.read room).1
    let heard := answers ++ [answer]
    dataOf heard = given ++ bytesOf answer ∧ heard.any isEnd = isEnd answer ∧
      heard.dropLast.any isEnd = false ∧
      whole = dataOf heard ++
        if isEnd answer then [] else dataOf (a.channel.read room).2.reads := by
  intro answer heard
  have hnone := h.flowing_iff.1 hp
  have hgiven : given = dataOf answers := by
    rw [h.given_eq, hp]
    exact List.append_nil _
  have hdata : dataOf heard = dataOf answers ++ bytesOf answer := dataOf_concat hnone answer
  refine ⟨hdata.trans (by rw [hgiven]), ?_, ?_, ?_⟩
  · simp [heard, hnone]
  · rw [List.dropLast_concat, hnone]
  · have hwhole := h.whole_eq
    rw [hnone, Channel.dataOf_read hroom] at hwhole
    rw [hdata, List.append_assoc]
    exact hwhole

/-- **A read keeps the account.** -/
theorem read (h : Account whole given answers a) {room : Nat} (hroom : room ≠ 0) (r : Record) :
    ∃ more, (a.read room r).2.2.readAnswers = r.readAnswers ++ more ∧
      Account whole (given ++ bytesOf (a.read room r).1) (answers ++ more) (a.read room r).2.1 := by
  obtain ⟨result, a', r', hread, hreads⟩ := exists_readsBy hroom h.ne_ended r
  rw [hread]
  dsimp only
  cases hreads with
  | @notice sent hp =>
    have hend : answers.any isEnd = true := by
      rw [← Bool.not_eq_false, ← h.flowing_iff, hp]
      exact nofun
    refine ⟨[], (List.append_nil _).symm, ?_⟩
    rw [List.append_nil]
    refine h.tell hend ?_ (Farewell.after_ne_flowing sent room) (Farewell.after_ne_ended sent room)
      fun _ => Farewell.lt_of_after_eq_notice
    rw [Phase.told_after, hp]
    rfl
  | closed hp =>
    refine ⟨[], (List.append_nil _).symm, ?_⟩
    rw [List.append_nil]
    exact (List.append_nil given).symm ▸ h
  | ended hp hend htrail =>
    obtain ⟨hdata, hany, hlast, hwhole⟩ := h.hear hp hroom
    rw [hend] at hany hwhole
    rw [bytesOf_of_isEnd hend, List.append_nil] at hdata
    refine ⟨_, Record.readAnswers_of_trail htrail, ?_, ?_, ?_, Farewell.after_ne_ended 0 room,
      hlast, fun _ => Farewell.lt_of_after_eq_notice⟩
    · exact (congrArg (· ++ _) hdata.symm).trans (by rw [Phase.told_after]; rfl)
    · exact hwhole.trans (by rw [Event.readAnswer?, Option.toList_some, hany])
    · refine iff_of_false (Farewell.after_ne_flowing 0 room) ?_
      rw [Event.readAnswer?, Option.toList_some, hany]
      simp
  | answered hp hmore hresult hsome htrail =>
    obtain ⟨hdata, hany, hlast, hwhole⟩ := h.hear hp hroom
    rw [hmore] at hany hwhole
    refine ⟨_, Record.readAnswers_of_trail htrail, ?_, ?_, iff_of_true hp hany, h.ne_ended, hlast,
      h.unfinished⟩
    · rw [hresult, ← hdata, hp]
      exact (List.append_nil _).symm
    · exact hwhole.trans (by rw [Event.readAnswer?, Option.toList_some, hany])

/-- A call that is no read adds nothing. -/
theorem unread (h : Account whole given answers a) {call : Call}
    (hcall : ∀ room, call ≠ .read room) (r : Record) :
    ∃ more, (a.perform call r).2.2.readAnswers = r.readAnswers ++ more ∧
      Account whole (given ++ (a.perform call r).1.handed) (answers ++ more)
        (a.perform call r).2.1 := by
  obtain ⟨hhanded, hphase, hreads, hanswers⟩ := perform_of_not_read hcall a r
  refine ⟨[], by rw [hanswers, List.append_nil], ?_⟩
  rw [hhanded, List.append_nil, List.append_nil]
  exact ⟨hphase ▸ h.given_eq, hreads ▸ h.whole_eq, hphase ▸ h.flowing_iff, hphase ▸ h.ne_ended,
    h.last, hphase ▸ h.unfinished⟩

/-- **Every call keeps the account.** -/
theorem perform (h : Account whole given answers a) (call : Call) (r : Record) :
    ∃ more, (a.perform call r).2.2.readAnswers = r.readAnswers ++ more ∧
      Account whole (given ++ (a.perform call r).1.handed) (answers ++ more)
        (a.perform call r).2.1 := by
  cases call with
  | read room =>
    by_cases hroom : room = 0
    · refine ⟨[], ?_, ?_⟩
      · simp [Adapter.perform, Adapter.read, hroom]
      · simpa [Adapter.perform, Adapter.read, hroom, Outcome.handed, bytesOf] using h
    · exact h.read hroom r
  | write | resize | close => exact h.unread (by simp) r

/-- **So does every run.** -/
theorem run (h : Account whole given answers a) (calls : List Call) (r : Record) :
    ∃ more, (a.run calls r).2.2.readAnswers = r.readAnswers ++ more ∧
      Account whole (given ++ (a.run calls r).1.flatMap Outcome.handed) (answers ++ more)
        (a.run calls r).2.1 := by
  induction calls generalizing given answers a r with
  | nil => exact ⟨[], by simp [Adapter.run], by simpa [Adapter.run] using h⟩
  | cons call rest ih =>
    obtain ⟨first, hfirst, hcall⟩ := h.perform call r
    obtain ⟨more, hmore, hrest⟩ := ih hcall (a.perform call r).2.2
    refine ⟨first ++ more, ?_, ?_⟩
    · exact hmore.trans (by rw [hfirst, List.append_assoc])
    · rw [List.append_assoc, List.append_assoc] at hrest
      exact hrest

/-! ### The next read -/

/-- Once the channel has ended, a read hands out the next piece of the notice and asks the
library for nothing. -/
theorem read_of_end (h : Account whole given answers a) (hend : answers.any isEnd = true)
    {room : Nat} (hroom : room ≠ 0) (r : Record) :
    (a.read room r).1 = .ok ((closeNotice.drop a.phase.told.length).take room) ∧
      (a.read room r).2.2 = r := by
  obtain ⟨result, a', r', hread, hreads⟩ := exists_readsBy hroom h.ne_ended r
  have hflowing : a.phase ≠ .flowing := fun hp => by
    rw [h.flowing_iff.1 hp] at hend
    cases hend
  rw [hread]
  dsimp only
  cases hreads with
  | @notice sent hp =>
    have hlength : a.phase.told.length = sent := by
      rw [hp, Phase.told, List.length_take]
      exact Nat.min_eq_left (Nat.le_of_lt (h.unfinished sent hp))
    exact ⟨by rw [hlength, Farewell.piece], rfl⟩
  | closed hp => exact ⟨by rw [hp, Phase.told, List.drop_length, List.take_nil], rfl⟩
  | ended hp => exact absurd hp hflowing
  | answered hp => exact absurd hp hflowing

/-- A read has nothing to hand out only once the whole notice is out. -/
theorem read_eq_nothing_iff (h : Account whole given answers a) {room : Nat} (hroom : room ≠ 0)
    (r : Record) : (a.read room r).1 = .ok [] ↔ a.phase = .closed := by
  obtain ⟨result, a', r', hread, hreads⟩ := exists_readsBy hroom h.ne_ended r
  have hpiece {sent : Nat} (hsent : sent < closeNotice.length) :
      (Except.ok (Farewell.piece sent room) : Except ConnectionError Bytes) ≠ .ok [] :=
    fun hnil => Farewell.piece_ne_nil hsent hroom (Except.ok.inj hnil)
  rw [hread]
  dsimp only
  cases hreads with
  | @notice sent hp => exact iff_of_false (hpiece (h.unfinished sent hp)) (by simp [hp])
  | closed hp => exact iff_of_true rfl hp
  | ended hp => exact iff_of_false (hpiece (by decide)) (by simp [hp])
  | answered hp hmore hresult hsome => exact iff_of_false hsome (by simp [hp])

/-- The whole notice is out only once the phase says so. -/
theorem closed_iff (h : Account whole given answers a) :
    given = dataOf answers ++ closeNotice ↔ a.phase = .closed := by
  rw [h.given_eq, List.append_cancel_left_eq]
  exact Phase.told_eq_closeNotice_iff h.unfinished

end Account

/-! ### After the notice -/

theorem read_of_closed {a : Adapter} (h : a.phase = .closed) (room : Nat) (r : Record) :
    a.read room r = (.ok [], a, r) := by
  unfold read
  rw [h]
  exact ite_self _

theorem phase_perform_of_closed {a : Adapter} (h : a.phase = .closed) (call : Call) (r : Record) :
    (a.perform call r).2.1.phase = .closed := by
  cases call with
  | read room =>
    show (a.read room r).2.1.phase = .closed
    rw [read_of_closed h]
    exact h
  | write | resize | close => exact (perform_of_not_read (by simp) a r).2.1.trans h

theorem phase_run_of_closed {a : Adapter} (h : a.phase = .closed) (calls : List Call) (r : Record) :
    (a.run calls r).2.1.phase = .closed := by
  induction calls generalizing a r with
  | nil => exact h
  | cons call rest ih => exact ih (phase_perform_of_closed h call r) _

/-- **The stream of an SSH channel, and its end.**  This is so for every channel, that is, for
whatever the library may answer, and for all calls in any order.

* What reads have handed out is the library's data up to its end, followed by the beginning of
  the notice; there is none of the notice before the end, and after it the next read hands out
  the next piece.
* All the data that the channel had to give up to its end is in the answers so far or still to
  come: no call has lost any of it or doubled it.
* After the end the library is not read again.
* A read has nothing to hand out exactly if the whole notice is out, and then for ever. -/
theorem channel_stream (channel : Channel) (host : String) (calls : List Call) (r : Record) :
    let first : Adapter := { channel, host }
    let a := (first.run calls r).2.1
    let r' := (first.run calls r).2.2
    let given := (first.run calls r).1.flatMap Outcome.handed
    let answers := r'.readAnswers.drop r.readAnswers.length
    let finished := answers.any isEnd
    (∃ told ≤ closeNotice.length, given = dataOf answers ++ closeNotice.take told ∧
      (finished = false → told = 0) ∧
      (finished = true → ∀ room ≠ 0,
        (a.read room r').1 = .ok ((closeNotice.drop told).take room) ∧
          (a.read room r').2.2 = r')) ∧
    (dataOf channel.reads = dataOf answers ++ if finished then [] else dataOf a.channel.reads) ∧
    (∀ front answer back, answers = front ++ answer :: back → isEnd answer = true → back = []) ∧
    (∀ room ≠ 0, (a.read room r').1 = .ok [] ↔ given = dataOf answers ++ closeNotice) ∧
    (given = dataOf answers ++ closeNotice → ∀ more room,
      ((a.run more r').2.1.read room (a.run more r').2.2).1 = .ok []) := by
  intro first a r' given answers finished
  obtain ⟨more, hmore, haccount⟩ := (Account.fresh channel host).run calls r
  rw [List.nil_append, List.nil_append] at haccount
  obtain rfl : answers = more := by
    show r'.readAnswers.drop _ = more
    rw [hmore, List.drop_left]
  have haccount : Account (dataOf channel.reads) given answers a := haccount
  refine ⟨⟨a.phase.told.length, ?_, ?_, fun hfinished => ?_, fun hfinished room hroom =>
    haccount.read_of_end hfinished hroom r'⟩, haccount.whole_eq, ?_, fun room hroom =>
    (haccount.read_eq_nothing_iff hroom r').trans haccount.closed_iff.symm, ?_⟩
  · obtain ⟨count, hcount, htold⟩ := a.phase.exists_told_eq_take
    rw [htold, List.length_take]
    exact Nat.min_le_right ..
  · obtain ⟨count, hcount, htold⟩ := a.phase.exists_told_eq_take
    rw [haccount.given_eq, htold, List.length_take, Nat.min_eq_left hcount]
  · rw [haccount.flowing_iff.2 hfinished]
    rfl
  · intro front answer back hanswers hend
    have hlast := haccount.last
    cases back with
    | nil => rfl
    | cons next rest =>
      rw [hanswers, List.dropLast_append_cons, List.dropLast_cons_cons] at hlast
      simp [hend] at hlast
  · intro hgiven more room
    have hclosed := haccount.closed_iff.1 hgiven
    rw [read_of_closed (phase_run_of_closed hclosed more r')]

/-- A channel that is read in pieces, would block once, and ends. -/
example :
    let a : Adapter :=
      { channel :=
          { hostKey := ⟨"ssh-ed25519", "SHA256:test"⟩
            reads := [.ok [104, 105], .error .wouldBlock, .error .eof, .ok [33]] }
        host := "host" }
    let calls : List Call :=
      [.read 1, .write [108], .read 8, .read 8, .read 16, .resize 40 100, .read 16, .read 16]
    (a.run calls {}).1.flatMap Outcome.handed = [104, 105] ++ closeNotice := by
  decide

end Adapter
end Ssh
end RemoteTerminal
