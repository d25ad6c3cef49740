/-
# What a revocation comes to

A channel is revoked in two ways: it is closed from this side, or the library reports that
the server presents another key.  Both are told to whom they concern.  A changed key comes out
as an untrusted host, with the key's fingerprint, from the call that met it, and the library is
told of a close once.

Neither has any effect on what comes after.  `overlooked` makes of a channel one that is never
revoked: in place of a changed key it would block.  An adapter over it that is never closed is
asked the same and answers the same, call for call (`Alike.run`, `revocation_unheeded`).  What
ends the reading is the end of the channel, and nothing ends the writing.
-/

import RemoteTerminal.Proofs.Ssh.Custody
import RemoteTerminal.Proofs.Stream.Faults
import RemoteTerminal.Ssh.Run

namespace RemoteTerminal

/-! ### A channel that is never revoked -/

/-- An untrusted host passed over, as if there had been nothing to read or no room to write. -/
def ConnectionError.overlooked : ConnectionError → ConnectionError
  | untrustedHost _ _ => .transport .wouldBlock
  | e => e

namespace Ssh

/-- A changed key passed over. -/
def ChannelFault.overlooked : ChannelFault → ChannelFault
  | hostKeyChanged _ => .wouldBlock
  | f => f

/-- The channel that would block wherever this one reports a changed key. -/
def Channel.overlooked (c : Channel) : Channel :=
  { c with
    reads := c.reads.map (Except.mapError ChannelFault.overlooked)
    writes := c.writes.map (Except.mapError ChannelFault.overlooked)
    resizes := c.resizes.map (Except.mapError ChannelFault.overlooked) }

/-- What was asked, with a changed key in the answer passed over. -/
def Event.overlooked : Event → Event
  | read room answer => .read room (answer.mapError ChannelFault.overlooked)
  | write offered answer => .write offered (answer.mapError ChannelFault.overlooked)
  | resize lines columns answer =>
    .resize lines columns (answer.mapError ChannelFault.overlooked)
  | trust host key answer => .trust host key answer
  | close => .close

/-- The key that a call of the library found changed. -/
def Event.changedKey? : Event → Option HostKey
  | read _ (.error (.hostKeyChanged key)) | write _ (.error (.hostKeyChanged key))
  | resize _ _ (.error (.hostKeyChanged key)) => some key
  | _ => none

/-- Whether a call closes the channel. -/
def Call.isClose : Call → Bool
  | close => true
  | _ => false

end Ssh

/-- The host and the fingerprint that a call reported as untrusted. -/
def Outcome.untrusted? (o : Outcome ConnectionError) : Option (String × String) :=
  match o.error? with
  | some (.untrustedHost host fingerprint) => some (host, fingerprint)
  | _ => none

/-- Whether a call has something to tell. -/
def Outcome.tells {ε : Type} : Outcome ε → Bool
  | nothing => false
  | _ => true

namespace Ssh
namespace Channel

theorem read_overlooked (room : Nat) (c : Channel) :
    c.overlooked.read room =
      ((c.read room).1.mapError ChannelFault.overlooked, (c.read room).2.overlooked) := by
  obtain ⟨hostKey, reads, writes, resizes⟩ := c
  match reads with
  | [] | .error f :: rest => rfl
  | .ok data :: rest =>
    -- What is left of the data goes back to the front, on either side of the map.
    have hreads : (if room < data.length then .ok (data.drop room) :: rest else rest).map
          (Except.mapError ChannelFault.overlooked) =
        if room < data.length then .ok (data.drop room) ::
          rest.map (Except.mapError ChannelFault.overlooked)
        else rest.map (Except.mapError ChannelFault.overlooked) := by
      split <;> rfl
    exact Prod.ext rfl (congrArg (fun reads => (⟨hostKey, reads, _, _⟩ : Channel)) hreads.symm)

theorem write_overlooked (offered : Bytes) (c : Channel) :
    c.overlooked.write offered =
      ((c.write offered).1.mapError ChannelFault.overlooked, (c.write offered).2.overlooked) := by
  obtain ⟨hostKey, reads, writes, resizes⟩ := c
  match writes with
  | [] | .error f :: rest | .ok none :: rest | .ok (some limit) :: rest => rfl

theorem resize_overlooked (c : Channel) :
    c.overlooked.resize = (c.resize.1.mapError ChannelFault.overlooked, c.resize.2.overlooked) := by
  obtain ⟨hostKey, reads, writes, resizes⟩ := c
  match resizes with
  | [] | answer :: rest => rfl

end Channel

namespace Adapter

/-- An adapter beside one that knows of no revocation. -/
structure Alike (a naive : Adapter) : Prop where
  channel_eq : naive.channel = a.channel.overlooked
  phase_eq : naive.phase = a.phase

/-- What a call that closes nothing has come to, beside what it comes to where there is no
revocation.  The library was asked `events`. -/
structure Beside (events : List Event) (a : Adapter) (r : Record)
    (given : Outcome ConnectionError × Adapter × Record) (r₀ : Record)
    (given₀ : Outcome ConnectionError × Adapter × Record) : Prop where
  alike : Alike given.2.1 given₀.2.1
  outcome_eq : given₀.1 = given.1.mapError ConnectionError.overlooked
  trail_eq : given.2.2.trail = r.trail ++ events
  trail_eq₀ : given₀.2.2.trail = r₀.trail ++ events.map Event.overlooked
  host_eq : given.2.1.host = a.host
  closed_eq : given.2.1.closed = a.closed
  /-- A changed key is reported. -/
  reported : [given.1].filterMap Outcome.untrusted? =
    (events.filterMap Event.changedKey?).map fun key => (a.host, key.fingerprint)
  tells : given.1.tells = true
  open_eq : events.filter Event.isClose = []

namespace Beside

variable {a naive : Adapter} {r r₀ : Record}

/-- The library was not asked. -/
theorem idle (h : Alike a naive) {outcome : Outcome ConnectionError} {phase : Phase}
    (hsame : outcome.mapError ConnectionError.overlooked = outcome) (hnone : outcome.error? = none)
    (htells : outcome.tells = true) :
    Beside [] a r (outcome, { a with phase }, r) r₀ (outcome, { naive with phase }, r₀) where
  alike := ⟨h.channel_eq, rfl⟩
  outcome_eq := hsame.symm
  trail_eq := (List.append_nil _).symm
  trail_eq₀ := (List.append_nil _).symm
  host_eq := rfl
  closed_eq := rfl
  reported := by simp [Outcome.untrusted?, hnone]
  tells := htells
  open_eq := rfl

end Beside

namespace Alike

variable {a naive : Adapter}

theorem read (h : Alike a naive) (room : Nat) (r r₀ : Record) :
    ∃ events, Beside events a r (a.perform (.read room) r) r₀ (naive.perform (.read room) r₀) := by
  have hsame {data : Bytes} : (Outcome.data (.ok data)).mapError ConnectionError.overlooked =
      .data (.ok data) := rfl
  obtain ⟨channel, host, phase, closed⟩ := a
  obtain ⟨channel₀, host₀, phase₀, closed₀⟩ := naive
  obtain ⟨rfl, rfl⟩ : channel₀ = channel.overlooked ∧ phase₀ = phase := ⟨h.1, h.2⟩
  unfold perform Adapter.read
  dsimp only
  by_cases hroom : room = 0
  · rw [if_pos hroom, if_pos hroom]
    exact ⟨[], .idle h hsame rfl rfl⟩
  rw [if_neg hroom, if_neg hroom]
  cases phase₀ with
  | notice sent => exact ⟨[], .idle h hsame rfl rfl⟩
  | closed => exact ⟨[], .idle h hsame rfl rfl⟩
  | flowing | ended =>
    rw [Channel.read_overlooked]
    generalize Channel.read room channel = answered
    obtain ⟨answer, channel'⟩ := answered
    refine ⟨[.read room answer], ?_⟩
    match answer with
    | .ok [] | .ok (byte :: rest) | .error .wouldBlock | .error .eof
    | .error (.hostKeyChanged key) | .error (.fatal message) =>
      exact ⟨⟨rfl, rfl⟩, rfl, rfl, rfl, rfl, rfl, rfl, rfl, rfl⟩

theorem write (h : Alike a naive) (data : Bytes) (r r₀ : Record) :
    ∃ events, Beside events a r (a.perform (.write data) r) r₀ (naive.perform (.write data) r₀) := by
  obtain ⟨channel, host, phase, closed⟩ := a
  obtain ⟨channel₀, host₀, phase₀, closed₀⟩ := naive
  obtain ⟨rfl, rfl⟩ : channel₀ = channel.overlooked ∧ phase₀ = phase := ⟨h.1, h.2⟩
  unfold perform Adapter.write
  dsimp only
  by_cases hdata : data = []
  · rw [if_pos hdata, if_pos hdata]
    exact ⟨[], .idle h rfl rfl rfl⟩
  rw [if_neg hdata, if_neg hdata, Channel.write_overlooked]
  generalize Channel.write data channel = answered
  obtain ⟨answer, channel'⟩ := answered
  refine ⟨[.write data answer], ?_⟩
  match answer with
  | .ok count | .error .wouldBlock | .error .eof | .error (.hostKeyChanged key)
  | .error (.fatal message) =>
    exact ⟨⟨rfl, rfl⟩, rfl, rfl, rfl, rfl, rfl, rfl, rfl, rfl⟩

theorem resize (h : Alike a naive) (lines columns : UInt16) (r r₀ : Record) :
    ∃ events, Beside events a r (a.perform (.resize lines columns) r) r₀
      (naive.perform (.resize lines columns) r₀) := by
  obtain ⟨channel, host, phase, closed⟩ := a
  obtain ⟨channel₀, host₀, phase₀, closed₀⟩ := naive
  obtain ⟨rfl, rfl⟩ : channel₀ = channel.overlooked ∧ phase₀ = phase := ⟨h.1, h.2⟩
  unfold perform Adapter.resize
  dsimp only
  rw [Channel.resize_overlooked]
  generalize channel.resize = answered
  obtain ⟨answer, channel'⟩ := answered
  refine ⟨[.resize lines columns answer], ?_⟩
  match answer with
  | .ok () | .error .wouldBlock | .error .eof | .error (.hostKeyChanged key)
  | .error (.fatal message) =>
    exact ⟨⟨rfl, rfl⟩, rfl, rfl, rfl, rfl, rfl, rfl, rfl, rfl⟩

/-- A call that is not a close. -/
theorem perform (h : Alike a naive) (call : Call) (hcall : call.isClose = false) (r r₀ : Record) :
    ∃ events, Beside events a r (a.perform call r) r₀ (naive.perform call r₀) := by
  cases call with
  | read room => exact h.read room r r₀
  | write data => exact h.write data r r₀
  | resize lines columns => exact h.resize lines columns r r₀
  | close => cases hcall

/-- A close goes no further than the library and the adapter's own flag. -/
theorem close (h : Alike a naive) (r : Record) :
    Alike (a.close r).1 naive ∧ (a.close r).1.host = a.host ∧ (a.close r).1.closed = true ∧
      (a.close r).2.trail = r.trail ++ if a.closed then [] else [.close] := by
  obtain ⟨channel, host, phase, closed⟩ := a
  cases closed with
  | false => exact ⟨⟨h.1, h.2⟩, rfl, rfl, rfl⟩
  | true => exact ⟨h, rfl, rfl, (List.append_nil _).symm⟩

end Alike

/-- What calls have come to, beside what those that close nothing come to where there is no
revocation.  The library was asked `events`. -/
structure RunBeside (events : List Event) (calls : List Call) (a : Adapter) (r : Record)
    (given : List (Outcome ConnectionError) × Adapter × Record) (r₀ : Record)
    (given₀ : List (Outcome ConnectionError) × Adapter × Record) : Prop where
  outcomes_eq : given₀.1 =
    (given.1.filter Outcome.tells).map (Outcome.mapError ConnectionError.overlooked)
  trail_eq : given.2.2.trail = r.trail ++ events
  trail_eq₀ : given₀.2.2.trail =
    r₀.trail ++ (events.filter fun e => !e.isClose).map Event.overlooked
  reported : given.1.filterMap Outcome.untrusted? =
    (events.filterMap Event.changedKey?).map fun key => (a.host, key.fingerprint)
  closes : events.filter Event.isClose =
    if a.closed || !calls.any Call.isClose then [] else [.close]

namespace RunBeside

variable {a naive : Adapter} {r r₀ : Record} {calls : List Call} {events more : List Event}

/-- No call. -/
theorem nil (a naive : Adapter) (r r₀ : Record) :
    RunBeside [] [] a r (a.run [] r) r₀ (naive.run [] r₀) where
  outcomes_eq := rfl
  trail_eq := (List.append_nil _).symm
  trail_eq₀ := (List.append_nil _).symm
  reported := rfl
  closes := by simp

/-- A call that closes nothing, before others. -/
theorem cons {call : Call} (hcall : call.isClose = false)
    (h : Beside events a r (a.perform call r) r₀ (naive.perform call r₀))
    (hrest : RunBeside more calls (a.perform call r).2.1 (a.perform call r).2.2
      ((a.perform call r).2.1.run calls (a.perform call r).2.2) (naive.perform call r₀).2.2
      ((naive.perform call r₀).2.1.run (calls.filter fun call => !call.isClose)
        (naive.perform call r₀).2.2)) :
    RunBeside (events ++ more) (call :: calls) a r (a.run (call :: calls) r) r₀
      (naive.run ((call :: calls).filter fun call => !call.isClose) r₀) where
  outcomes_eq := by
    rw [List.filter_cons_of_pos (by simp [hcall])]
    simp only [run]
    rw [List.filter_cons_of_pos h.tells, List.map_cons, h.outcome_eq, hrest.outcomes_eq]
  trail_eq := by
    simp only [run]
    rw [hrest.trail_eq, h.trail_eq, List.append_assoc]
  trail_eq₀ := by
    have hopen : events.filter (fun e => !e.isClose) = events :=
      List.filter_eq_self.mpr fun e he => by
        simpa using List.filter_eq_nil_iff.mp h.open_eq e he
    rw [List.filter_cons_of_pos (by simp [hcall])]
    simp only [run]
    rw [hrest.trail_eq₀, h.trail_eq₀, List.filter_append, hopen, List.map_append,
      List.append_assoc]
  reported := by
    simp only [run]
    rw [← List.singleton_append, List.filterMap_append, hrest.reported, h.reported, h.host_eq,
      List.filterMap_append, List.map_append]
  closes := by
    rw [List.filter_append, h.open_eq, List.nil_append, hrest.closes, h.closed_eq,
      List.any_cons, hcall, Bool.false_or]

/-- A close, before other calls. -/
theorem close (h : Alike a naive)
    (hrest : RunBeside more calls (a.close r).1 (a.close r).2
      ((a.close r).1.run calls (a.close r).2) r₀
      (naive.run (calls.filter fun call => !call.isClose) r₀)) :
    RunBeside ((if a.closed then [] else [.close]) ++ more) (.close :: calls) a r
      (a.run (.close :: calls) r) r₀
      (naive.run ((.close :: calls).filter fun call => !call.isClose) r₀) where
  outcomes_eq := hrest.outcomes_eq
  trail_eq := by
    show ((a.close r).1.run calls (a.close r).2).2.2.trail = _
    rw [hrest.trail_eq, (h.close r).2.2.2, List.append_assoc]
  trail_eq₀ := by
    rw [List.filter_append]
    refine hrest.trail_eq₀.trans ?_
    cases a.closed <;> rfl
  reported := by
    rw [List.filterMap_append]
    refine hrest.reported.trans ?_
    rw [(h.close r).2.1]
    cases a.closed <;> rfl
  closes := by
    have hnone := hrest.closes
    rw [(h.close r).2.2.1] at hnone
    rw [List.filter_append, hnone]
    cases a.closed <;> rfl

end RunBeside

theorem Alike.run {a naive : Adapter} (h : Alike a naive) (calls : List Call) (r r₀ : Record) :
    ∃ events, RunBeside events calls a r (a.run calls r) r₀
      (naive.run (calls.filter fun call => !call.isClose) r₀) := by
  induction calls generalizing a naive r r₀ with
  | nil => exact ⟨[], .nil a naive r r₀⟩
  | cons call calls ih =>
    cases hcall : call.isClose with
    | false =>
      obtain ⟨events, hstep⟩ := h.perform call hcall r r₀
      obtain ⟨more, hrest⟩ := ih hstep.alike (a.perform call r).2.2 (naive.perform call r₀).2.2
      exact ⟨_, .cons hcall hstep hrest⟩
    | true =>
      obtain rfl : call = .close := by
        cases call <;> first | rfl | cases hcall
      obtain ⟨more, hrest⟩ := ih (h.close r).1 (a.close r).2 r₀
      exact ⟨_, .close h hrest⟩

/-- A revocation has no effect on what an adapter does.  What the calls ask of the library and
what they come to is, but for the closes and with a changed key read as a channel that would
block, what the calls that close nothing ask and come to where the channel is never revoked.
Each changed key comes out as an untrusted host from the call that met it, and the library is
told of a close once. -/
theorem revocation_unheeded (calls : List Call) (a : Adapter) (r : Record) :
    let given := a.run calls r
    let asked := given.2.2.trail.drop r.trail.length
    let naive := { a with channel := a.channel.overlooked }.run
      (calls.filter fun call => !call.isClose) {}
    given.2.2.trail = r.trail ++ asked ∧
      naive.2.2.trail = (asked.filter fun e => !e.isClose).map Event.overlooked ∧
      naive.1 = (given.1.filter Outcome.tells).map
        (Outcome.mapError ConnectionError.overlooked) ∧
      given.1.filterMap Outcome.untrusted? =
        (asked.filterMap Event.changedKey?).map (fun key => (a.host, key.fingerprint)) ∧
      asked.filter Event.isClose =
        if a.closed || !calls.any Call.isClose then [] else [.close] := by
  intro given asked naive
  have halike : Alike a { a with channel := a.channel.overlooked } := ⟨rfl, rfl⟩
  obtain ⟨events, h⟩ := halike.run calls r {}
  have hasked : asked = events := by
    show given.2.2.trail.drop r.trail.length = events
    rw [h.trail_eq, List.drop_left]
  rw [hasked]
  exact ⟨h.trail_eq, h.trail_eq₀, h.outcomes_eq, h.reported, h.closes⟩

/-- After the server has shown another key, and again after a close, the reader is given what
the channel holds and the keystrokes go out. -/
theorem used_after_revocation :
    let channel : Channel :=
      { hostKey := ⟨"ssh-rsa", "SHA256:old"⟩,
        reads := [.error (.hostKeyChanged ⟨"ssh-rsa", "SHA256:new"⟩), .ok [104, 105],
          .ok [106]] }
    let given := run [.read 8, .write [108, 115], .read 8, .close, .read 8, .write [120]]
      { channel, host := "host" } {}
    given.1 =
      [.data (.error (.untrustedHost "host" "SHA256:new")), .count (.ok 2),
        .data (.ok [104, 105]), .nothing, .data (.ok [106]), .count (.ok 1)] ∧
    given.2.2.trail =
      [.read 8 (.error (.hostKeyChanged ⟨"ssh-rsa", "SHA256:new"⟩)),
        .write [108, 115] (.ok 2), .read 8 (.ok [104, 105]), .close, .read 8 (.ok [106]),
        .write [120] (.ok 1)] :=
  ⟨rfl, rfl⟩

end Adapter
end Ssh
end RemoteTerminal
