/-
# How the calls of a telnet session can go

A call that is put together from others can end in any of them.  For each such call a relation
lists its ways, with what was found on each, and a theorem says that it goes one of them.

| call | ways |
| --- | --- |
| `respondAndDeliver` | `RespondsBy`: what the codec has to say is sent, or is not |
| `refill` | `RefillsBy`: the line fails, or what it brings is decoded |
| `read` | `ReadsBy`: payload from before, the notice, or what the line brings |
| `pour` | `PoursBy`: rounds, and what ends them |
| `write` | `Goes`: as far as the data, or less far |

What a call keeps is shown way by way, from what the calls it is made of keep.
-/

import RemoteTerminal.Proofs.Telnet.Framing
import RemoteTerminal.Telnet.Session

namespace RemoteTerminal
namespace Telnet
namespace Session

/-! ### Reading -/

/-- How a session responds to what was decoded, and delivers. -/
inductive RespondsBy (room : Nat) (s : Session) : Except TransportError Bytes × Session → Prop where
  /-- There is nothing to say. -/
  | silent (h : s.codec.hasReplies = false) : RespondsBy room s (s.deliverOrBlock room)
  /-- It is said. -/
  | said (h : s.codec.hasReplies = true) (hs : s.sendReplies.1 = .ok ()) :
    RespondsBy room s (s.sendReplies.2.deliverOrBlock room)
  /-- It cannot be sent, and that is the answer. -/
  | unsent (h : s.codec.hasReplies = true) {e : TransportError} (hs : s.sendReplies.1 = .error e)
    (hp : s.sendReplies.2.payload = []) : RespondsBy room s (.error e, s.sendReplies.2)
  /-- It cannot be sent, but there is payload to deliver. -/
  | passedOver (h : s.codec.hasReplies = true) {e : TransportError}
    (hs : s.sendReplies.1 = .error e) (hp : s.sendReplies.2.payload ≠ []) :
    RespondsBy room s
      ((s.sendReplies.2.log [.warn s!"Failed to send negotiation reply: {e}"]).deliverOrBlock room)

theorem respondAndDeliver_respondsBy (room : Nat) (s : Session) :
    RespondsBy room s (s.respondAndDeliver room) := by
  unfold respondAndDeliver
  split
  · rename_i h
    split
    · rename_i s' hs
      obtain rfl : s.sendReplies.2 = s' := congrArg Prod.snd hs
      exact .said h (congrArg Prod.fst hs)
    · rename_i e s' hs
      obtain rfl : s.sendReplies.2 = s' := congrArg Prod.snd hs
      split
      · rename_i hp
        exact .unsent h (congrArg Prod.fst hs) hp
      · rename_i hp
        exact .passedOver h (congrArg Prod.fst hs) hp
  · rename_i h
    exact .silent (Bool.eq_false_iff.2 h)

/-- A session with the intake and the line that filling the intake leaves. -/
def filled (s : Session) : Session :=
  { s with
    intake := (s.intake.fill s.intake.capacity s.line).2.1
    line := (s.intake.fill s.intake.capacity s.line).2.2 }

/-- How a read of the line can go. -/
inductive RefillsBy (room : Nat) (s : Session) : Except TransportError Bytes × Session → Prop where
  /-- The line fails. -/
  | failed {e : TransportError} (hf : (s.intake.fill s.intake.capacity s.line).1 = .error e) :
    RefillsBy room s (.error e, s.filled)
  /-- What it brings is decoded. -/
  | absorbed (hf : (s.intake.fill s.intake.capacity s.line).1 = .ok ()) :
    RefillsBy room s (s.filled.absorb.respondAndDeliver room)

theorem refill_refillsBy (room : Nat) (s : Session) : RefillsBy room s (s.refill room) := by
  unfold refill
  split
  · rename_i e intake line hf
    have hfilled : s.filled = { s with intake, line } := by rw [filled, hf]
    rw [← hfilled]
    exact .failed (congrArg Prod.fst hf)
  · rename_i intake line hf
    have hfilled : s.filled = { s with intake, line } := by rw [filled, hf]
    rw [← hfilled]
    exact .absorbed (congrArg Prod.fst hf)

/-- How a read of at most `room` bytes can go. -/
inductive ReadsBy (room : Nat) (s : Session) : Except TransportError Bytes × Session → Prop where
  /-- Nothing is asked for. -/
  | nothing (hr : room = 0) : ReadsBy room s (.ok [], s)
  /-- The requests of the beginning cannot be sent. -/
  | unstarted (hr : room ≠ 0) {e : TransportError} (hs : s.start.1 = .error e) :
    ReadsBy room s (.error e, s.start.2)
  /-- There is payload from before. -/
  | carried (hr : room ≠ 0) (hs : s.start.1 = .ok ()) (hp : s.start.2.payload ≠ []) :
    ReadsBy room s (.ok (s.start.2.payload.take room), (s.start.2.deliver room).2)
  /-- The notice is due. -/
  | notice (hr : room ≠ 0) (hs : s.start.1 = .ok ()) (hp : s.start.2.payload = [])
    (hdue : s.start.2.intake.poll.1 = .notice) :
    ReadsBy room s
      (.ok (s.start.2.intake.poll.2.readNotice room).1,
        { s.start.2 with intake := (s.start.2.intake.poll.2.readNotice room).2.2 }.log
          (s.start.2.intake.poll.2.readNotice room).2.1)
  /-- The whole notice is out. -/
  | closed (hr : room ≠ 0) (hs : s.start.1 = .ok ()) (hp : s.start.2.payload = [])
    (hdue : s.start.2.intake.poll.1 = .nothing) :
    ReadsBy room s (.ok [], { s.start.2 with intake := s.start.2.intake.poll.2 })
  /-- The line is read. -/
  | refilled (hr : room ≠ 0) (hs : s.start.1 = .ok ()) (hp : s.start.2.payload = [])
    (hdue : s.start.2.intake.poll.1 = .payload) :
    ReadsBy room s ({ s.start.2 with intake := s.start.2.intake.poll.2 }.refill room)

theorem read_readsBy (room : Nat) (s : Session) : ReadsBy room s (s.read room) := by
  unfold Session.read
  split
  · rename_i hr
    exact .nothing hr
  · rename_i hr
    split
    · rename_i e s' hs
      obtain rfl : s.start.2 = s' := congrArg Prod.snd hs
      exact .unstarted hr (congrArg Prod.fst hs)
    · rename_i s' hs
      obtain rfl : s.start.2 = s' := congrArg Prod.snd hs
      have hok : s.start.1 = .ok () := congrArg Prod.fst hs
      split
      · rename_i hp
        exact .carried hr hok hp
      · rename_i hp
        have hp : s.start.2.payload = [] := Classical.not_not.1 hp
        split
        · rename_i intake hdue
          obtain rfl : s.start.2.intake.poll.2 = intake := congrArg Prod.snd hdue
          exact .notice hr hok hp (congrArg Prod.fst hdue)
        · rename_i intake hdue
          obtain rfl : s.start.2.intake.poll.2 = intake := congrArg Prod.snd hdue
          exact .closed hr hok hp (congrArg Prod.fst hdue)
        · rename_i intake hdue
          obtain rfl : s.start.2.intake.poll.2 = intake := congrArg Prod.snd hdue
          exact .refilled hr hok hp (congrArg Prod.fst hdue)

/-! ### Writing -/

/-- How much of some data there is room for. -/
def taken (data : Bytes) (s : Session) : Nat := (s.codec.encodeWithin s.outbox.room data).1

/-- A session in which that much is framed. -/
def framed (data : Bytes) (s : Session) : Session :=
  { s with outbox := s.outbox.extend (s.codec.encodeWithin s.outbox.room data).2 }

/-- The data is cut cleanly there. -/
theorem fillsLimit_taken (data : Bytes) (s : Session) :
    FillsLimit s.codec.flags.binaryMode s.outbox.room data (s.taken data) := by
  obtain ⟨used, hused, hcut⟩ := encodeWithin_cut s.codec.flags.binaryMode s.outbox.room data
  rwa [taken, Codec.encodeWithin, hused]

theorem framed_eq (data : Bytes) (s : Session) :
    s.framed data = { s with
      outbox := s.outbox.extend (encode s.codec.flags.binaryMode (data.take (s.taken data))) } := by
  obtain ⟨used, hused, -⟩ := encodeWithin_cut s.codec.flags.binaryMode s.outbox.room data
  rw [framed, taken, Codec.encodeWithin, hused]

/-- How some data is poured, round after round. -/
inductive PoursBy : Bytes → Session → Nat × Session → Prop where
  /-- There is no data left, or no room. -/
  | done {data : Bytes} {s : Session} (h : s.taken data = 0 ∨ data = []) : PoursBy data s (0, s)
  /-- All that was framed is sent, and the rest of the data is poured. -/
  | complete {data : Bytes} {s : Session} (hsome : s.taken data ≠ 0) (hdata : data ≠ [])
    (hf : (s.framed data).flush.1 = .ok .complete) {rest : Nat × Session}
    (hrest : PoursBy (data.drop (s.taken data)) (s.framed data).flush.2 rest) :
    PoursBy data s (s.taken data + rest.1, rest.2)
  /-- Some of it is pending. -/
  | stalled {data : Bytes} {s : Session} (hsome : s.taken data ≠ 0) (hdata : data ≠ [])
    (hf : (s.framed data).flush.1 = .ok .stalled) :
    PoursBy data s (s.taken data, (s.framed data).flush.2)
  /-- A fault is held back. -/
  | failed {data : Bytes} {s : Session} (hsome : s.taken data ≠ 0) (hdata : data ≠ [])
    {e : TransportError} (hf : (s.framed data).flush.1 = .error e) :
    PoursBy data s
      (s.taken data,
        { (s.framed data).flush.2 with deferred := some e }.log
          [.warn s!"Write failed, deferring error: {e}"])

/-- Of no data nothing is poured. -/
theorem PoursBy.eq_of_nil {s : Session} {result : Nat × Session} (h : PoursBy [] s result) :
    result = (0, s) := by
  cases h with
  | done => rfl
  | complete _ hdata => exact absurd rfl hdata
  | stalled _ hdata => exact absurd rfl hdata
  | failed _ hdata => exact absurd rfl hdata

/-- By induction on the length of the data: every round but the last uses up some of it. -/
theorem pour_poursBy (data : Bytes) (s : Session) : PoursBy data s (s.pour data) := by
  induction hn : data.length using Nat.strongRecOn generalizing data s with
  | ind n ih =>
    subst hn
    rw [pour]
    dsimp only
    split
    · rename_i h
      exact .done h
    · rename_i hmore
      obtain ⟨hsome, hdata⟩ := not_or.1 hmore
      split
      · rename_i s' hf
        obtain rfl : (s.framed data).flush.2 = s' := congrArg Prod.snd hf
        have hshorter : (data.drop (s.taken data)).length < data.length := by
          have hlength := List.length_pos_iff.2 hdata
          have htaken : 0 < s.taken data := Nat.pos_of_ne_zero hsome
          rw [List.length_drop]
          omega
        exact .complete hsome hdata (congrArg Prod.fst hf) (ih _ hshorter _ _ rfl)
      · rename_i s' hf
        obtain rfl : (s.framed data).flush.2 = s' := congrArg Prod.snd hf
        exact .stalled hsome hdata (congrArg Prod.fst hf)
      · rename_i e s' hf
        obtain rfl : (s.framed data).flush.2 = s' := congrArg Prod.snd hf
        exact .failed hsome hdata (congrArg Prod.fst hf)

/-- How a write of some data can go: what it answers, and the session after it. -/
inductive Goes (data : Bytes) (s : Session) : Except TransportError Nat × Session → Prop where
  /-- An error was held back, and is reported. -/
  | reported (e : TransportError) (h : s.deferred = some e) :
      Goes data s (.error e, { s with deferred := none }.log
        [.debug "Reporting deferred write error"])
  /-- There is nothing to write. -/
  | nothing (h : s.deferred = none) (hdata : data = []) : Goes data s (.ok 0, s)
  /-- The requests of the beginning could not be sent. -/
  | unstarted (h : s.deferred = none) (hdata : data ≠ []) {e : TransportError}
      (hs : s.start.1 = .error e) : Goes data s (.error e, s.start.2)
  /-- What was pending could not be sent. -/
  | unsent (h : s.deferred = none) (hdata : data ≠ []) {e : TransportError}
      (hf : s.start.2.flush.1 = .error e) : Goes data s (.error e, s.start.2.flush.2)
  /-- Some of what was pending is pending still. -/
  | stalled (h : s.deferred = none) (hdata : data ≠ [])
      (hf : s.start.2.flush.1 = .ok .stalled) : Goes data s (.error .wouldBlock, s.start.2.flush.2)
  /-- The data is poured. -/
  | poured (h : s.deferred = none) (hdata : data ≠ [])
      (hf : s.start.2.flush.1 = .ok .complete) :
      Goes data s (.ok (s.start.2.flush.2.pour data).1, (s.start.2.flush.2.pour data).2)

theorem write_goes (data : Bytes) (s : Session) : Goes data s (s.write data) := by
  unfold write
  split
  · rename_i e h
    exact .reported e h
  · rename_i h
    split
    · rename_i hdata
      exact .nothing h hdata
    · rename_i hdata
      split
      · rename_i e s' hs
        obtain rfl : s.start.2 = s' := congrArg Prod.snd hs
        exact .unstarted h hdata (congrArg Prod.fst hs)
      · rename_i s' hs
        obtain rfl : s.start.2 = s' := congrArg Prod.snd hs
        split
        · rename_i e s' hf
          obtain rfl : s.start.2.flush.2 = s' := congrArg Prod.snd hf
          exact .unsent h hdata (congrArg Prod.fst hf)
        · rename_i s' hf
          obtain rfl : s.start.2.flush.2 = s' := congrArg Prod.snd hf
          exact .stalled h hdata (congrArg Prod.fst hf)
        · rename_i s' hf
          obtain rfl : s.start.2.flush.2 = s' := congrArg Prod.snd hf
          exact .poured h hdata (congrArg Prod.fst hf)

end Session
end Telnet
end RemoteTerminal
