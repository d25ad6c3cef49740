/-
# How sending can go

The loops of an outbox are bounded by the answers that the transport has left, for once these
are used up one write takes everything.  What a loop does is told by the raw writes alone: each
of them takes some bytes, after which the rest is offered, or it is made again, or it is the
last.  Here that is said once for each loop, and for a write, which is made of them.

| call | ways |
| --- | --- |
| `Outbox.flush` | `FlushesBy` |
| `Line.sendRetrying` | `SendsBy` |
| `Outbox.write` | `WritesBy` |

What sending keeps is shown by induction on its raw writes.
-/

import RemoteTerminal.Proofs.Transport
import RemoteTerminal.Stream.Outbox

namespace RemoteTerminal

/-! ### Sending with retries -/

/-- How sending bytes with retries can go, once `sent` bytes are out. -/
inductive SendsBy (timeout start : Nat) :
    Nat → Bytes → Line → Except TransportError Nat × Line → Prop where
  /-- All is out. -/
  | complete (sent : Nat) (l : Line) : SendsBy timeout start sent [] l (.ok sent, l)
  /-- Some of it is taken. -/
  | took {sent count : Nat} {rest : Bytes} {l l' : Line} {result : Except TransportError Nat × Line}
    (hrest : rest ≠ []) (hcount : count ≠ 0) (hw : l.write rest = (.ok count, l'))
    (hmore : SendsBy timeout start (sent + count) (rest.drop count) l' result) :
    SendsBy timeout start sent rest l result
  /-- An interruption, or a would-block for which there is time, is sat out. -/
  | satOut {sent : Nat} {rest : Bytes} {l l' : Line} {result : Except TransportError Nat × Line}
    {f : Fault} (hw : l.write rest = (.error f, l'))
    (hf : f.isInterrupted = true ∨ f.isWouldBlock = true)
    (hmore : SendsBy timeout start sent rest l' result) : SendsBy timeout start sent rest l result
  /-- There is no time left. -/
  | late {sent : Nat} {rest : Bytes} {l l' : Line} {f : Fault}
    (hw : l.write rest = (.error f, l')) :
    SendsBy timeout start sent rest l (.ok sent, l'.note (.warn "Write retry timed out"))
  /-- Nothing is taken, and nothing was before. -/
  | refused {rest : Bytes} {l l' : Line} (hw : l.write rest = (.ok 0, l')) :
    SendsBy timeout start 0 rest l (.error (.io .writeZero), l')
  /-- Nothing is taken any more. -/
  | stopped {sent : Nat} {rest : Bytes} {l l' : Line} (hsent : sent ≠ 0)
    (hw : l.write rest = (.ok 0, l')) : SendsBy timeout start sent rest l (.ok sent, l')
  /-- A hard fault strikes before anything was taken. -/
  | failed {rest : Bytes} {l l' : Line} {f : Fault} (hw : l.write rest = (.error f, l'))
    (hi : ¬f.isInterrupted = true) (hb : ¬f.isWouldBlock = true) :
    SendsBy timeout start 0 rest l (.error (.io f), l')
  /-- A hard fault strikes. -/
  | cutOff {sent : Nat} {rest : Bytes} {l l' : Line} {f : Fault} (hsent : sent ≠ 0)
    (hw : l.write rest = (.error f, l')) :
    SendsBy timeout start sent rest l
      (.ok sent, l'.note (.warn s!"Write failed after {sent} bytes: {f}"))

/-- By induction on the answers that the transport has left. -/
theorem sendRetrying_sendsBy (timeout start : Nat) (answers : List WriteAnswer) (sent : Nat)
    (rest : Bytes) (l : Line) (h : l.transport.outgoing = answers) :
    SendsBy timeout start sent rest l (sendRetrying timeout start answers sent rest l) := by
  induction answers generalizing sent rest l with
  | nil =>
    unfold sendRetrying
    split
    · rename_i hnone
      exact hnone ▸ .complete sent l
    · rename_i hsome
      have hall : SendsBy timeout start (sent + rest.length) (rest.drop rest.length)
          (l.write rest).2 (.ok (sent + rest.length), (l.write rest).2) := by
        rw [List.drop_length]
        exact .complete ..
      have hcount : rest.length ≠ 0 := mt List.length_eq_zero_iff.1 hsome
      exact .took hsome hcount (Line.write_of_outgoing_nil rest h) hall
  | cons answer answers ih =>
    have hleft {answer' : Except Fault Nat} {l' : Line} (hw : l.write rest = (answer', l')) :
        l'.transport.outgoing = answers := by
      rw [Line.outgoing_of_write hw, h]
      rfl
    unfold sendRetrying
    split
    · rename_i hnone
      exact hnone ▸ .complete sent l
    · rename_i hsome
      split
      · rename_i l' hw
        by_cases hsent : sent = 0
        · subst hsent
          exact .refused hw
        · rw [if_neg hsent]
          exact .stopped hsent hw
      · rename_i count l' hcount hw
        exact .took hsome hcount hw (ih _ _ l' (hleft hw))
      · rename_i f l' hw
        split
        · rename_i hi
          exact .satOut hw (.inl hi) (ih _ _ l' (hleft hw))
        · rename_i hi
          split
          · rename_i hb
            split
            · exact .late hw
            · exact .satOut hw (.inr hb) (ih _ _ l' (hleft hw))
          · rename_i hb
            split
            · rename_i hsent
              subst hsent
              exact .failed hw hi hb
            · rename_i hsent
              exact .cutOff hsent hw

theorem Line.sendRetrying_sendsBy (data : Bytes) (timeout : Nat) (l : Line) :
    SendsBy timeout l.transport.clock 0 data l (l.sendRetrying data timeout) :=
  RemoteTerminal.sendRetrying_sendsBy timeout l.transport.clock _ 0 data l rfl

namespace Outbox

/-- How a retrying flush can go. -/
inductive RetriesBy (timeout : Nat) (o : Outbox) (l : Line) :
    Except TransportError Nat × Outbox × Line → Prop where
  /-- Some bytes are out. -/
  | sent {count : Nat} {l' : Line}
    (hs : SendsBy timeout l.transport.clock 0 o.pending l (.ok count, l')) :
    RetriesBy timeout o l (.ok count, { o with pending := o.pending.drop count }, l')
  /-- It fails. -/
  | failed {e : TransportError} {l' : Line}
    (hs : SendsBy timeout l.transport.clock 0 o.pending l (.error e, l')) :
    RetriesBy timeout o l (.error e, o, l')

theorem flushRetry_retriesBy (timeout : Nat) (o : Outbox) (l : Line) :
    RetriesBy timeout o l (o.flushRetry timeout l) := by
  have hsends := l.sendRetrying_sendsBy o.pending timeout
  unfold flushRetry
  split
  · rename_i count l' hs
    rw [hs] at hsends
    exact .sent hsends
  · rename_i e l' hs
    rw [hs] at hsends
    exact .failed hsends

/-! ### Sending for as long as bytes are taken -/

/-- How sending what is pending can go. -/
inductive FlushesBy : Outbox → Line → Except TransportError Flushed × Outbox × Line → Prop where
  /-- Nothing is pending. -/
  | complete {o : Outbox} {l : Line} (hp : o.pending = []) : FlushesBy o l (.ok .complete, o, l)
  /-- Some of it is taken. -/
  | took {o : Outbox} {l l' : Line} {count : Nat}
    {result : Except TransportError Flushed × Outbox × Line} (hp : o.pending ≠ [])
    (hcount : count ≠ 0) (hw : l.write o.pending = (.ok count, l'))
    (hmore : FlushesBy { o with pending := o.pending.drop count } l' result) :
    FlushesBy o l result
  /-- An interruption is passed over. -/
  | interrupted {o : Outbox} {l l' : Line} {f : Fault}
    {result : Except TransportError Flushed × Outbox × Line}
    (hw : l.write o.pending = (.error f, l')) (hi : f.isInterrupted = true)
    (hmore : FlushesBy o l' result) : FlushesBy o l result
  /-- The transport takes no more for now. -/
  | stalled {o : Outbox} {l l' : Line} (hp : o.pending ≠ [])
    (hw : l.write o.pending = (.error .wouldBlock, l')) : FlushesBy o l (.ok .stalled, o, l')
  /-- Nothing is taken. -/
  | refused {o : Outbox} {l l' : Line} (hp : o.pending ≠ [])
    (hw : l.write o.pending = (.ok 0, l')) : FlushesBy o l (.error (.io .writeZero), o, l')
  /-- A hard fault strikes. -/
  | failed {o : Outbox} {l l' : Line} {f : Fault} (hp : o.pending ≠ [])
    (hw : l.write o.pending = (.error f, l')) (hi : ¬f.isInterrupted = true)
    (hb : ¬f.isWouldBlock = true) : FlushesBy o l (.error (.io f), o, l')

/-- By induction on the answers that the transport has left. -/
theorem flushWith_flushesBy (answers : List WriteAnswer) (o : Outbox) (l : Line)
    (h : l.transport.outgoing = answers) : FlushesBy o l (flushWith answers o l) := by
  induction answers generalizing o l with
  | nil =>
    unfold flushWith
    split
    · rename_i hp
      exact .complete hp
    · rename_i hp
      have hall : FlushesBy { o with pending := o.pending.drop o.pending.length }
          (l.write o.pending).2 (.ok .complete, o.clear, (l.write o.pending).2) := by
        rw [List.drop_length]
        exact .complete rfl
      have hcount : o.pending.length ≠ 0 := mt List.length_eq_zero_iff.1 hp
      exact .took hp hcount (Line.write_of_outgoing_nil o.pending h) hall
  | cons answer answers ih =>
    have hleft {answer' : Except Fault Nat} {l' : Line} (hw : l.write o.pending = (answer', l')) :
        l'.transport.outgoing = answers := by
      rw [Line.outgoing_of_write hw, h]
      rfl
    unfold flushWith
    split
    · rename_i hp
      exact .complete hp
    · rename_i hp
      split
      · rename_i l' hw
        exact .refused hp hw
      · rename_i count l' hcount hw
        exact .took hp hcount hw (ih _ l' (hleft hw))
      · rename_i f l' hw
        split
        · rename_i hi
          exact .interrupted hw hi (ih o l' (hleft hw))
        · rename_i hi
          split
          · rename_i hb
            obtain rfl : f = .wouldBlock := by simpa [Fault.isWouldBlock] using hb
            exact .stalled hp hw
          · rename_i hb
            exact .failed hp hw hi hb

theorem flush_flushesBy (o : Outbox) (l : Line) : FlushesBy o l (o.flush l) :=
  flushWith_flushesBy _ o l rfl

/-! ### Writing -/

/-- How a write of some data can go. -/
inductive WritesBy (data : Bytes) (o : Outbox) (l : Line) :
    Except TransportError Nat × Outbox × Line → Prop where
  /-- There is nothing to write. -/
  | nothing (hdata : data = []) : WritesBy data o l (.ok 0, o, l)
  /-- What was pending cannot be sent. -/
  | unsent (hdata : data ≠ []) {e : TransportError} (hf : (o.flush l).1 = .error e) :
    WritesBy data o l (.error e, (o.flush l).2)
  /-- Some of it is pending still. -/
  | stalled (hdata : data ≠ []) (hf : (o.flush l).1 = .ok .stalled) :
    WritesBy data o l (.error .wouldBlock, (o.flush l).2)
  /-- The data is poured. -/
  | poured (hdata : data ≠ []) (hf : (o.flush l).1 = .ok .complete) :
    WritesBy data o l
      (.ok ((o.flush l).2.1.pour data (o.flush l).2.2).1,
        ((o.flush l).2.1.pour data (o.flush l).2.2).2)

theorem write_writesBy (data : Bytes) (o : Outbox) (l : Line) :
    WritesBy data o l (o.write data l) := by
  unfold write
  split
  · rename_i hdata
    exact .nothing hdata
  · rename_i hdata
    split
    · rename_i e o' l' hf
      obtain rfl : (o.flush l).2.1 = o' := congrArg (·.2.1) hf
      obtain rfl : (o.flush l).2.2 = l' := congrArg (·.2.2) hf
      exact .unsent hdata (congrArg Prod.fst hf)
    · rename_i o' l' hf
      obtain rfl : (o.flush l).2.1 = o' := congrArg (·.2.1) hf
      obtain rfl : (o.flush l).2.2 = l' := congrArg (·.2.2) hf
      exact .stalled hdata (congrArg Prod.fst hf)
    · rename_i o' l' hf
      obtain rfl : (o.flush l).2.1 = o' := congrArg (·.2.1) hf
      obtain rfl : (o.flush l).2.2 = l' := congrArg (·.2.2) hf
      exact .poured hdata (congrArg Prod.fst hf)

end Outbox
end RemoteTerminal
