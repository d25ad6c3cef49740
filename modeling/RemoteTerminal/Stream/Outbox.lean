/-
# The output side of a stream

An outbox is the queue of bytes that are owed to the peer.  There are two ways of
sending it.

* `flush` goes on until everything is out, the transport would block (`stalled`)
  or it fails.
* `flushRetry` sits out would-blocks until a time limit; it is meant for short
  handshake texts.  What it could not send stays in the queue.

Both repeat an interrupted write at once and treat a write that takes nothing as
a fault.  `write` passes a caller's bytes through the queue unchanged and answers
how many of them were accepted.
-/

import RemoteTerminal.Line
import RemoteTerminal.Transport.Error
import RemoteTerminal.Stream.Capacity

namespace RemoteTerminal

/-- How a flush ended, if it did not fail. -/
inductive Flushed where
  /-- Nothing is pending. -/
  | complete
  /-- The transport takes no more for now. -/
  | stalled
  deriving DecidableEq, Repr

/-- The bytes owed to the peer. -/
structure Outbox where
  pending : Bytes := []
  capacity : Nat
  deriving DecidableEq, Repr

/-- Send bytes until they are out, sitting out would-blocks up to `timeout` ticks
after `start`; `sent` of the bytes are out already.  The answers still to come
bound the loop: once they are used up, one write takes everything. -/
def sendRetrying (timeout start : Nat) :
    List WriteAnswer → Nat → Bytes → Line → Except TransportError Nat × Line
  | [], sent, rest, l =>
    if rest = [] then (.ok sent, l) else (.ok (sent + rest.length), (l.write rest).2)
  | _ :: answers, sent, rest, l =>
    if rest = [] then (.ok sent, l)
    else
      match l.write rest with
      | (.ok 0, l) => (if sent = 0 then .error (.io .writeZero) else .ok sent, l)
      | (.ok count, l) =>
        sendRetrying timeout start answers (sent + count) (rest.drop count) l
      | (.error f, l) =>
        if f.isInterrupted then sendRetrying timeout start answers sent rest l
        else if f.isWouldBlock then
          if timeout < l.transport.clock - start then
            (.ok sent, l.note (.warn "Write retry timed out"))
          else sendRetrying timeout start answers sent rest l
        else if sent = 0 then (.error (.io f), l)
        else (.ok sent, l.note (.warn s!"Write failed after {sent} bytes: {f}"))

/-- Send bytes, sitting out would-blocks for at most `timeout` ticks, and answer
how many of them went out.  A fault before the first is an error. -/
def Line.sendRetrying (data : Bytes) (timeout : Nat) (l : Line) :
    Except TransportError Nat × Line :=
  RemoteTerminal.sendRetrying timeout l.transport.clock l.transport.outgoing 0 data l

namespace Outbox

/-- An empty outbox of the capacity that a request comes to. -/
def ofCapacity (requested : Nat) : Outbox := { capacity := Capacity.granted requested }

/-- How many bytes fit into the queue. -/
def room (o : Outbox) : Nat := o.capacity - o.pending.length

/-- Queue bytes, whatever room there is. -/
def extend (data : Bytes) (o : Outbox) : Outbox := { o with pending := o.pending ++ data }

/-- Give up every pending byte. -/
def clear (o : Outbox) : Outbox := { o with pending := [] }

/-- The loop of `flush`, bounded by the answers still to come: once they are used
up, one write takes everything. -/
def flushWith : List WriteAnswer → Outbox → Line → Except TransportError Flushed × Outbox × Line
  | [], o, l =>
    if o.pending = [] then (.ok .complete, o, l)
    else (.ok .complete, o.clear, (l.write o.pending).2)
  | _ :: answers, o, l =>
    if o.pending = [] then (.ok .complete, o, l)
    else
      match l.write o.pending with
      | (.ok 0, l) => (.error (.io .writeZero), o, l)
      | (.ok count, l) => flushWith answers { o with pending := o.pending.drop count } l
      | (.error f, l) =>
        if f.isInterrupted then flushWith answers o l
        else if f.isWouldBlock then (.ok .stalled, o, l)
        else (.error (.io f), o, l)

/-- Send pending bytes for as long as the transport takes them. -/
def flush (o : Outbox) (l : Line) : Except TransportError Flushed × Outbox × Line :=
  flushWith l.transport.outgoing o l

/-- Send pending bytes, sitting out would-blocks for at most `timeout` ticks. -/
def flushRetry (timeout : Nat) (o : Outbox) (l : Line) :
    Except TransportError Nat × Outbox × Line :=
  match l.sendRetrying o.pending timeout with
  | (.ok sent, l) => (.ok sent, { o with pending := o.pending.drop sent }, l)
  | (.error e, l) => (.error e, o, l)

/-- Queue as much of the data as fits and send it, again and again until the data
is used up, the transport stalls or it fails.  Answers how many bytes of the data
were queued; a fault is noted, and will come again. -/
def pour (data : Bytes) (o : Outbox) (l : Line) : Nat × Outbox × Line :=
  let count := min o.room data.length
  if _h : count = 0 then (0, o, l)
  else
    match (o.extend (data.take count)).flush l with
    | (.ok .complete, o, l) =>
      let (more, o, l) := pour (data.drop count) o l
      (count + more, o, l)
    | (.ok .stalled, o, l) => (count, o, l)
    | (.error e, o, l) => (count, o, l.note (.warn s!"Write failed with bytes pending: {e}"))
termination_by data.length
decreasing_by simp only [List.length_drop]; omega

/-- Pass a caller's bytes on unchanged, after those that are pending. -/
def write (data : Bytes) (o : Outbox) (l : Line) : Except TransportError Nat × Outbox × Line :=
  if data = [] then (.ok 0, o, l)
  else
    match o.flush l with
    | (.error e, o, l) => (.error e, o, l)
    | (.ok .stalled, o, l) => (.error .wouldBlock, o, l)
    | (.ok .complete, o, l) =>
      let (count, o, l) := o.pour data l
      (.ok count, o, l)

end Outbox
end RemoteTerminal
