/-
# A transport

A transport is a non-blocking byte connection to a peer.  It is given by what it
will answer: chunks, ends of stream and faults to reads, urgent bytes to urgent
reads, and to each write how many bytes it takes or how it fails.  Any behaviour
of a real socket over finitely many calls is such a list of answers.

| call | answer in the list | when the list is used up |
| --- | --- | --- |
| `read` | a chunk, of which the part that does not fit stays | would block |
| `urgent` | one byte, none, or a fault | would block |
| `write` | takes up to so many bytes, or fails | takes all |

The transport keeps a history of the calls made to it, so what it has taken
(`accepted`), what it has handed out (`delivered`) and how often it was shut down
(`shutdowns`) can be asked at any time.  `write_accepted` says what a write adds to
the bytes taken.
-/

import RemoteTerminal.Bytes
import RemoteTerminal.Fault

namespace RemoteTerminal

/-- The answer to one raw write. -/
inductive WriteAnswer where
  /-- Takes the bytes offered, but no more than `limit`. -/
  | accept (limit : Nat)
  /-- Takes nothing; the clock has moved on by one tick and `idle` more. -/
  | fail (fault : Fault) (idle : Nat)
  deriving DecidableEq, Repr

/-- One call made to a transport, with its answer. -/
inductive Exchange where
  | read (room : Nat) (answer : Except Fault Bytes)
  | urgent (room : Nat) (answer : Except Fault Bytes)
  | write (offered : Bytes) (answer : Except Fault Nat)
  | shutdown

namespace Exchange

/-- The bytes that left through a call. -/
def sent : Exchange → Bytes
  | write offered (.ok count) => offered.take count
  | _ => []

/-- The bytes that came in through a call, urgent ones apart. -/
def received : Exchange → Bytes
  | read _ (.ok data) => data
  | _ => []

/-- Whether a call is a shutdown. -/
def isShutdown : Exchange → Bool
  | shutdown => true
  | _ => false

end Exchange

/-- A transport: the answers it still has to give, and what was asked of it. -/
structure Transport where
  /-- Answers to reads; an empty chunk is the end of the stream. -/
  incoming : List (Except Fault Bytes) := []
  /-- Answers to urgent reads; at most one byte each. -/
  urgentIn : List (Except Fault Bytes) := []
  /-- Answers to writes. -/
  outgoing : List WriteAnswer := []
  /-- A transport with neither urgent data nor a shutdown of its own. -/
  dataOnly : Bool := false
  /-- The time, in ticks. -/
  clock : Nat := 0
  /-- Every call so far, the first one first. -/
  history : List Exchange := []
  /-- How many of the accepted bytes have been collected by an onlooker. -/
  collected : Nat := 0

namespace Transport

/-- Every byte the transport has taken. -/
def accepted (t : Transport) : Bytes := t.history.flatMap Exchange.sent

/-- Every byte the transport has handed out. -/
def delivered (t : Transport) : Bytes := t.history.flatMap Exchange.received

/-- How often the transport was shut down. -/
def shutdowns (t : Transport) : Nat := t.history.countP Exchange.isShutdown

/-- The accepted bytes that no onlooker has collected yet. -/
def uncollected (t : Transport) : Bytes := t.accepted.drop t.collected

/-- Hand the uncollected bytes to an onlooker. -/
def collect (t : Transport) : Bytes × Transport :=
  (t.uncollected, { t with collected := t.accepted.length })

/-- The transport with one more call in its history. -/
def record (t : Transport) (e : Exchange) : Transport := { t with history := t.history ++ [e] }

/-- Read at most `room` bytes. -/
def read (room : Nat) (t : Transport) : Except Fault Bytes × Transport :=
  match t.incoming with
  | [] => (.error .wouldBlock, t.record (.read room (.error .wouldBlock)))
  | .error f :: rest =>
    (.error f, { t with incoming := rest }.record (.read room (.error f)))
  | .ok chunk :: rest =>
    let incoming := if room < chunk.length then .ok (chunk.drop room) :: rest else rest
    (.ok (chunk.take room),
      { t with incoming := incoming }.record (.read room (.ok (chunk.take room))))

/-- Read at most `room` bytes of urgent data. -/
def urgent (room : Nat) (t : Transport) : Except Fault Bytes × Transport :=
  if t.dataOnly then (.error .wouldBlock, t)
  else if room = 0 then (.ok [], t.record (.urgent room (.ok [])))
  else
    match t.urgentIn with
    | [] => (.error .wouldBlock, t.record (.urgent room (.error .wouldBlock)))
    | answer :: rest => (answer, { t with urgentIn := rest }.record (.urgent room answer))

/-- Offer bytes; the answer says how many of them were taken. -/
def write (offered : Bytes) (t : Transport) : Except Fault Nat × Transport :=
  match t.outgoing with
  | [] => (.ok offered.length, t.record (.write offered (.ok offered.length)))
  | .accept limit :: rest =>
    let count := min limit offered.length
    (.ok count, { t with outgoing := rest }.record (.write offered (.ok count)))
  | .fail f idle :: rest =>
    (.error f,
      { t with outgoing := rest, clock := t.clock + idle + 1 }.record (.write offered (.error f)))

/-- Shut both directions down. -/
def shutdown (t : Transport) : Transport := if t.dataOnly then t else t.record .shutdown

/-- A transport has taken, over a write, what it had taken before and the part of
the offer that the answer names. -/
theorem write_accepted (offered : Bytes) (t : Transport) :
    (t.write offered).2.accepted =
      t.accepted ++ (match (t.write offered).1 with
        | .ok count => offered.take count
        | .error _ => []) := by
  unfold write
  split <;> simp [accepted, record, Exchange.sent]

end Transport
end RemoteTerminal
