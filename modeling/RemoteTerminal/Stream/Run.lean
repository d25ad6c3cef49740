/-
# Runs of the stream buffers

The calls that an intake and an outbox take, as data, and what a list of them
does on a line.
-/

import RemoteTerminal.Stream.Outcome

namespace RemoteTerminal

namespace Intake

/-- A call of an intake. -/
inductive Call where
  | fill (limit : Nat)
  | read (room : Nat)
  | drain (room : Nat)
  | notice (room : Nat)
  | take
  | poll
  deriving DecidableEq, Repr

/-- Make a call. -/
def perform (call : Call) (i : Intake) (l : Line) : Outcome TransportError × Intake × Line :=
  match call with
  | .fill limit =>
    let (r, i, l) := i.fill limit l
    (.done r, i, l)
  | .read room =>
    let (r, i, l) := i.read room l
    (.data r, i, l)
  | .drain room =>
    let (data, i) := i.drain room
    (.data (.ok data), i, l)
  | .notice room =>
    let (data, notes, i) := i.readNotice room
    (.data (.ok data), i, l.log notes)
  | .take =>
    let (data, i) := i.take
    (.taken data, i, l)
  | .poll =>
    let (due, i) := i.poll
    (.due due, i, l)

/-- Make calls in order. -/
def run : List Call → Intake → Line → List (Outcome TransportError) × Intake × Line
  | [], i, l => ([], i, l)
  | call :: rest, i, l =>
    let (outcome, i, l) := i.perform call l
    let (more, i, l) := run rest i l
    (outcome :: more, i, l)

end Intake

namespace Outbox

/-- A call of an outbox. -/
inductive Call where
  | extend (data : Bytes)
  | clear
  | flush
  | write (data : Bytes)
  | flushRetry (timeout : Nat)
  /-- Send bytes past the queue. -/
  | send (data : Bytes) (timeout : Nat)
  deriving DecidableEq, Repr

/-- Make a call. -/
def perform (call : Call) (o : Outbox) (l : Line) : Outcome TransportError × Outbox × Line :=
  match call with
  | .extend data => (.nothing, o.extend data, l)
  | .clear => (.nothing, o.clear, l)
  | .flush =>
    let (r, o, l) := o.flush l
    (.flushed r, o, l)
  | .write data =>
    let (r, o, l) := o.write data l
    (.count r, o, l)
  | .flushRetry timeout =>
    let (r, o, l) := o.flushRetry timeout l
    (.count r, o, l)
  | .send data timeout =>
    let (r, l) := l.sendRetrying data timeout
    (.count r, o, l)

/-- Make calls in order. -/
def run : List Call → Outbox → Line → List (Outcome TransportError) × Outbox × Line
  | [], o, l => ([], o, l)
  | call :: rest, o, l =>
    let (outcome, o, l) := o.perform call l
    let (more, o, l) := run rest o l
    (outcome :: more, o, l)

end Outbox
end RemoteTerminal
