/-
# A line

A line is a transport together with the journal of the session that runs over
it.  The buffers and the sessions do all their input and output on a line.
-/

import RemoteTerminal.Journal
import RemoteTerminal.Transport

namespace RemoteTerminal

/-- A transport and the notes made while using it. -/
structure Line where
  transport : Transport := {}
  journal : List Note := []

namespace Line

/-- Add notes to the journal. -/
def log (notes : List Note) (l : Line) : Line := { l with journal := l.journal ++ notes }

/-- Add one note to the journal. -/
def note (n : Note) (l : Line) : Line := l.log [n]

/-- Read at most `room` bytes. -/
def read (room : Nat) (l : Line) : Except Fault Bytes × Line :=
  let (answer, transport) := l.transport.read room
  (answer, { l with transport })

/-- Read at most `room` bytes of urgent data. -/
def urgent (room : Nat) (l : Line) : Except Fault Bytes × Line :=
  let (answer, transport) := l.transport.urgent room
  (answer, { l with transport })

/-- Offer bytes to the peer. -/
def write (offered : Bytes) (l : Line) : Except Fault Nat × Line :=
  let (answer, transport) := l.transport.write offered
  (answer, { l with transport })

end Line
end RemoteTerminal
