/-
# A raw session

Plain bytes in both directions: nothing is negotiated and nothing is escaped, and
only the discipline of the two buffers remains.
-/

import RemoteTerminal.Stream.Intake
import RemoteTerminal.Stream.Outbox

namespace RemoteTerminal
namespace Raw

/-- A raw session. -/
structure Session where
  intake : Intake
  outbox : Outbox
  line : Line := {}

namespace Session

/-- A session with buffers of a given size. -/
def create (bufferSize : Nat) (transport : Transport) : Session :=
  { intake := .ofCapacity bufferSize
    outbox := .ofCapacity bufferSize
    line := { transport, journal := Capacity.notes bufferSize ++ Capacity.notes bufferSize } }

/-- Read at most `room` bytes. -/
def read (room : Nat) (s : Session) : Except TransportError Bytes × Session :=
  let (result, intake, line) := s.intake.read room s.line
  (result, { s with intake, line })

/-- Send a caller's bytes unchanged. -/
def write (data : Bytes) (s : Session) : Except TransportError Nat × Session :=
  let (result, outbox, line) := s.outbox.write data s.line
  (result, { s with outbox, line })

/-- Send pending bytes without accepting new ones. -/
def flush (s : Session) : Except TransportError Flushed × Session :=
  let (result, outbox, line) := s.outbox.flush s.line
  (result, { s with outbox, line })

end Session
end Raw
end RemoteTerminal
