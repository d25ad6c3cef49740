/-
# Runs of a raw session

The calls that a raw session takes, as data, and what a list of them does.
-/

import RemoteTerminal.Raw.Session
import RemoteTerminal.Stream.Outcome

namespace RemoteTerminal
namespace Raw

/-- A call of a raw session. -/
inductive Call where
  | read (room : Nat)
  | write (data : Bytes)
  | flush
  deriving DecidableEq, Repr

namespace Session

/-- Make a call. -/
def perform (call : Call) (s : Session) : Outcome TransportError × Session :=
  match call with
  | .read room =>
    let (r, s) := s.read room
    (.data r, s)
  | .write data =>
    let (r, s) := s.write data
    (.count r, s)
  | .flush =>
    let (r, s) := s.flush
    (.flushed r, s)

/-- Make calls in order. -/
def run : List Call → Session → List (Outcome TransportError) × Session
  | [], s => ([], s)
  | call :: rest, s =>
    let (outcome, s) := s.perform call
    let (more, s) := run rest s
    (outcome :: more, s)

end Session
end Raw
end RemoteTerminal
