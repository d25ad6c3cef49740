/-
# Runs of an rlogin session

The calls that an rlogin session takes, as data, and what a list of them does.
-/

import RemoteTerminal.Rlogin.Session
import RemoteTerminal.Stream.Outcome

namespace RemoteTerminal
namespace Rlogin

/-- A call of an rlogin session. -/
inductive Call where
  | start
  | read (room : Nat)
  | readUrgent
  | write (data : Bytes)
  | flush
  | resize (lines columns : UInt16)
  deriving DecidableEq, Repr

namespace Session

/-- Make a call. -/
def perform (call : Call) (s : Session) : Outcome TransportError × Session :=
  match call with
  | .start =>
    let (r, s) := s.start
    (.done r, s)
  | .read room =>
    let (r, s) := s.read room
    (.data r, s)
  | .readUrgent =>
    let (e, s) := s.readUrgent
    (.data (.error e), s)
  | .write data =>
    let (r, s) := s.write data
    (.count r, s)
  | .flush =>
    let (r, s) := s.flush
    (.flushed r, s)
  | .resize lines columns =>
    let (r, s) := s.resize lines columns
    (.done r, s)

/-- Make calls in order. -/
def run : List Call → Session → List (Outcome TransportError) × Session
  | [], s => ([], s)
  | call :: rest, s =>
    let (outcome, s) := s.perform call
    let (more, s) := run rest s
    (outcome :: more, s)

end Session
end Rlogin
end RemoteTerminal
