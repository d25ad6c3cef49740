/-
# Runs of a telnet session

The calls that a telnet session takes, as data, and what a list of them does.
-/

import RemoteTerminal.Stream.Outcome
import RemoteTerminal.Telnet.Session

namespace RemoteTerminal
namespace Telnet

/-- A call of a telnet session. -/
inductive Call where
  | start
  | read (room : Nat)
  | write (data : Bytes)
  | flush
  | resize (window : WindowSize)
  | command (command : Command)
  deriving DecidableEq, Repr

namespace Session

/-- Make a call. -/
def perform (call : Call) (s : Session) : Outcome TransportError × Session :=
  match call with
  | .start =>
    let (r, s) := s.start
    (.done r, s)
  | .read room =>
    let (r, s) := s.read room
    (.data r, s)
  | .write data =>
    let (r, s) := s.write data
    (.count r, s)
  | .flush =>
    let (r, s) := s.flush
    (.flushed r, s)
  | .resize window =>
    let (r, s) := s.resize window
    (.done r, s)
  | .command command =>
    let (r, s) := s.sendCommand command
    (.done r, s)

/-- Make calls in order. -/
def run : List Call → Session → List (Outcome TransportError) × Session
  | [], s => ([], s)
  | call :: rest, s =>
    let (outcome, s) := s.perform call
    let (more, s) := run rest s
    (outcome :: more, s)

end Session
end Telnet
end RemoteTerminal
