/-
# Runs of a bare transport

The calls that a transport takes, as data, and what a list of them does.
-/

import RemoteTerminal.Stream.Outcome

namespace RemoteTerminal
namespace Transport

/-- A call of a transport. -/
inductive Call where
  | read (room : Nat)
  | urgent (room : Nat)
  | write (offered : Bytes)
  /-- Hand over the accepted bytes that were not collected yet. -/
  | collect
  | shutdown
  deriving DecidableEq, Repr

/-- Make a call. -/
def perform (call : Call) (t : Transport) : Outcome Fault × Transport :=
  match call with
  | .read room =>
    let (r, t) := t.read room
    (.data r, t)
  | .urgent room =>
    let (r, t) := t.urgent room
    (.data r, t)
  | .write offered =>
    let (r, t) := t.write offered
    (.count r, t)
  | .collect =>
    let (data, t) := t.collect
    (.taken data, t)
  | .shutdown => (.nothing, t.shutdown)

/-- Make calls in order. -/
def run : List Call → Transport → List (Outcome Fault) × Transport
  | [], t => ([], t)
  | call :: rest, t =>
    let (outcome, t) := t.perform call
    let (more, t) := run rest t
    (outcome :: more, t)

end Transport
end RemoteTerminal
