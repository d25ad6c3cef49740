/-
# Runs of an SSH adapter

The calls that an attached SSH channel takes, as data, and what a list of them
does.
-/

import RemoteTerminal.Ssh.Adapter
import RemoteTerminal.Stream.Outcome

namespace RemoteTerminal
namespace Ssh

/-- A call of an SSH adapter. -/
inductive Call where
  | read (room : Nat)
  | write (data : Bytes)
  | resize (lines columns : UInt16)
  | close
  deriving DecidableEq, Repr

namespace Adapter

/-- Make a call. -/
def perform (call : Call) (a : Adapter) (r : Record) :
    Outcome ConnectionError × Adapter × Record :=
  match call with
  | .read room =>
    let (result, a, r) := a.read room r
    (.data result, a, r)
  | .write data =>
    let (result, a, r) := a.write data r
    (.count result, a, r)
  | .resize lines columns =>
    let (result, a, r) := a.resize lines columns r
    (.done result, a, r)
  | .close =>
    let (a, r) := a.close r
    (.nothing, a, r)

/-- Make calls in order. -/
def run : List Call → Adapter → Record → List (Outcome ConnectionError) × Adapter × Record
  | [], a, r => ([], a, r)
  | call :: rest, a, r =>
    let (outcome, a, r) := a.perform call r
    let (more, a, r) := run rest a r
    (outcome :: more, a, r)

end Adapter
end Ssh
end RemoteTerminal
