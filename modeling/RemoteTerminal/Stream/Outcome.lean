/-
# What a call comes to

The results of the calls that buffers, sessions and connections have in common, so
that a run of different calls has one list of outcomes.
-/

import RemoteTerminal.Stream.Intake
import RemoteTerminal.Stream.Outbox

namespace RemoteTerminal

/-- The result of a call whose errors are of type `ε`. -/
inductive Outcome (ε : Type) where
  /-- The call cannot fail and has nothing to tell. -/
  | nothing
  /-- Done, or failed. -/
  | done (result : Except ε Unit)
  /-- Bytes that were read. -/
  | data (result : Except ε Bytes)
  /-- How many bytes were accepted. -/
  | count (result : Except ε Nat)
  /-- How a flush ended. -/
  | flushed (result : Except ε Flushed)
  /-- Bytes that were handed over, all there were. -/
  | taken (data : Bytes)
  /-- What is due to a reader. -/
  | due (what : Due)

namespace Outcome

/-- The same outcome with other errors. -/
def mapError (f : ε → ε') : Outcome ε → Outcome ε'
  | nothing => .nothing
  | done r => .done (r.mapError f)
  | data r => .data (r.mapError f)
  | count r => .count (r.mapError f)
  | flushed r => .flushed (r.mapError f)
  | taken bytes => .taken bytes
  | due what => .due what

end Outcome
end RemoteTerminal
