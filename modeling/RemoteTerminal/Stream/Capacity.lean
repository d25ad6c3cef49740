/-
# The capacity of a stream buffer

A buffer holds at least the widest encoded unit, which is two bytes.  A smaller
request is raised to that, with a warning.
-/

import RemoteTerminal.Journal

namespace RemoteTerminal
namespace Capacity

/-- The capacity of a buffer when nothing else is asked for. -/
def default : Nat := 4096

/-- The smallest capacity. -/
def least : Nat := 2

/-- The capacity that a request comes to. -/
def granted (requested : Nat) : Nat := max requested least

/-- What is noted about a request. -/
def notes (requested : Nat) : List Note :=
  if requested < least then [.warn "Buffer capacity raised to the minimum"] else []

theorem least_le_granted (requested : Nat) : least ≤ granted requested := Nat.le_max_right ..

end Capacity
end RemoteTerminal
