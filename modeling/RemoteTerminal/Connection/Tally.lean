/-
# The tally of a connection

What a connection adds to the counters that are kept for its protocol: how many
connections were opened, closed and failed, how many bytes went through, and how
many connections are open now.
-/

import RemoteTerminal.Connection.Protocol

namespace RemoteTerminal

/-- Counts of connections and bytes. -/
structure Tally where
  opened : Nat := 0
  closed : Nat := 0
  failed : Nat := 0
  /-- Connections that are open now. -/
  active : Int := 0
  bytesRead : Nat := 0
  bytesWritten : Nat := 0
  /-- Bytes that were protocol and not payload. -/
  bytesControl : Nat := 0
  deriving DecidableEq, Repr

namespace Tally

/-- The counts of two sets of connections together. -/
def add (a b : Tally) : Tally :=
  { opened := a.opened + b.opened
    closed := a.closed + b.closed
    failed := a.failed + b.failed
    active := a.active + b.active
    bytesRead := a.bytesRead + b.bytesRead
    bytesWritten := a.bytesWritten + b.bytesWritten
    bytesControl := a.bytesControl + b.bytesControl }

instance : Add Tally := ⟨add⟩

/-- The counters that are kept for each protocol, by name. -/
def counters (t : Tally) : List (String × Nat) :=
  [("connections.opened", t.opened), ("connections.closed", t.closed),
    ("connections.failed", t.failed), ("bytes.read", t.bytesRead),
    ("bytes.written", t.bytesWritten), ("bytes.control", t.bytesControl)]

/-- The counts of all connections of one protocol. -/
def ofProtocol (protocol : Protocol) (tallies : List (Protocol × Tally)) : Tally :=
  (tallies.filter fun p => p.1 = protocol).foldl (fun sum p => sum + p.2) {}

/-- A counter or gauge that is not zero. -/
structure Metric where
  name : String
  /-- The protocol that is counted, or all together. -/
  protocol : Option Protocol
  value : Int
  deriving DecidableEq, Repr

/-- Everything that the tallies of some connections show. -/
def report (tallies : List (Protocol × Tally)) : List Metric :=
  let counted := Protocol.all.flatMap fun p =>
    (ofProtocol p tallies).counters.map fun c => (⟨c.1, some p, c.2⟩ : Metric)
  let active : Metric :=
    ⟨"connections.active", none, tallies.foldr (fun p total => p.2.active + total) 0⟩
  (counted ++ [active]).filter fun m => m.value ≠ 0

end Tally
end RemoteTerminal
