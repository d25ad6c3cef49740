/-
# Runs of a connection over sockets

The calls that a connection over sockets takes, as data, and what a list of them does to
it and to the network.
-/

import RemoteTerminal.Connection.Run
import RemoteTerminal.Connection.Sockets

namespace RemoteTerminal
namespace Connection

variable {N : Type} [Network N]

/-- A call of a connection over sockets. -/
inductive SocketCall where
  | connectStart (host : String) (port : UInt16)
  | connectNext
  | connectFinish
  | listen (spec : PortSpec)
  | accept
  /-- A call that any connection takes. -/
  | call (call : Call)

/-- What a call of a connection over sockets comes to. -/
inductive SocketOutcome where
  /-- The address that is being connected to. -/
  | connecting (result : Except ConnectionError SocketAddress)
  | finished (result : Except ConnectionError Unit)
  /-- The port that is listened on. -/
  | listening (result : Except ConnectionError UInt16)
  /-- The peer that was taken, if there was one. -/
  | accepted (result : Except ConnectionError (Option SocketAddress))
  | came (outcome : Outcome ConnectionError)

/-- Make a call. -/
def performOn (call : SocketCall) (c : Connection) (n : N) : SocketOutcome × Connection × N :=
  match call with
  | .connectStart host port =>
    let (r, c, n) := c.connectStart host port n
    (.connecting r, c, n)
  | .connectNext =>
    let (r, c, n) := c.connectNext n
    (.connecting r, c, n)
  | .connectFinish =>
    let (r, c, n) := c.connectFinish n
    (.finished r, c, n)
  | .listen spec =>
    let (r, c, n) := c.listen spec n
    (.listening r, c, n)
  | .accept =>
    let (r, c, n) := c.accept n
    (.accepted r, c, n)
  | .call .close =>
    let (c, n) := c.closeOn n
    (.came .nothing, c, n)
  | .call call =>
    let (outcome, c) := c.perform call
    (.came outcome, c, n)

/-- Make calls in order. -/
def runOn : List SocketCall → Connection → N → List SocketOutcome × Connection × N
  | [], c, n => ([], c, n)
  | call :: rest, c, n =>
    let (outcome, c, n) := c.performOn call n
    let (more, c, n) := runOn rest c n
    (outcome :: more, c, n)

end Connection
end RemoteTerminal
