/-
# What can go wrong below a protocol

The errors of the transport layer.  `wouldBlock` is the one that passes by
itself; every other ends the connection attempt or the connection.
-/

import RemoteTerminal.Fault
import RemoteTerminal.Address

namespace RemoteTerminal

/-- The ways in which a transport operation fails. -/
inductive TransportError where
  /-- The call has to be made again once the socket is ready. -/
  | wouldBlock
  /-- The socket reported a fault. -/
  | io (fault : Fault)
  /-- A host name could not be looked up. -/
  | resolve (host : String) (source : Fault)
  /-- A host name has no address that is left to try. -/
  | noAddress (host : String)
  /-- A local address could not be bound. -/
  | bind (address : SocketAddress) (source : Fault)
  /-- No privileged local port could be bound. -/
  | noPrivilegedPort (low high : UInt16) (reason : String)
  /-- Every port of a search was taken. -/
  | noFreePort (attempts : Nat)
  /-- No connection attempt is in progress. -/
  | notPending
  /-- There is no connection. -/
  | notConnected
  /-- The connection has been closed for good. -/
  | closed
  deriving DecidableEq, Repr

namespace TransportError

/-- The words for an error. -/
def message : TransportError → String
  | wouldBlock => "Resource temporarily unavailable"
  | io fault => s!"I/O error: {fault}"
  | resolve host source => s!"Unable to resolve {host}: {source}"
  | noAddress host => s!"No address found for {host}"
  | bind address source => s!"Unable to bind {address}: {source}"
  | noPrivilegedPort low high reason =>
    s!"Unable to bind a privileged port in {low.toNat}..={high.toNat}: {reason}"
  | noFreePort attempts => s!"No free port found after {attempts} attempts"
  | notPending => "No connection attempt is pending"
  | notConnected => "Not connected"
  | closed => "Connection closed"

instance : ToString TransportError := ⟨message⟩

/-- Whether calling again is all that is needed. -/
def isWouldBlock (e : TransportError) : Bool := e = wouldBlock

/-- Whether the connection survives the error. -/
def isRecoverable (e : TransportError) : Bool := e.isWouldBlock

/-- Whether the error belongs to making a connection rather than to using one. -/
def isConnectionError : TransportError → Bool
  | resolve .. | noAddress _ | bind .. | noPrivilegedPort .. | notPending | notConnected => true
  | _ => false

/-- The error that a bare fault amounts to. -/
def ofFault (f : Fault) : TransportError := if f.isWouldBlock then wouldBlock else io f

end TransportError
end RemoteTerminal
