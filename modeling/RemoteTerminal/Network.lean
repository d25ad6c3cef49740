/-
# The network as a connection uses it

A network is whatever looks up names, connects, binds and accepts.  Nothing is
assumed about its answers: each operation gives an outcome and the network after
it.
-/

import RemoteTerminal.Transport
import RemoteTerminal.Transport.Error

namespace RemoteTerminal

/-- A peer that has connected. -/
structure Arrival where
  transport : Transport
  peer : SocketAddress
  localAddress : Option SocketAddress

/-- What a connection needs of the network. -/
class Network (N : Type) where
  /-- Look up the addresses of a host. -/
  resolve : String → N → Except Fault (List IpAddress) × N
  /-- Begin to connect, from a privileged local port if that is asked for. -/
  dial : SocketAddress → Bool → N → Except TransportError Transport × N
  /-- Ask whether a connect has succeeded, and if so for the local address. -/
  finish : Transport → N → Except TransportError (Option SocketAddress) × N
  /-- Listen on an address; the outcome is the address that was bound. -/
  listen : SocketAddress → N → Except TransportError SocketAddress × N
  /-- Take the next peer that is waiting, if there is one. -/
  accept : SocketAddress → N → Except TransportError (Option Arrival) × N
  /-- Stop listening on an address. -/
  release : SocketAddress → N → N

/-- Which port to listen on. -/
inductive PortSpec where
  /-- This one. -/
  | specific (port : UInt16)
  /-- The first free one of the configured range. -/
  | anyFree
  deriving DecidableEq, Repr

/-- The text of a choice of port. -/
def PortSpec.text : PortSpec → String
  | .specific port => toString port.toNat
  | .anyFree => "any"

/-- The local ports that an rlogin client may use. -/
def privilegedPorts : UInt16 × UInt16 := (512, 1023)

/-- Whether a port is one of them. -/
def isPrivileged (port : UInt16) : Bool :=
  privilegedPorts.1 ≤ port && port ≤ privilegedPorts.2

/-- The most ports that a search tries. -/
def maxPortAttempts : Nat := 1024

namespace Network

variable {N : Type} [Network N]

/-- Look up a host, which has to have an address. -/
def lookUp (host : String) (n : N) : Except TransportError (List IpAddress) × N :=
  match resolve host n with
  | (.error f, n) => (.error (.resolve host f), n)
  | (.ok [], n) => (.error (.noAddress host), n)
  | (.ok ips, n) => (.ok ips, n)

/-- Listen on the first of some ports that is not in use, `attempts` having been
tried before. -/
def listenFirst (ip : IpAddress) : List UInt16 → Nat → N → Except TransportError SocketAddress × N
  | [], attempts, n => (.error (.noFreePort attempts), n)
  | port :: rest, attempts, n =>
    match listen ⟨ip, port⟩ n with
    | (.error (.bind _ .addrInUse), n) => listenFirst ip rest (attempts + 1) n
    | outcome => outcome

end Network
end RemoteTerminal
