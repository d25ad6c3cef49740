/-
# Connections over sockets

How a connection comes about: by connecting to the addresses of a host one after
the other, in two steps each, or by listening and accepting one peer.  Rlogin
connects from a privileged port; rlogin and SSH do not listen.
-/

import RemoteTerminal.Connection.Basic
import RemoteTerminal.Network

namespace RemoteTerminal
namespace Connection

variable {N : Type} [Network N]

/-- Whether the connection is neither established nor on the way to be. -/
def isIdle (c : Connection) : Bool := !c.hasSocket

/-- Begin to connect to the first of some addresses for which that is possible.
`last` is why the one before failed.  Without a privileged port no other address
is tried. -/
def dialFirst : List SocketAddress → Option TransportError → Connection → N →
    Except ConnectionError SocketAddress × Connection × N
  | [], last, c, n =>
    (.error (.transport (last.getD (.noAddress c.host))), { c with candidates := [] }, n)
  | address :: rest, _, c, n =>
    match Network.dial address (c.protocol = .rlogin) n with
    | (.ok socket, n) =>
      (.ok address,
        { c with candidates := rest, peer := some address, pending := some socket }.note
          (.debug "Connect started"), n)
    | (.error (.noPrivilegedPort low high reason), n) =>
      (.error (.transport (.noPrivilegedPort low high reason)), { c with candidates := [] }, n)
    | (.error e, n) =>
      dialFirst rest (some e) (c.note (.warn s!"Connect failed: {e}")) n

/-- Look a host up and begin to connect to its first address. -/
def connectStart (host : String) (port : UInt16) (c : Connection) (n : N) :
    Except ConnectionError SocketAddress × Connection × N :=
  if c.isIdle then
    match Network.lookUp host n with
    | (.error e, n) => (.error (.transport e), c, n)
    | (.ok ips, n) =>
      let c := (c.note (.debug "Resolved host")).note (.debug "Resolved addresses")
      dialFirst (ips.map fun ip => ⟨ip, port⟩) none { c with host } n
  else (.error .alreadyConnected, c, n)

/-- Begin to connect to the next address of the host. -/
def connectNext (c : Connection) (n : N) :
    Except ConnectionError SocketAddress × Connection × N :=
  if c.isIdle then dialFirst c.candidates none c n else (.error .alreadyConnected, c, n)

/-- Finish a connect that is in progress, and begin the handshake. -/
def connectFinish (c : Connection) (n : N) : Except ConnectionError Unit × Connection × N :=
  match c.pending with
  | none => (.error (.transport .notPending), c, n)
  | some socket =>
    match Network.finish socket n with
    | (.ok localAddress, n) =>
      let c := { c with pending := none, localAddress }.note (.debug "Connect complete")
      let (result, c) := c.establish socket .client
      (result, c, n)
    | (.error .wouldBlock, n) => (.error (.transport .wouldBlock), c, n)
    | (.error e, n) =>
      let tally := { c.tally with failed := c.tally.failed + 1 }
      (.error (.transport e),
        { c with pending := none, peer := none, tally }.note
          (.warn s!"Connect failed: {e}"), n)

/-- The ports that a choice stands for, in the order in which they are tried. -/
def listenOn (spec : PortSpec) (c : Connection) (n : N) :
    Except TransportError SocketAddress × N :=
  match spec with
  | .specific port => Network.listen ⟨.unspecified, port⟩ n
  | .anyFree =>
    if c.config.listenPorts.isEmpty then Network.listen ⟨.unspecified, 0⟩ n
    else
      Network.listenFirst .unspecified (c.config.listenPorts.ports.take maxPortAttempts) 0 n

/-- Wait for a peer on a port; the answer is the port. -/
def listen (spec : PortSpec) (c : Connection) (n : N) :
    Except ConnectionError UInt16 × Connection × N :=
  if c.protocol = .rlogin ∨ c.protocol = .ssh then (.error (c.unsupported "listen"), c, n)
  else if c.isIdle then
    match c.listenOn spec n with
    | (.error e, n) => (.error (.transport e), c, n)
    | (.ok address, n) =>
      let c := (c.note (.debug "Listening")).note (.info "Listening")
      (.ok address.port,
        { c with localAddress := some address, listener := some address }, n)
  else (.error .alreadyConnected, c, n)

/-- Take the peer that is waiting, if there is one, stop listening, and run the
server's side of the protocol. -/
def accept (c : Connection) (n : N) :
    Except ConnectionError (Option SocketAddress) × Connection × N :=
  match c.listener with
  | none => (.error .notListening, c, n)
  | some address =>
    match Network.accept address n with
    | (.error e, n) => (.error (.transport e), c, n)
    | (.ok none, n) => (.ok none, c, n)
    | (.ok (some arrival), n) =>
      let c := c.note (.debug "Accepted connection")
      let c :=
        { c with
          listener := none
          peer := some arrival.peer
          localAddress := arrival.localAddress }
      let (result, c) := c.establish arrival.transport .server
      (result.map fun _ => some arrival.peer, c, Network.release address n)

/-- Close the connection and give back the address it listened on. -/
def closeOn (c : Connection) (n : N) : Connection × N :=
  (c.close, match c.listener with
    | some address => Network.release address n
    | none => n)

/-- A second handle on the socket in use, for a library that drives it by itself. -/
def cloneSocket (c : Connection) : Except ConnectionError Transport :=
  match c.engine with
  | some engine => .ok engine.line.transport
  | none => .error .notConnected

end Connection
end RemoteTerminal
