/-
# A machine without a route

A machine that can bind its own ports and reach nobody: every connect fails with
an unreachable network, and nobody ever arrives at a listener.  The ports below
1024 are not for its programs, so an rlogin client does not even get that far.
Numeric addresses are the only hosts that it knows.
-/

import RemoteTerminal.Address.Numeric
import RemoteTerminal.Network

namespace RemoteTerminal

/-- A machine without a route, by the ports that are in use on it. -/
structure IsolatedMachine where
  bound : List UInt16 := []
  deriving Repr

namespace IsolatedMachine

/-- The ports that are handed out when none is named.  They lie far apart, so that
the neighbours of one are free. -/
def ephemeral : List UInt16 := (List.range 64).map fun k => UInt16.ofNat (32768 + 256 * k)

/-- The port that is handed out next. -/
def nextEphemeral (m : IsolatedMachine) : Option UInt16 :=
  ephemeral.find? fun port => !m.bound.contains port

/-- The first port that a program may bind. -/
def firstOpenPort : UInt16 := 1024

/-- Bind a port, or any port for zero. -/
def bind (address : SocketAddress) (m : IsolatedMachine) :
    Except TransportError SocketAddress × IsolatedMachine :=
  let port := if address.port = 0 then m.nextEphemeral else some address.port
  match port with
  | none => (.error (.bind address .addrInUse), m)
  | some port =>
    if port < firstOpenPort then (.error (.bind address .permissionDenied), m)
    else if m.bound.contains port then (.error (.bind address .addrInUse), m)
    else (.ok ⟨address.ip, port⟩, { m with bound := port :: m.bound })

instance : Network IsolatedMachine where
  resolve host m :=
    match IpAddress.ofHost? host with
    | some ip => (.ok [ip], m)
    | none => (.error (if host.contains (Char.ofNat 0) then .invalidInput else .other), m)
  dial _ privileged m :=
    (.error (if privileged then
        .noPrivilegedPort privilegedPorts.1 privilegedPorts.2 Fault.permissionDenied.text
      else .io .networkUnreachable), m)
  finish _ m := (.error (.io .notConnected), m)
  listen := bind
  accept _ m := (.ok none, m)
  release address m := { m with bound := m.bound.erase address.port }

end IsolatedMachine
end RemoteTerminal
