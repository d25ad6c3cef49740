/-
# A site

Several named connections on one machine that reaches nobody, beside plain
listening sockets of other programs.  Ports are shared: what one listener holds,
no other can bind.  Whoever waits for a peer here waits in vain.  The port on
which somebody listened last is remembered by name, also when nobody listens
there any more.
-/

import RemoteTerminal.Connection.Sockets
import RemoteTerminal.Network.Isolated

namespace RemoteTerminal

/-- Named connections and plain listeners on one machine. -/
structure Site where
  machine : IsolatedMachine := {}
  connections : List (String × Connection) := []
  /-- Listening sockets of other programs. -/
  plain : List (String × SocketAddress) := []
  /-- The port on which each name listened last. -/
  ports : List (String × UInt16) := []
  /-- The tallies of connections that are no more. -/
  gone : List (Protocol × Tally) := []

/-- Whom to connect to. -/
inductive Target where
  /-- A listener of the site. -/
  | listener (name : String)
  /-- A port on which nobody listens. -/
  | unused
  /-- A host whose name cannot be looked up. -/
  | badName
  deriving DecidableEq, Repr

/-- What cannot be done at a site. -/
inductive SiteError where
  /-- There is nothing of that name. -/
  | unknown (name : String)
  /-- A plain socket failed. -/
  | failed (fault : Fault)
  deriving DecidableEq, Repr

namespace Site

/-- The connection of a name. -/
def find (name : String) (s : Site) : Except SiteError Connection :=
  match s.connections.lookup name with
  | some c => .ok c
  | none => .error (.unknown name)

/-- The site with a connection under a name. -/
def put (name : String) (c : Connection) (s : Site) : Site :=
  { s with connections := (name, c) :: s.connections.filter fun p => p.1 ≠ name }

/-- Close a connection and forget it. -/
def drop (name : String) (s : Site) : Site :=
  match s.connections.lookup name with
  | none => s
  | some c =>
    let (c, machine) := c.closeOn s.machine
    { s with
      machine
      connections := s.connections.filter fun p => p.1 ≠ name
      gone := (c.protocol, c.tally) :: s.gone }

/-- Close and forget every connection. -/
def dropAll (s : Site) : Site := (s.connections.map Prod.fst).foldl (fun s name => s.drop name) s

/-- The site that remembers on which port a name listens. -/
def remember (name : String) (port : UInt16) (s : Site) : Site :=
  { s with ports := (name, port) :: s.ports.filter fun p => p.1 ≠ name }

/-- The port on which a name listened last. -/
def portOf (name : String) (s : Site) : Except SiteError UInt16 :=
  match s.ports.lookup name with
  | some port => .ok port
  | none => .error (.unknown name)

/-- The host and port that a target stands for. -/
def hostAndPort (target : Target) (s : Site) : Except SiteError (String × UInt16) :=
  match target with
  | .badName => .ok (String.ofList ['a', Char.ofNat 0, 'b'], 1)
  | .unused => .ok (IpAddress.loopback.text, 1)
  | .listener name => (s.portOf name).map fun port => (IpAddress.loopback.text, port)

/-- Make a connection, whose listening ports may be that of a listener and some
that follow it. -/
def make (name : String) (protocol : Protocol) (config : Config) (near : Option (String × Nat))
    (s : Site) : Except SiteError Site := do
  let config ← match near with
    | none => pure config
    | some (listener, extra) => do
      let low ← s.portOf listener
      let high := UInt16.ofNat (min (low.toNat + extra) 65535)
      pure { config with listenPorts := ⟨low, high⟩ }
  return (s.drop name).put name { protocol, config }

/-- Do something with a connection and the machine. -/
def act (name : String) (f : Connection → IsolatedMachine → α × Connection × IsolatedMachine)
    (s : Site) : Except SiteError (α × Site) := do
  let c ← s.find name
  let (result, c, machine) := f c s.machine
  return (result, { s with machine }.put name c)

/-- Wait for a peer on a port; the answer is the port. -/
def listen (name : String) (spec : PortSpec) (s : Site) :
    Except SiteError (Except ConnectionError UInt16 × Site) := do
  let (result, s) ← s.act name fun c m => c.listen spec m
  return (result, match result with
    | .ok port => s.remember name port
    | .error _ => s)

/-- Begin to connect. -/
def connectStart (name : String) (target : Target) (s : Site) :
    Except SiteError (Except ConnectionError SocketAddress × Site) := do
  let (host, port) ← s.hostAndPort target
  s.act name fun c m => c.connectStart host port m

/-- Connect and wait for the end of it. -/
def connect (name : String) (target : Target) (s : Site) :
    Except SiteError (Except ConnectionError Unit × Site) := do
  match ← s.connectStart name target with
  | (.error e, s) => return (.error e, s)
  | (.ok _, s) => s.act name fun c m => c.connectFinish m

/-- Wait for a peer at a connection; the wait has an end, at which it would still
block. -/
def awaitPeer (name : String) (s : Site) :
    Except SiteError (Except ConnectionError SocketAddress × Site) :=
  s.act name fun c m =>
    match c.accept m with
    | (.ok (some peer), c, m) => (.ok peer, c, m)
    | (.ok none, c, m) => (.error (.transport .wouldBlock), c, m)
    | (.error e, c, m) => (.error e, c, m)

/-- Open a plain listening socket, and close the one that had the name before. -/
def listenPlain (name : String) (s : Site) : Except SiteError Site :=
  match Network.listen ⟨.loopback, 0⟩ s.machine with
  | (.error _, _) => .error (.failed .addrInUse)
  | (.ok address, machine) =>
    let machine := match s.plain.lookup name with
      | some old => Network.release old machine
      | none => machine
    .ok ({ s with
      machine
      plain := (name, address) :: s.plain.filter fun p => p.1 ≠ name }.remember name address.port)

/-- Wait for a peer at a plain listening socket. -/
def acceptPlain (name : String) (s : Site) : Except SiteError Site :=
  match s.plain.lookup name with
  | none => .error (.unknown name)
  | some _ => .error (.failed .wouldBlock)

/-- Connect with a plain socket to a listener. -/
def connectPlain (target : String) (s : Site) : Except SiteError Site := do
  let port ← s.portOf target
  match Network.dial ⟨.loopback, port⟩ false s.machine with
  | (.error (.io f), _) => .error (.failed f)
  | _ => .error (.failed .other)

end Site
end RemoteTerminal
