/-
# A connection

A connection to a remote terminal, whatever the protocol.  It owns the engine, if
it is established; the socket, if one is pending; or a listening address.  Reading
and writing follow one rule for all protocols: a call that cannot make progress
would block, and the end of the stream is a read of nothing, after the close
notice was handed out once.

The transport of an ended connection is kept as it was left (`released`), and all
that was noted and asked of an SSH library is in `record`.
-/

import RemoteTerminal.Connection.Engine
import RemoteTerminal.Connection.Tally

namespace RemoteTerminal

/-- A connection. -/
structure Connection where
  protocol : Protocol
  config : Config := {}
  /-- The host that was last asked for. -/
  host : String := ""
  /-- Addresses of the host that were not tried yet. -/
  candidates : List SocketAddress := []
  /-- A socket whose connect is in progress. -/
  pending : Option Transport := none
  /-- The session of an established connection. -/
  engine : Option Engine := none
  /-- The address on which a peer is waited for. -/
  listener : Option SocketAddress := none
  peer : Option SocketAddress := none
  localAddress : Option SocketAddress := none
  tally : Tally := {}
  record : Ssh.Record := {}
  /-- The transport of the connection that ended last. -/
  released : Option Transport := none

namespace Connection

/-- Add a note to the journal. -/
def note (n : Note) (c : Connection) : Connection := { c with record := c.record.note n }

/-- The error for an operation that the protocol does not have. -/
def unsupported (operation : String) (c : Connection) : ConnectionError :=
  .unsupported c.protocol operation

/-- The connection with its engine after a call; the engine's notes go to the
connection's journal. -/
def settle (engine : Engine) (c : Connection) : Connection :=
  let (notes, engine) := engine.takeNotes
  { c with engine := some engine, record := c.record.log notes }

/-- The connection whose engine did not come up. -/
def abandon (engine : Engine) (c : Connection) : Connection :=
  { c with
    released := some engine.line.transport
    record := c.record.log engine.line.journal }

/-- Whether a connection is established. -/
def isConnected (c : Connection) : Bool := c.engine.isSome

/-- Whether a connect is in progress. -/
def isPending (c : Connection) : Bool := c.pending.isSome

/-- Whether a peer is waited for. -/
def isListening (c : Connection) : Bool := c.listener.isSome

/-- How far the handshake has come. -/
def progress (c : Connection) : Progress :=
  match c.engine with
  | some engine => engine.progress
  | none => .idle

/-- The transport in use, or else the one that was in use last. -/
def transport? (c : Connection) : Option Transport :=
  match c.engine with
  | some engine => some engine.line.transport
  | none => c.released

/-- Apply a change to the transport in use, or else to the one that was in use last. -/
def mapTransport (f : Transport → Transport) (c : Connection) : Connection :=
  match c.engine with
  | some engine =>
    { c with
      engine := some (engine.withLine { engine.line with transport := f engine.line.transport }) }
  | none => { c with released := c.released.map f }

/-- Whether there is a socket that can be waited for. -/
def hasSocket (c : Connection) : Bool := c.isConnected || c.isPending || c.isListening

/-- Run the protocol over a connected transport, from its handshake on. -/
def establish (transport : Transport) (role : Telnet.Role) (c : Connection) :
    Except ConnectionError Unit × Connection :=
  match Engine.create? c.protocol c.config role transport with
  | none =>
    (.error (c.unsupported "the server role"), { c with released := some transport })
  | some engine =>
    match engine.start with
    | (.error e, engine) => (.error (.transport e), c.abandon engine)
    | (.ok (), engine) =>
      let c := c.settle engine
      let tally := { c.tally with opened := c.tally.opened + 1, active := c.tally.active + 1 }
      (.ok (), { c with tally }.note (.info "Connection established"))

/-- Read at most `room` bytes of payload. -/
def read (room : Nat) (c : Connection) : Except ConnectionError Bytes × Connection :=
  match c.engine with
  | none => (.error .notConnected, c)
  | some engine =>
    let (result, after, record) := engine.read room c.record
    let c := { c with record }.settle after
    let control := after.controlBytes - engine.controlBytes
    let count := match result with
      | .ok data => data.length
      | .error _ => 0
    let tally :=
      { c.tally with
        bytesControl := c.tally.bytesControl + control
        bytesRead := c.tally.bytesRead + count }
    (result, { c with tally })

/-- Act on urgent data; the answer is never payload. -/
def readUrgent (c : Connection) : ConnectionError × Connection :=
  match c.engine with
  | none => (.notConnected, c)
  | some engine =>
    let (e, engine) := engine.readUrgent
    (.transport e, c.settle engine)

/-- Send a caller's bytes; the answer says how many of them were accepted. -/
def write (data : Bytes) (c : Connection) : Except ConnectionError Nat × Connection :=
  match c.engine with
  | none => (.error .notConnected, c)
  | some engine =>
    let (result, engine, record) := engine.write data c.record
    let c := { c with record }.settle engine
    let count := match result with
      | .ok count => count
      | .error _ => 0
    (result, { c with tally := { c.tally with bytesWritten := c.tally.bytesWritten + count } })

/-- Send pending bytes without accepting new ones. -/
def flush (c : Connection) : Except ConnectionError Flushed × Connection :=
  match c.engine with
  | none => (.error .notConnected, c)
  | some engine =>
    let (result, engine) := engine.flush
    (result.mapError .transport, c.settle engine)

/-- Take note of new dimensions and pass them on.  They are remembered for the next
login even when nothing is connected. -/
def resize (lines columns : UInt16) (c : Connection) : Except ConnectionError Unit × Connection :=
  let c := { c with config := { c.config with lines, columns } }.note (.debug "Resize")
  match c.engine with
  | none => (.ok (), c)
  | some engine =>
    let (result, engine, record) := engine.resize lines columns c.record
    (result, { c with record }.settle engine)

/-- Send a telnet command. -/
def sendCommand (command : Telnet.Command) (c : Connection) :
    Except ConnectionError Unit × Connection :=
  match c.engine with
  | none => (.error .notConnected, c)
  | some (.telnet s) =>
    let (result, s) := s.sendCommand command
    (result.mapError .transport, c.settle (.telnet s))
  | some _ => (.error (c.unsupported "telnet commands"), c)

/-- Give up a listening address. -/
def stopListening (c : Connection) : Connection :=
  if c.isListening then { c with listener := none }.note (.debug "Listener closed") else c

/-- Give up a connect that is in progress. -/
def stopPending (c : Connection) : Connection :=
  if c.isPending then { c with pending := none }.note (.debug "Pending connect abandoned") else c

/-- End an established connection. -/
def disconnect (c : Connection) : Connection :=
  match c.engine with
  | none => c
  | some engine =>
    let (transport, record) := engine.shutdown c.record
    let tally := { c.tally with closed := c.tally.closed + 1, active := c.tally.active - 1 }
    { c with engine := none, record, tally, released := some transport }.note
      (.info "Connection closed")

/-- Close the connection, a pending connect and a listening address.  Closing an
idle connection does nothing. -/
def close (c : Connection) : Connection :=
  { { c.stopListening.stopPending with candidates := [] }.disconnect with
    peer := none
    localAddress := none }

/-- The name by which the peer's host key is judged: the host that was asked for,
or else the peer's address. -/
def hostName (c : Connection) : String :=
  if c.host ≠ "" then c.host
  else match c.peer with
    | some peer => peer.ip.text
    | none => ""

/-- Hand the connection a channel of an SSH library that runs over its socket.  The
host key is judged first; if it is rejected the connection is closed. -/
def attachSsh (channel : Ssh.Channel) (trusts : String → Ssh.HostKey → Bool) (c : Connection) :
    Except ConnectionError Unit × Connection :=
  match c.engine with
  | none => (.error .notConnected, c)
  | some (.ssh _ (some _)) => (.error .alreadyConnected, c)
  | some (.ssh line none) =>
    match Ssh.Adapter.attach channel c.hostName trusts c.record with
    | (.ok adapter, record) => (.ok (), { c with engine := some (.ssh line adapter), record })
    | (.error e, record) => (.error e, { c with record }.close)
  | some _ => (.error (c.unsupported "ssh sessions"), c)

/-- A connection that runs a protocol over a connected transport. -/
def ofTransport (transport : Transport) (protocol : Protocol) (config : Config)
    (role : Telnet.Role) : Except ConnectionError Unit × Connection :=
  ({ protocol, config } : Connection).establish transport role

end Connection
end RemoteTerminal
