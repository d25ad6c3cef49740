/-
# The engine of a connection

The session of whichever protocol a connection speaks, with the operations that
all protocols have.  An SSH engine owns the socket but does nothing with it: the
library's channel carries the bytes, once one is attached.
-/

import RemoteTerminal.Connection.Config
import RemoteTerminal.Connection.Error
import RemoteTerminal.Raw.Session
import RemoteTerminal.Rlogin.Session
import RemoteTerminal.Ssh.Adapter
import RemoteTerminal.Telnet.Session

namespace RemoteTerminal

/-- The session of a connection. -/
inductive Engine where
  | telnet (session : Telnet.Session)
  | rlogin (session : Rlogin.Session)
  | raw (session : Raw.Session)
  | ssh (line : Line) (adapter : Option Ssh.Adapter)

namespace Engine

/-- The engine for a protocol over a transport; a server end of rlogin does not
exist. -/
def create? (protocol : Protocol) (config : Config) (role : Telnet.Role)
    (transport : Transport) : Option Engine :=
  match protocol, role with
  | .telnet, _ =>
    some (.telnet (.create { role, terminal := config.terminal } config.bufferSize
      config.retryTimeout transport))
  | .rlogin, .server => none
  | .rlogin, .client =>
    some (.rlogin (.create config.login config.bufferSize config.retryTimeout transport))
  | .raw, _ => some (.raw (.create config.bufferSize transport))
  | .ssh, _ => some (.ssh { transport } none)

/-- The line that the engine runs on. -/
def line : Engine → Line
  | telnet s => s.line
  | rlogin s => s.line
  | raw s => s.line
  | ssh l _ => l

/-- The engine on another line. -/
def withLine (l : Line) : Engine → Engine
  | telnet s => telnet { s with line := l }
  | rlogin s => rlogin { s with line := l }
  | raw s => raw { s with line := l }
  | ssh _ a => ssh l a

/-- The notes that the engine made, which leaves it without any. -/
def takeNotes (e : Engine) : List Note × Engine :=
  (e.line.journal, e.withLine { e.line with journal := [] })

/-- How far the handshake has come. -/
def progress : Engine → Progress
  | telnet s => s.progress
  | rlogin s => s.progress
  | raw _ => .established
  | ssh _ (some _) => .established
  | ssh _ none => .idle

/-- How many bytes of the stream were protocol. -/
def controlBytes : Engine → Nat
  | telnet s => s.controlBytes
  | _ => 0

/-- Begin the handshake. -/
def start : Engine → Except TransportError Unit × Engine
  | telnet s =>
    let (result, s) := s.start
    (result, telnet s)
  | rlogin s =>
    let (result, s) := s.start
    (result, rlogin s)
  | e => (.ok (), e)

/-- Read at most `room` bytes of payload. -/
def read (room : Nat) (e : Engine) (r : Ssh.Record) :
    Except ConnectionError Bytes × Engine × Ssh.Record :=
  match e with
  | telnet s =>
    let (result, s) := s.read room
    (result.mapError .transport, telnet s, r)
  | rlogin s =>
    let (result, s) := s.read room
    (result.mapError .transport, rlogin s, r)
  | raw s =>
    let (result, s) := s.read room
    (result.mapError .transport, raw s, r)
  | ssh _ none => (.error .sshNotAttached, e, r)
  | ssh l (some a) =>
    let (result, a, r) := a.read room r
    (result, ssh l (some a), r)

/-- Act on urgent data, which only rlogin has.  The answer is never payload. -/
def readUrgent : Engine → TransportError × Engine
  | rlogin s =>
    let (e, s) := s.readUrgent
    (e, rlogin s)
  | e => (.wouldBlock, e)

/-- Send a caller's bytes; the answer says how many of them were accepted. -/
def write (data : Bytes) (e : Engine) (r : Ssh.Record) :
    Except ConnectionError Nat × Engine × Ssh.Record :=
  match e with
  | telnet s =>
    let (result, s) := s.write data
    (result.mapError .transport, telnet s, r)
  | rlogin s =>
    let (result, s) := s.write data
    (result.mapError .transport, rlogin s, r)
  | raw s =>
    let (result, s) := s.write data
    (result.mapError .transport, raw s, r)
  | ssh _ none => (.error .sshNotAttached, e, r)
  | ssh l (some a) =>
    let (result, a, r) := a.write data r
    (result, ssh l (some a), r)

/-- Send pending bytes without accepting new ones. -/
def flush : Engine → Except TransportError Flushed × Engine
  | telnet s =>
    let (result, s) := s.flush
    (result, telnet s)
  | rlogin s =>
    let (result, s) := s.flush
    (result, rlogin s)
  | raw s =>
    let (result, s) := s.flush
    (result, raw s)
  | ssh l a => (.ok .complete, ssh l a)

/-- Pass a new window size on, to whom it may concern. -/
def resize (lines columns : UInt16) (e : Engine) (r : Ssh.Record) :
    Except ConnectionError Unit × Engine × Ssh.Record :=
  match e with
  | telnet s =>
    let (result, s) := s.resize ⟨columns, lines⟩
    (result.mapError .transport, telnet s, r)
  | rlogin s =>
    let (result, s) := s.resize lines columns
    (result.mapError .transport, rlogin s, r)
  | raw s => (.ok (), raw s, r)
  | ssh l none => (.ok (), ssh l none, r)
  | ssh l (some a) =>
    let (result, a, r) := a.resize lines columns r
    (result, ssh l (some a), r)

/-- End the engine: close the channel, if there is one, and shut the transport
down. -/
def shutdown (e : Engine) (r : Ssh.Record) : Transport × Ssh.Record :=
  match e with
  | ssh l (some a) => (l.transport.shutdown, (a.close r).2)
  | e => (e.line.transport.shutdown, r)

end Engine
end RemoteTerminal
