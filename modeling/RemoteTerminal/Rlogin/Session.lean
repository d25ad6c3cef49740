/-
# An rlogin session

Once the login frame is out both directions carry plain bytes.  The server steers
the client with urgent bytes, whose bits mean

| bit | meaning |
| --- | --- |
| `80` | report the window's size, now and whenever it changes |
| `02` | discard output that was not shown yet |
| `10` | pass flow-control characters on |
| `20` | act on flow-control characters |

and are acted on in this order; other bits are noted and ignored.  A report that
cannot be sent ends the handling of its byte.
-/

import RemoteTerminal.Progress
import RemoteTerminal.Rlogin.Login
import RemoteTerminal.Stream.Intake
import RemoteTerminal.Stream.Outbox
import RemoteTerminal.Text.Hexadecimal

namespace RemoteTerminal
namespace Rlogin

/-- Who acts on flow-control characters. -/
inductive FlowControl where
  /-- The client does. -/
  | cooked
  /-- They are passed on. -/
  | raw
  deriving DecidableEq, Repr

namespace Control

/-- Report the window's size. -/
def window : UInt8 := 0x80
/-- Discard output. -/
def discard : UInt8 := 0x02
/-- Pass flow-control characters on. -/
def raw : UInt8 := 0x10
/-- Act on flow-control characters. -/
def cooked : UInt8 := 0x20

/-- The bits of a byte that have no meaning. -/
def unknown (byte : UInt8) : UInt8 := byte &&& ~~~(window ||| discard ||| raw ||| cooked)

/-- Whether a byte carries a bit. -/
def has (byte bit : UInt8) : Bool := byte &&& bit ≠ 0

end Control

/-- The client end of an rlogin connection. -/
structure Session where
  login : Login := {}
  progress : Progress := .idle
  intake : Intake
  outbox : Outbox
  flow : FlowControl := .cooked
  /-- How often the server asked to discard output. -/
  discards : Nat := 0
  /-- How long handshake writes sit out would-blocks. -/
  timeout : Nat := retryTimeout
  line : Line := {}

namespace Session

/-- A session that has not begun. -/
def create (login : Login) (bufferSize timeout : Nat) (transport : Transport) : Session :=
  { login
    intake := .ofCapacity bufferSize
    outbox := .ofCapacity bufferSize
    timeout
    line := { transport, journal := Capacity.notes bufferSize ++ Capacity.notes bufferSize } }

/-- Add a note to the journal. -/
def note (n : Note) (s : Session) : Session := { s with line := s.line.note n }

/-- Queue bytes and send with retries. -/
def push (bytes : Bytes) (s : Session) : Except TransportError Unit × Session :=
  let (result, outbox, line) := (s.outbox.extend bytes).flushRetry s.timeout s.line
  (result.map fun _ => (), { s with outbox, line })

/-- Log in, once. -/
def start (s : Session) : Except TransportError Unit × Session :=
  if s.progress.isStarted then (.ok (), s)
  else ({ s with progress := .sentLogin }.note (.debug "Sending rlogin login")).push s.login.frame

/-- Read at most `room` bytes. -/
def read (room : Nat) (s : Session) : Except TransportError Bytes × Session :=
  match s.start with
  | (.error e, s) => (.error e, s)
  | (.ok (), s) =>
    let (result, intake, line) := s.intake.read room s.line
    (result, { s with intake, line })

/-- Report the window's size. -/
def sendWindow (s : Session) : Except TransportError Unit × Session :=
  (s.note (.debug "Sending window size")).push (windowMessage s.login.lines s.login.columns)

/-- Act on the bits of an urgent byte other than the request for the window's size. -/
def applyModes (byte : UInt8) (s : Session) : Session :=
  let s :=
    if Control.has byte Control.discard then
      { s with discards := s.discards + 1 }.note
        (.debug "Server requested discard of pending output")
    else s
  let s :=
    if Control.has byte Control.raw then
      { s with flow := .raw }.note (.debug "Server switched to raw flow control")
    else s
  let s :=
    if Control.has byte Control.cooked then
      { s with flow := .cooked }.note (.debug "Server switched to cooked flow control")
    else s
  if Control.unknown byte ≠ 0 then
    s.note (.warn ("Ignoring unknown rlogin control bits 0x" ++
      Hexadecimal.pair false (Control.unknown byte)))
  else s

/-- Act on an urgent byte. -/
def handleControl (byte : UInt8) (s : Session) : Except TransportError Unit × Session :=
  if Control.has byte Control.window then
    match ({ s with progress := .established }.note
        (.debug "Server requested window size")).sendWindow with
    | (.error e, s) => (.error e, s)
    | (.ok (), s) => (.ok (), s.applyModes byte)
  else (.ok (), s.applyModes byte)

/-- Take an urgent byte, if there is one, and act on it.  There is never payload
in it, so the answer is that reading would block, or an error. -/
def readUrgent (s : Session) : TransportError × Session :=
  let (answer, line) := s.line.urgent 1
  let s := { s with line }
  match answer with
  | .ok [byte] =>
    match s.handleControl byte with
    | (.error e, s) => (e, s)
    | (.ok (), s) => (.wouldBlock, s)
  | .ok _ => (.wouldBlock, s)
  | .error f => (if f.isWouldBlock then .wouldBlock else .io f, s)

/-- Send a caller's bytes unchanged. -/
def write (data : Bytes) (s : Session) : Except TransportError Nat × Session :=
  match s.start with
  | (.error e, s) => (.error e, s)
  | (.ok (), s) =>
    let (result, outbox, line) := s.outbox.write data s.line
    (result, { s with outbox, line })

/-- Send pending bytes without accepting new ones. -/
def flush (s : Session) : Except TransportError Flushed × Session :=
  let (result, outbox, line) := s.outbox.flush s.line
  (result, { s with outbox, line })

/-- Take note of a new window size, and report it if the server asked for that. -/
def resize (lines columns : UInt16) (s : Session) : Except TransportError Unit × Session :=
  let s := { s with login := { s.login with lines, columns } }
  if s.progress = .established then s.sendWindow else (.ok (), s)

end Session
end Rlogin
end RemoteTerminal
