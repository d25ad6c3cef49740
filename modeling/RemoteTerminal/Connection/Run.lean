/-
# Runs of a connection

The calls that a connection takes once it is there, as data, and what a list of
them does.  `Outcome.toStream` is what the reader or writer of a plain stream sees
of an outcome.
-/

import RemoteTerminal.Connection.Basic
import RemoteTerminal.Stream.Outcome

namespace RemoteTerminal

namespace Connection

/-- A call of a connection. -/
inductive Call where
  | read (room : Nat)
  | readUrgent
  | write (data : Bytes)
  | flush
  | resize (lines columns : UInt16)
  | command (command : Telnet.Command)
  | attachSsh (channel : Ssh.Channel) (trusts : String → Ssh.HostKey → Bool)
  | close

/-- Make a call. -/
def perform (call : Call) (c : Connection) : Outcome ConnectionError × Connection :=
  match call with
  | .read room =>
    let (r, c) := c.read room
    (.data r, c)
  | .readUrgent =>
    let (e, c) := c.readUrgent
    (.data (.error e), c)
  | .write data =>
    let (r, c) := c.write data
    (.count r, c)
  | .flush =>
    let (r, c) := c.flush
    (.flushed r, c)
  | .resize lines columns =>
    let (r, c) := c.resize lines columns
    (.done r, c)
  | .command command =>
    let (r, c) := c.sendCommand command
    (.done r, c)
  | .attachSsh channel trusts =>
    let (r, c) := c.attachSsh channel trusts
    (.done r, c)
  | .close => (.nothing, c.close)

/-- Make calls in order. -/
def run : List Call → Connection → List (Outcome ConnectionError) × Connection
  | [], c => ([], c)
  | call :: rest, c =>
    let (outcome, c) := c.perform call
    let (more, c) := run rest c
    (outcome :: more, c)

end Connection

/-- What the reader or writer of a plain stream sees: errors as faults, and a flush
that stalls as one that would block. -/
def Outcome.toStream : Outcome ConnectionError → Outcome StreamError
  | .flushed (.ok .complete) => .done (.ok ())
  | .flushed (.ok .stalled) => .done (.error (.ofFault .wouldBlock))
  | .flushed (.error e) => .done (.error e.toStream)
  | outcome => outcome.mapError ConnectionError.toStream

end RemoteTerminal
