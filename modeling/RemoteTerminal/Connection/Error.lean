/-
# What can go wrong with a connection

The errors of the connection layer, and what becomes of them for a caller who
reads and writes a connection as a plain stream (`toStream`).
-/

import RemoteTerminal.Connection.Protocol
import RemoteTerminal.Transport.Error

namespace RemoteTerminal

/-- The ways in which a connection operation fails. -/
inductive ConnectionError where
  /-- The transport failed, or would block. -/
  | transport (error : TransportError)
  /-- The host's key was rejected. -/
  | untrustedHost (host fingerprint : String)
  /-- The SSH library failed. -/
  | ssh (message : String)
  /-- An SSH connection has no session yet. -/
  | sshNotAttached
  /-- A connection is open, pending or waited for. -/
  | alreadyConnected
  /-- No connection is open. -/
  | notConnected
  /-- Nobody is listening. -/
  | notListening
  /-- The protocol has no such operation. -/
  | unsupported (protocol : Protocol) (operation : String)
  deriving DecidableEq, Repr

/-- A failure as the reader or writer of a plain stream sees it. -/
structure StreamError where
  fault : Fault
  message : String
  deriving DecidableEq, Repr

/-- A fault with the usual words for it. -/
def StreamError.ofFault (f : Fault) : StreamError := ⟨f, f.text⟩

namespace ConnectionError

/-- The words for an error. -/
def message : ConnectionError → String
  | transport error => error.message
  | untrustedHost host fingerprint => s!"Host {host} is not trusted (key {fingerprint})"
  | ssh text => s!"SSH error: {text}"
  | sshNotAttached => "No SSH session attached"
  | alreadyConnected => "Already connected"
  | notConnected => "Not connected"
  | notListening => "Not listening"
  | unsupported protocol operation => s!"{protocol} does not support {operation}"

/-- Whether calling again is all that is needed. -/
def isWouldBlock : ConnectionError → Bool
  | transport error => error.isWouldBlock
  | _ => false

/-- Whether the connection survives the error. -/
def isRecoverable (e : ConnectionError) : Bool := e.isWouldBlock

/-- The error that a bare fault amounts to. -/
def ofFault (f : Fault) : ConnectionError := .transport (.ofFault f)

/-- The error for a reader or writer of a plain stream.  A fault of the socket
shows as itself; an error that has no fault of its own keeps its words. -/
def toStream : ConnectionError → StreamError
  | transport .wouldBlock => .ofFault .wouldBlock
  | transport (.io fault) => .ofFault fault
  | notConnected => .ofFault .notConnected
  | e => ⟨.other, e.message⟩

end ConnectionError
end RemoteTerminal
