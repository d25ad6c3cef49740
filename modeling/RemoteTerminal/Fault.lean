/-
# Faults of the operating system

A fault is the kind of failure that a socket call reports.  Two kinds are
passing conditions, `wouldBlock` and `interrupted`; all others are hard.
-/

namespace RemoteTerminal

/-- The kind of a failed socket call. -/
inductive Fault where
  | wouldBlock
  | interrupted
  | connectionReset
  | connectionAborted
  | connectionRefused
  | networkUnreachable
  | brokenPipe
  | notConnected
  | timedOut
  | unexpectedEof
  | permissionDenied
  | writeZero
  | addrInUse
  | invalidInput
  | other
  deriving DecidableEq, Repr

namespace Fault

/-- All faults, in the order in which they are declared. -/
def all : List Fault :=
  [wouldBlock, interrupted, connectionReset, connectionAborted, connectionRefused,
    networkUnreachable, brokenPipe, notConnected, timedOut, unexpectedEof, permissionDenied,
    writeZero, addrInUse, invalidInput, other]

/-- The words for a fault. -/
def text : Fault → String
  | wouldBlock => "operation would block"
  | interrupted => "operation interrupted"
  | connectionReset => "connection reset"
  | connectionAborted => "connection aborted"
  | connectionRefused => "connection refused"
  | networkUnreachable => "network unreachable"
  | brokenPipe => "broken pipe"
  | notConnected => "not connected"
  | timedOut => "timed out"
  | unexpectedEof => "unexpected end of file"
  | permissionDenied => "permission denied"
  | writeZero => "write zero"
  | addrInUse => "address in use"
  | invalidInput => "invalid input parameter"
  | other => "other error"

instance : ToString Fault := ⟨text⟩

/-- Whether the call only has to be made again once the socket is ready. -/
def isWouldBlock (f : Fault) : Bool := f = wouldBlock

/-- Whether the call was cut short and may be made again at once. -/
def isInterrupted (f : Fault) : Bool := f = interrupted

/-- The fault that a Linux error number stands for. -/
def ofErrno : Int → Fault
  | 1 | 13 => permissionDenied
  | 4 => interrupted
  | 11 => wouldBlock
  | 22 => invalidInput
  | 32 => brokenPipe
  | 98 => addrInUse
  | 101 => networkUnreachable
  | 103 => connectionAborted
  | 104 => connectionReset
  | 107 => notConnected
  | 110 => timedOut
  | 111 => connectionRefused
  | _ => other

end Fault
end RemoteTerminal
