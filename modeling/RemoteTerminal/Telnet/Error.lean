/-
# Telnet errors

What can be wrong with a subnegotiation, and with the stream that a codec is
driven over.  A peer's mistake never ends a connection: the decoder notes it and
drops the exchange.
-/

import RemoteTerminal.Fault
import RemoteTerminal.Text.Hexadecimal

namespace RemoteTerminal
namespace Telnet

/-- What is wrong with the parameters of a subnegotiation. -/
inductive SubnegotiationFault where
  /-- Fewer bytes than the option requires. -/
  | insufficientData (required available : Nat)
  /-- More bytes than are kept. -/
  | overflow (limit : Nat)
  /-- A verb that this side does not answer. -/
  | unknownCommand (code : UInt8)
  deriving DecidableEq, Repr

namespace SubnegotiationFault

/-- The words for a fault. -/
def text : SubnegotiationFault → String
  | insufficientData required available =>
    s!"insufficient data (required: {required}, available: {available})"
  | overflow limit => s!"overflow (limit: {limit} bytes)"
  | unknownCommand code => "unknown command: 0x" ++ Hexadecimal.pair true code

instance : ToString SubnegotiationFault := ⟨text⟩

end SubnegotiationFault

/-- A telnet error. -/
inductive TelnetError where
  /-- A subnegotiation could not be handled. -/
  | subnegotiation (option : UInt8) (reason : SubnegotiationFault)
  /-- The stream failed. -/
  | io (fault : Fault)
  deriving DecidableEq, Repr

namespace TelnetError

/-- The words for an error. -/
def message : TelnetError → String
  | subnegotiation option reason =>
    s!"Subnegotiation error for option {option.toNat}: {reason}"
  | io fault => s!"I/O error: {fault}"

instance : ToString TelnetError := ⟨message⟩

/-- Whether the peer broke the protocol. -/
def isProtocolError : TelnetError → Bool
  | subnegotiation .. => true
  | io _ => false

end TelnetError
end Telnet
end RemoteTerminal
