/-
# Telnet code points

The bytes that have a meaning of their own on a telnet wire: the commands after
`IAC`, the option numbers, the verbs of a subnegotiation and the type codes of an
environment report.
-/

namespace RemoteTerminal
namespace Telnet
namespace Code

/-- End of subnegotiation. -/
def se : UInt8 := 240
/-- Beginning of subnegotiation. -/
def sb : UInt8 := 250
/-- Interpret as command. -/
def iac : UInt8 := 255

/-- Carriage return. -/
def cr : UInt8 := 13
/-- Line feed. -/
def lf : UInt8 := 10
/-- The filler after a bare carriage return. -/
def nul : UInt8 := 0

/-- A value is being reported. -/
def «is» : UInt8 := 0
/-- A value is being asked for. -/
def send : UInt8 := 1

/-- The name of a well-known variable follows. -/
def var : UInt8 := 0
/-- The value of a variable follows. -/
def value : UInt8 := 1
/-- The next byte is meant literally. -/
def esc : UInt8 := 2
/-- The name of a user's variable follows. -/
def userVar : UInt8 := 3

end Code

/-- The most bytes of a subnegotiation that are kept, its option byte included. -/
def subnegotiationLimit : Nat := 128

/-- The line speed that is reported, for both directions. -/
def terminalSpeed : String := "38400"

/-- How long a handshake write sits out would-blocks, in milliseconds. -/
def retryTimeout : Nat := 5000

end Telnet
end RemoteTerminal
