/-
# The configuration of a connection

What a connection reports about its user and terminal, the size of its buffers,
the ports it may listen on and its patience.
-/

import RemoteTerminal.Rlogin.Login
import RemoteTerminal.Stream.Capacity
import RemoteTerminal.Telnet.Terminal

namespace RemoteTerminal

/-- The ports from `low` to `high`, both included; none if `high < low`. -/
structure PortRange where
  low : UInt16
  high : UInt16
  deriving DecidableEq, Repr

namespace PortRange

/-- Whether there is no port in the range. -/
def isEmpty (r : PortRange) : Bool := r.high < r.low

/-- Whether a port is in the range. -/
def contains (r : PortRange) (port : UInt16) : Bool := r.low ≤ port ∧ port ≤ r.high

/-- The ports of the range in ascending order. -/
def ports (r : PortRange) : List UInt16 :=
  (List.range (r.high.toNat + 1 - r.low.toNat)).map fun k => UInt16.ofNat (r.low.toNat + k)

end PortRange

/-- The ports that are searched for a free one, unless others are given. -/
def defaultListenPorts : PortRange := ⟨5500, 5599⟩

/-- The configuration of a connection. -/
structure Config where
  terminalType : String := "xterm"
  lang : String := "en_US"
  localUser : String := "guest"
  remoteUser : Option String := none
  lines : UInt16 := 24
  columns : UInt16 := 80
  bufferSize : Nat := Capacity.default
  listenPorts : PortRange := defaultListenPorts
  /-- How long handshake writes sit out would-blocks, in milliseconds. -/
  retryTimeout : Nat := 5000
  deriving DecidableEq, Repr

namespace Config

/-- The value of a variable, if it is set, not empty, and text. -/
def setting (environment : List (String × Bytes)) (name : String) : Option String := do
  let bytes ← environment.lookup name
  let text ← String.fromUTF8? (ByteArray.mk bytes.toArray)
  if text = "" then none else some text

/-- The configuration that the variables `TERM`, `LANG` and `USER` (or `LOGNAME`)
call for. -/
def ofEnvironment (environment : List (String × Bytes)) : Config :=
  let value := setting environment
  { terminalType := (value "TERM").getD "xterm"
    lang := (value "LANG").getD "en_US"
    localUser := (value "USER" <|> value "LOGNAME").getD "guest" }

/-- The configuration with buffers of a given size, or of the least size there is. -/
def withBufferSize (size : Nat) (c : Config) : Config :=
  { c with bufferSize := Capacity.granted size }

/-- The terminal that telnet describes to the peer. -/
def terminal (c : Config) : Telnet.Terminal :=
  { terminalType := c.terminalType, lang := c.lang, window := ⟨c.columns, c.lines⟩ }

/-- The login that rlogin sends. -/
def login (c : Config) : Rlogin.Login :=
  { localUser := c.localUser
    remoteUser := c.remoteUser
    terminalType := c.terminalType
    lines := c.lines
    columns := c.columns }

end Config
end RemoteTerminal
