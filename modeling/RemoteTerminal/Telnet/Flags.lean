/-
# The terminal's flags

Which options are in effect on a connection.  A fresh connection is a plain
seven-bit terminal with go-ahead and with every option off; only negotiation
changes a flag.
-/

import RemoteTerminal.Telnet.Negotiation

namespace RemoteTerminal
namespace Telnet

/-- What is in effect on a connection. -/
structure Flags where
  echoMode : Bool := false
  binaryMode : Bool := false
  goAhead : Bool := true
  windowSize : Bool := false
  terminalType : Bool := false
  terminalSpeed : Bool := false
  environment : Bool := false
  deriving DecidableEq, Repr

namespace Flags

/-- Whether an option is in effect; go-ahead is the absence of its option. -/
def isOn (f : Flags) : TelnetOption → Bool
  | .binary => f.binaryMode
  | .echo => f.echoMode
  | .suppressGoAhead => !f.goAhead
  | .terminalType => f.terminalType
  | .windowSize => f.windowSize
  | .terminalSpeed => f.terminalSpeed
  | .environment => f.environment
  | .unknown _ => false

/-- The flags with an option switched on or off. -/
def set (f : Flags) (option : TelnetOption) (on : Bool) : Flags :=
  match option with
  | .binary => { f with binaryMode := on }
  | .echo => { f with echoMode := on }
  | .suppressGoAhead => { f with goAhead := !on }
  | .terminalType => { f with terminalType := on }
  | .windowSize => { f with windowSize := on }
  | .terminalSpeed => { f with terminalSpeed := on }
  | .environment => { f with environment := on }
  | .unknown _ => f

/-- A supported option is as it was last set. -/
theorem isOn_set_self (f : Flags) (o : TelnetOption) (on : Bool) (h : o.isSupported) :
    (f.set o on).isOn o = on := by
  cases o <;> simp_all [set, isOn, TelnetOption.isSupported, TelnetOption.performer]

/-- Setting one option leaves every other as it was. -/
theorem isOn_set_of_ne (f : Flags) {o o' : TelnetOption} (on : Bool) (h : o' ≠ o) :
    (f.set o on).isOn o' = f.isOn o' := by
  cases o <;> cases o' <;> simp_all [set, isOn]

end Flags
end Telnet
end RemoteTerminal
