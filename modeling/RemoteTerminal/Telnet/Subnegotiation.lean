/-
# Subnegotiations

The frame `IAC SB option … IAC SE` and the contents that this library sends and
reads in it:

| option | sent by a client | sent by a server |
| --- | --- | --- |
| window size | columns and rows | |
| terminal type | `IS` and the type | `SEND` |
| terminal speed | `IS` and both speeds | |
| environment | `IS` and two user variables, `TERM` and `LANG` | |

Inside a frame every `IAC` is doubled; the option byte is written as it is.
Inside an environment report the four type codes are escaped in values, so that a
value cannot begin another variable.
-/

import RemoteTerminal.Text.Lossy
import RemoteTerminal.Telnet.Code
import RemoteTerminal.Telnet.Terminal

namespace RemoteTerminal
namespace Telnet

/-- Bytes with every `IAC` doubled. -/
def doubleIac (data : Bytes) : Bytes :=
  data.flatMap fun b => if b = Code.iac then [b, b] else [b]

/-- The frame of a subnegotiation. -/
def frame (option : UInt8) (payload : Bytes) : Bytes :=
  [Code.iac, Code.sb, option] ++ doubleIac payload ++ [Code.iac, Code.se]

/-- The report of a window size. -/
def reportWindow (w : WindowSize) : Bytes := frame TelnetOption.windowSize.toByte w.toBytes

/-- The report of a terminal type. -/
def reportTerminalType (name : String) : Bytes :=
  frame TelnetOption.terminalType.toByte (Code.is :: utf8 name)

/-- The request for a terminal type. -/
def askTerminalType : Bytes := frame TelnetOption.terminalType.toByte [Code.send]

/-- The report of the line speed, for both directions. -/
def reportSpeed : Bytes :=
  frame TelnetOption.terminalSpeed.toByte
    (Code.is :: ascii (terminalSpeed ++ "," ++ terminalSpeed))

/-- A value in which no byte is taken for a type code. -/
def escapeValue (value : Bytes) : Bytes :=
  value.flatMap fun b =>
    if b = Code.var ∨ b = Code.value ∨ b = Code.esc ∨ b = Code.userVar then [Code.esc, b] else [b]

/-- A user's variable and its value. -/
def userVariable (name value : Bytes) : Bytes :=
  [Code.userVar] ++ name ++ [Code.value] ++ escapeValue value

/-- The content of an environment report. -/
def environmentContent (t : Terminal) : Bytes :=
  [Code.is] ++ userVariable (ascii "TERM") (utf8 t.terminalType) ++
    userVariable (ascii "LANG") (utf8 t.lang)

/-- The report of the environment. -/
def reportEnvironment (t : Terminal) : Bytes :=
  frame TelnetOption.environment.toByte (environmentContent t)

/-- Check that the parameters of an option begin with a given verb, and give what
follows it. -/
def afterVerb (option verb : UInt8) : Bytes → Except TelnetError Bytes
  | [] => .error (.subnegotiation option (.insufficientData 1 0))
  | b :: rest =>
    if b = verb then .ok rest else .error (.subnegotiation option (.unknownCommand b))

/-- The terminal type in a client's report. -/
def readTerminalType (data : Bytes) : Except TelnetError String :=
  (afterVerb TelnetOption.terminalType.toByte Code.is data).map lossyText

@[simp] theorem doubleIac_append (a b : Bytes) : doubleIac (a ++ b) = doubleIac a ++ doubleIac b := by
  simp [doubleIac]

end Telnet
end RemoteTerminal
