/-
# The response table

How a side answers each verb about each option.

| performer | role | `WILL` | `DO` | `WONT` | `DONT` |
| --- | --- | --- | --- | --- | --- |
| either | both | on, `DO` | on, `WILL` | off, `DONT` | off, `WONT` |
| server | client | on, `DO` | refuse `WONT` | off, `DONT` | off, `WONT` |
| server | server | refuse `DONT` | on, `WILL` | off, `DONT` | off, `WONT` |
| client | client | on, `WILL` | on, `WILL` | off, `WONT` | off, `WONT` |
| client | server | on, `DO` | refuse `WONT` | off, `DONT` | off, `WONT` |
| nobody | both | refuse `DONT` | refuse `WONT` | nothing | nothing |

A refusal goes out every time it is called for; any other answer goes out only if
it is not what this side last said about that option.  When the option comes on,
a client reports its window size at once and a server asks for the terminal type.
-/

import RemoteTerminal.Telnet.Negotiation

namespace RemoteTerminal
namespace Telnet

/-- What is said beyond the verb when an option comes on. -/
inductive FollowUp where
  | nothing
  /-- Report the window's size. -/
  | reportWindow
  /-- Ask the peer for its terminal type. -/
  | askTerminalType
  deriving DecidableEq, Repr

/-- The answer to one verb. -/
inductive Response where
  /-- Say nothing and change nothing. -/
  | ignore
  /-- Refuse with a verb, however often it was said before. -/
  | refuse (verb : Verb)
  /-- Switch the option, and say the verb unless it was the last thing said. -/
  | agree (on : Bool) (verb : Verb) (followUp : FollowUp)
  deriving DecidableEq, Repr

/-- The response of a side to a verb about an option. -/
def respond (role : Role) (option : TelnetOption) (verb : Verb) : Response :=
  match option.performer, role, verb with
  | .nobody, _, .do => .refuse .wont
  | .nobody, _, .will => .refuse .dont
  | .nobody, _, .wont => .ignore
  | .nobody, _, .dont => .ignore
  | .either, _, .will => .agree true .do .nothing
  | .either, _, .do => .agree true .will .nothing
  | .either, _, .wont => .agree false .dont .nothing
  | .either, _, .dont => .agree false .wont .nothing
  | .server, .client, .will => .agree true .do .nothing
  | .server, .client, .do => .refuse .wont
  | .server, .server, .do => .agree true .will .nothing
  | .server, .server, .will => .refuse .dont
  | .server, _, .wont => .agree false .dont .nothing
  | .server, _, .dont => .agree false .wont .nothing
  | .client, .client, .will | .client, .client, .do =>
    .agree true .will (if option = .windowSize then .reportWindow else .nothing)
  | .client, .client, .wont | .client, .client, .dont => .agree false .wont .nothing
  | .client, .server, .will =>
    .agree true .do (if option = .terminalType then .askTerminalType else .nothing)
  | .client, .server, .do => .refuse .wont
  | .client, .server, .wont => .agree false .dont .nothing
  | .client, .server, .dont => .agree false .wont .nothing

/-- What a side asks for when a connection begins. -/
def initialRequests : Role → List (Verb × TelnetOption)
  | .client =>
    [(.will, .binary), (.do, .binary), (.will, .suppressGoAhead), (.do, .suppressGoAhead),
      (.will, .windowSize), (.will, .terminalType), (.will, .environment)]
  | .server =>
    [(.will, .binary), (.do, .binary), (.will, .suppressGoAhead), (.do, .suppressGoAhead),
      (.will, .echo), (.do, .terminalType), (.do, .windowSize)]

/-- The last verb that a side said, by whom it was about and by option byte. -/
abbrev Announced := Side → UInt8 → Option Verb

namespace Announced

/-- Nothing has been said. -/
def none : Announced := fun _ _ => .none

/-- The record after a verb was said. -/
def say (a : Announced) (verb : Verb) (option : TelnetOption) : Announced :=
  fun side byte =>
    if side = verb.side ∧ byte = option.toByte then some verb else a side byte

/-- Whether a verb is what was last said. -/
def repeats (a : Announced) (verb : Verb) (option : TelnetOption) : Bool :=
  a verb.side option.toByte = some verb

/-- A verb is the last one said about its own side and option. -/
@[simp] theorem say_self (a : Announced) (verb : Verb) (option : TelnetOption) :
    a.say verb option verb.side option.toByte = some verb := by
  simp [say]

/-- Saying a verb leaves what was said about another side or option. -/
theorem say_of_ne (a : Announced) (verb : Verb) (option : TelnetOption) {side : Side}
    {byte : UInt8} (h : ¬(side = verb.side ∧ byte = option.toByte)) :
    a.say verb option side byte = a side byte := by
  simp [say, h]

end Announced
end Telnet
end RemoteTerminal
