/-
# The vocabulary of option negotiation

Telnet peers agree on options with four verbs.  `WILL` and `WONT` speak about the
side that says them, `DO` and `DONT` about the other side.  An option is known by
its byte; the ones that this library negotiates have names, all others are
`unknown` and are refused.
-/

namespace RemoteTerminal
namespace Telnet

/-- Which end of the connection a side plays. -/
inductive Role where
  /-- The side that connected. -/
  | client
  /-- The side that was connected to. -/
  | server
  deriving DecidableEq, Repr

/-- A negotiation verb. -/
inductive Verb where
  | will
  | wont
  | «do»
  | dont
  deriving DecidableEq, Repr

/-- Whom a verb speaks about. -/
inductive Side where
  /-- The side that says it. -/
  | own
  /-- The side that hears it. -/
  | peer
  deriving DecidableEq, Repr

namespace Verb

/-- The byte that follows `IAC`. -/
def toByte : Verb → UInt8
  | will => 251
  | wont => 252
  | .do => 253
  | dont => 254

/-- The verb that a byte after `IAC` stands for. -/
def ofByte? (byte : UInt8) : Option Verb :=
  if byte = 251 then some will
  else if byte = 252 then some wont
  else if byte = 253 then some .do
  else if byte = 254 then some dont
  else none

/-- The verb in capitals. -/
def name : Verb → String
  | will => "WILL"
  | wont => "WONT"
  | .do => "DO"
  | dont => "DONT"

instance : ToString Verb := ⟨name⟩

/-- `WILL` and `DO` switch an option on, `WONT` and `DONT` switch it off. -/
def isPositive : Verb → Bool
  | will | .do => true
  | wont | dont => false

/-- Whom the verb speaks about. -/
def side : Verb → Side
  | will | wont => .own
  | .do | dont => .peer

@[simp] theorem ofByte?_toByte (v : Verb) : ofByte? v.toByte = some v := by
  cases v <;> rfl

/-- Whom a verb speaks about and which way it goes tell it from every other. -/
theorem eq_of_side_of_isPositive {v w : Verb} (hs : v.side = w.side)
    (hp : v.isPositive = w.isPositive) : v = w := by
  cases v <;> cases w <;> simp_all [side, isPositive]

end Verb

/-- Which side of a connection performs an option. -/
inductive Performer where
  /-- Either side may. -/
  | either
  /-- Only the server does. -/
  | server
  /-- Only the client does. -/
  | client
  /-- The option is refused. -/
  | nobody
  deriving DecidableEq, Repr

/-- An option. -/
inductive TelnetOption where
  /-- Eight-bit transmission without end-of-line conversion. -/
  | binary
  /-- Echoing by the server. -/
  | echo
  /-- No go-ahead after each line. -/
  | suppressGoAhead
  /-- Reports of the terminal's type. -/
  | terminalType
  /-- Reports of the window's size. -/
  | windowSize
  /-- Reports of the line speed. -/
  | terminalSpeed
  /-- Reports of environment variables. -/
  | environment
  /-- Any other option. -/
  | unknown (byte : UInt8)
  deriving DecidableEq, Repr

namespace TelnetOption

/-- The option's byte on the wire. -/
def toByte : TelnetOption → UInt8
  | binary => 0
  | echo => 1
  | suppressGoAhead => 3
  | terminalType => 24
  | windowSize => 31
  | terminalSpeed => 32
  | environment => 39
  | unknown byte => byte

/-- The options that are negotiated. -/
def known : List TelnetOption :=
  [binary, echo, suppressGoAhead, terminalType, windowSize, terminalSpeed, environment]

/-- The option that a byte stands for. -/
def ofByte (byte : UInt8) : TelnetOption :=
  (known.find? fun o => o.toByte = byte).getD (unknown byte)

/-- The option's usual name. -/
def name : TelnetOption → String
  | binary => "BINARY"
  | echo => "ECHO"
  | suppressGoAhead => "SGA"
  | terminalType => "TTYPE"
  | windowSize => "NAWS"
  | terminalSpeed => "TSPEED"
  | environment => "NEW-ENVIRON"
  | unknown byte => s!"UNKNOWN({byte.toNat})"

instance : ToString TelnetOption := ⟨name⟩

/-- Which side performs the option. -/
def performer : TelnetOption → Performer
  | binary | suppressGoAhead => .either
  | echo => .server
  | terminalType | windowSize | terminalSpeed | environment => .client
  | unknown _ => .nobody

/-- Whether the option is negotiated at all. -/
def isSupported (o : TelnetOption) : Bool := o.performer ≠ .nobody

/-- An option read from a byte is written as that byte. -/
@[simp] theorem toByte_ofByte (byte : UInt8) : (ofByte byte).toByte = byte := by
  unfold ofByte
  cases h : known.find? fun o => o.toByte = byte with
  | none => rfl
  | some o => simpa using List.find?_some h

end TelnetOption
end Telnet
end RemoteTerminal
