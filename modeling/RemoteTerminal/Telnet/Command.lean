/-
# Telnet commands

The simple commands: one byte after `IAC`, without parameters.
-/

import RemoteTerminal.Bytes
import RemoteTerminal.Telnet.Code

namespace RemoteTerminal
namespace Telnet

/-- A command without parameters. -/
inductive Command where
  | noOperation
  | dataMark
  | breakSignal
  | interruptProcess
  | abortOutput
  | areYouThere
  | eraseCharacter
  | eraseLine
  | goAhead
  deriving DecidableEq, Repr

namespace Command

/-- All commands, in the order of their bytes. -/
def all : List Command :=
  [noOperation, dataMark, breakSignal, interruptProcess, abortOutput, areYouThere,
    eraseCharacter, eraseLine, goAhead]

/-- The byte that follows `IAC`. -/
def toByte : Command → UInt8
  | noOperation => 241
  | dataMark => 242
  | breakSignal => 243
  | interruptProcess => 244
  | abortOutput => 245
  | areYouThere => 246
  | eraseCharacter => 247
  | eraseLine => 248
  | goAhead => 249

/-- The command as it travels. -/
def bytes (c : Command) : Bytes := [Code.iac, c.toByte]

/-- The usual abbreviation. -/
def name : Command → String
  | noOperation => "NOP"
  | dataMark => "DM"
  | breakSignal => "BRK"
  | interruptProcess => "IP"
  | abortOutput => "AO"
  | areYouThere => "AYT"
  | eraseCharacter => "EC"
  | eraseLine => "EL"
  | goAhead => "GA"

instance : ToString Command := ⟨name⟩

/-- The command that a byte after `IAC` stands for. -/
def ofByte? (byte : UInt8) : Option Command := all.find? fun c => c.toByte = byte

/-- The command of an abbreviation. -/
def ofName? (text : String) : Option Command := all.find? fun c => c.name = text

end Command
end Telnet
end RemoteTerminal
