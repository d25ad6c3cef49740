/-
# File transfers that announce themselves

A remote program that wants to transfer a file says so in the payload.  Zmodem
begins with the six bytes `**` `18` `B00`; Kermit with `01`, a length byte, a space
and `S`.  `scan` finds the first such beginning.
-/

import RemoteTerminal.Bytes

namespace RemoteTerminal
namespace Autostart

/-- A file-transfer protocol. -/
inductive Protocol where
  | zmodem
  | kermit
  deriving DecidableEq, Repr

/-- The name of a protocol. -/
def Protocol.name : Protocol → String
  | .zmodem => "zmodem"
  | .kermit => "kermit"

/-- The protocol whose beginning stands at the front of some bytes. -/
def atFront : Bytes → Option Protocol
  | 0x2A :: 0x2A :: 0x18 :: 0x42 :: 0x30 :: 0x30 :: _ => some .zmodem
  | 0x01 :: _ :: 0x20 :: 0x53 :: _ => some .kermit
  | _ => none

/-- The announcement of a transfer. -/
structure Announcement where
  protocol : Protocol
  /-- How many bytes stand before it. -/
  offset : Nat
  deriving DecidableEq, Repr

/-- The first announcement in some bytes. -/
def scan : Bytes → Option Announcement
  | [] => none
  | byte :: rest =>
    match atFront (byte :: rest) with
    | some protocol => some ⟨protocol, 0⟩
    | none => (scan rest).map fun a => { a with offset := a.offset + 1 }

end Autostart
end RemoteTerminal
