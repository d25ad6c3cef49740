/-
# Framing of payload

How payload travels between two terminals.  `IAC` is always doubled.  Outside
binary mode the end of a line is `CR LF` and every other carriage return is
followed by a filler, `CR NUL`.

* `encode` frames a text, and `encodeWithin` as much of it as fits.
* `Return.step` undoes it for one byte of unescaped data: a carriage return is
  held back until the byte after it is known.
-/

import RemoteTerminal.Bytes
import RemoteTerminal.Telnet.Code

namespace RemoteTerminal
namespace Telnet

/-- What one byte of payload goes out as, given the byte after it, and how many
bytes of payload that covers. -/
def encodeUnit (binary : Bool) (byte : UInt8) (next : Option UInt8) : Bytes × Nat :=
  if byte = Code.iac then ([Code.iac, Code.iac], 1)
  else if byte = Code.cr ∧ binary = false then
    if next = some Code.lf then ([Code.cr, Code.lf], 2) else ([Code.cr, Code.nul], 1)
  else ([byte], 1)

/-- The framed form of a text. -/
def encode (binary : Bool) : Bytes → Bytes
  | [] => []
  | [b] => (encodeUnit binary b none).1
  | b :: c :: rest =>
    let (out, covered) := encodeUnit binary b (some c)
    out ++ if covered = 2 then encode binary rest else encode binary (c :: rest)

/-- The framed form of as much of a text as fits into `limit` bytes without
cutting a unit, and how many bytes of the text that is. -/
def encodeWithin (binary : Bool) : Nat → Bytes → Nat × Bytes
  | _, [] => (0, [])
  | limit, [b] =>
    let (out, _) := encodeUnit binary b none
    if limit < out.length then (0, []) else (1, out)
  | limit, b :: c :: rest =>
    let (out, covered) := encodeUnit binary b (some c)
    if limit < out.length then (0, [])
    else
      let (used, more) :=
        if covered = 2 then encodeWithin binary (limit - out.length) rest
        else encodeWithin binary (limit - out.length) (c :: rest)
      (covered + used, out ++ more)

namespace Return

/-- The carriage return that was held back, if one was. -/
def release (pending : Bool) : Bytes := if pending then [Code.cr] else []

/-- One byte of unescaped data: the payload it makes, and whether a carriage
return is held back after it. -/
def step (binary pending : Bool) (byte : UInt8) : Bytes × Bool :=
  if binary then (release pending ++ [byte], false)
  else if pending then
    if byte = Code.lf then ([Code.cr, Code.lf], false)
    else if byte = Code.nul then ([Code.cr], false)
    else if byte = Code.cr then ([Code.cr, Code.nul], true)
    else ([Code.cr, byte], false)
  else if byte = Code.cr then ([], true)
  else ([byte], false)

end Return

/-- A unit has one byte or two. -/
theorem encodeUnit_length (binary : Bool) (byte : UInt8) (next : Option UInt8) :
    (encodeUnit binary byte next).1.length = 1 ∨ (encodeUnit binary byte next).1.length = 2 := by
  unfold encodeUnit
  split
  · exact .inr rfl
  · split
    · split <;> exact .inr rfl
    · exact .inl rfl

end Telnet
end RemoteTerminal
