/-
# Reading text from doubtful bytes

UTF-8 decoding that never fails.  Every longest beginning of a character that
cannot be completed becomes one replacement character, and decoding goes on at
the byte that broke it off.  The decoder is a machine with one byte of input per
step, so the bytes may be fed in any pieces.
-/

import RemoteTerminal.Bytes

namespace RemoteTerminal
namespace Lossy

/-- The character that stands for bytes that are no text. -/
def replacement : Char := Char.ofNat 0xFFFD

/-- An unfinished character: the bits read so far, how many continuation bytes
are still to come, and the range in which the next of them has to lie. -/
structure Partial where
  bits : Nat
  missing : Nat
  low : Nat
  high : Nat
  deriving DecidableEq, Repr

/-- Between characters (`none`), or inside one. -/
abbrev State := Option Partial

/-- A byte between characters: a character of its own, the beginning of a longer
one, or no text.  The ranges keep out overlong forms, surrogates and values above
`U+10FFFF`. -/
def start (byte : UInt8) : List Char × State :=
  let b := byte.toNat
  if b < 0x80 then ([Char.ofNat b], none)
  else if b < 0xC2 then ([replacement], none)
  else if b < 0xE0 then ([], some ⟨b - 0xC0, 1, 0x80, 0xBF⟩)
  else if b = 0xE0 then ([], some ⟨0, 2, 0xA0, 0xBF⟩)
  else if b = 0xED then ([], some ⟨0xD, 2, 0x80, 0x9F⟩)
  else if b < 0xF0 then ([], some ⟨b - 0xE0, 2, 0x80, 0xBF⟩)
  else if b = 0xF0 then ([], some ⟨0, 3, 0x90, 0xBF⟩)
  else if b < 0xF4 then ([], some ⟨b - 0xF0, 3, 0x80, 0xBF⟩)
  else if b = 0xF4 then ([], some ⟨4, 3, 0x80, 0x8F⟩)
  else ([replacement], none)

/-- One byte.  A byte that cannot continue the unfinished character breaks it off
and is then read as the first of the next. -/
def step : State → UInt8 → List Char × State
  | none, byte => start byte
  | some p, byte =>
    if p.low ≤ byte.toNat ∧ byte.toNat ≤ p.high then
      let bits := p.bits * 64 + byte.toNat % 64
      if p.missing ≤ 1 then ([Char.ofNat bits], none)
      else ([], some ⟨bits, p.missing - 1, 0x80, 0xBF⟩)
    else
      let (chars, next) := start byte
      (replacement :: chars, next)

/-- The characters of some bytes from a state on; an unfinished last character is
broken off. -/
def run : State → Bytes → List Char
  | none, [] => []
  | some _, [] => [replacement]
  | s, byte :: rest =>
    let (chars, next) := step s byte
    chars ++ run next rest

end Lossy

/-- The text of some bytes, with `U+FFFD` for what is not UTF-8. -/
def lossyText (bytes : Bytes) : String := String.ofList (Lossy.run none bytes)

end RemoteTerminal
