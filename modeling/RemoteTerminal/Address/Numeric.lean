/-
# Numeric addresses

The texts that are read as addresses without asking anybody.

* `IpAddress.parse?` reads the usual forms: four decimal numbers with points, and
  eight hexadecimal groups with colons, of which `::` leaves some zero groups out,
  the last two may be dotted, and a zone may follow.
* `IpAddress.ofHost?` reads besides the older form of one to four numbers, each as
  programs write them, of which the last fills every byte that is left.
* `SocketAddress.parse?` reads an address with a port, in the form in which
  `SocketAddress.text` writes it.
-/

import RemoteTerminal.Address
import RemoteTerminal.Text.Hexadecimal

namespace RemoteTerminal
namespace IpAddress

/-- A number in digits of a base, of which there is one at least. -/
def number? (base : Nat) (digits : List Char) : Option Nat :=
  if digits = [] then none
  else digits.foldlM (fun n d => (Hexadecimal.value? d).bind fun v =>
    if v < base then some (n * base + v) else none) 0

/-- A number below a bound in decimal digits. -/
def decimal? (bound : Nat) (digits : List Char) : Option Nat :=
  (number? 10 digits).filter (· < bound)

/-- A number from zero to 255 in decimal digits, without leading zeros. -/
def octet? : List Char → Option Nat
  | '0' :: _ :: _ => none
  | digits => decimal? 256 digits

/-- A group of one to four hexadecimal digits. -/
def group? (digits : List Char) : Option Nat :=
  if 4 < digits.length then none else number? 16 digits

/-- The pieces of a text between the occurrences of a character. -/
def pieces (mark : Char) : List Char → List (List Char)
  | [] => [[]]
  | c :: rest =>
    if c = mark then [] :: pieces mark rest
    else match pieces mark rest with
      | [] => [[c]]
      | p :: ps => (c :: p) :: ps

/-- The four numbers of a dotted address. -/
def dotted? (chars : List Char) : Option (Nat × Nat × Nat × Nat) :=
  match (pieces '.' chars).mapM octet? with
  | some [a, b, c, d] => some (a, b, c, d)
  | _ => none

/-- Groups with colons between them; the last may be a dotted address, which
counts as two groups.  No text at all is no groups. -/
def groups? (chars : List Char) : Option (List Nat) :=
  if chars = [] then some []
  else
    let parts := pieces ':' chars
    match dotted? (parts.getLast?.getD []) with
    | some (a, b, c, d) =>
      (parts.dropLast.mapM group?).map fun gs => gs ++ [a * 256 + b, c * 256 + d]
    | none => parts.mapM group?

/-- A text cut at its first `::`. -/
def cutAtGap : List Char → Option (List Char × List Char)
  | ':' :: ':' :: rest => some ([], rest)
  | [] => none
  | c :: rest => (cutAtGap rest).map fun (before, after) => (c :: before, after)

/-- Whether a text ends in a dotted address. -/
def endsDotted (chars : List Char) : Bool := chars.contains '.'

/-- The eight groups of an IPv6 address; `::` stands for one zero group or more. -/
def sixteen? (chars : List Char) : Option (List Nat) :=
  match cutAtGap chars with
  | none => (groups? chars).bind fun gs => if gs.length = 8 then some gs else none
  | some (before, after) =>
    if endsDotted before then none
    else do
      let front ← groups? before
      let back ← groups? after
      if front.length + back.length < 8 then
        some (front ++ List.replicate (8 - front.length - back.length) 0 ++ back)
      else none

/-- The zone that a text behind an address names; no text at all is no zone. -/
def zone? : List Char → Option Nat
  | [] => some 0
  | '%' :: digits => decimal? (Nat.pow 2 32) digits
  | _ => none

/-- The address that a text in one of the usual forms names. -/
def parse? (text : String) : Option IpAddress :=
  let chars := text.toList
  match dotted? chars with
  | some (a, b, c, d) =>
    some (.v4 (UInt8.ofNat a) (UInt8.ofNat b) (UInt8.ofNat c) (UInt8.ofNat d))
  | none => do
    let groups ← sixteen? (chars.takeWhile (· ≠ '%'))
    let zone ← zone? (chars.dropWhile (· ≠ '%'))
    return .v6 (groups.map UInt16.ofNat) (UInt32.ofNat zone)

/-- A number as programs write it: in hexadecimal after `0x`, in octal after
another zero, and else in decimal. -/
def literal? : List Char → Option Nat
  | '0' :: 'x' :: digits => number? 16 digits
  | '0' :: 'X' :: digits => number? 16 digits
  | '0' :: digits => number? 8 ('0' :: digits)
  | digits => number? 10 digits

/-- The low `count` bytes of a number, the highest first. -/
def lowBytes : Nat → Nat → Bytes
  | 0, _ => []
  | count + 1, n => UInt8.ofNat (n / Nat.pow 256 count) :: lowBytes count n

/-- The address that one to four numbers name: each is a byte but the last, which
fills every byte that is left. -/
def ofNumbers? (numbers : List Nat) : Option IpAddress :=
  let front := numbers.dropLast
  let last := numbers.getLast?.getD 0
  if 3 < front.length ∨ front.any (256 ≤ ·) ∨ Nat.pow 256 (4 - front.length) ≤ last then none
  else
    match front.map UInt8.ofNat ++ lowBytes (4 - front.length) last with
    | [a, b, c, d] => some (.v4 a b c d)
    | _ => none

/-- The address that the name of a host is, if it is numeric. -/
def ofHost? (name : String) : Option IpAddress :=
  parse? name <|> ((pieces '.' name.toList).mapM literal?).bind ofNumbers?

end IpAddress

namespace SocketAddress

/-- A port number in decimal digits. -/
def port? (digits : List Char) : Option UInt16 :=
  (IpAddress.decimal? 65536 digits).map UInt16.ofNat

/-- The end that a text names, in the form in which `text` writes it. -/
def parse? (text : String) : Option SocketAddress :=
  match text.toList with
  | '[' :: chars => do
    let ip ← IpAddress.parse? (String.ofList (chars.takeWhile (· ≠ ']')))
    match ip, chars.dropWhile (· ≠ ']') with
    | .v6 .., ']' :: ':' :: digits => (port? digits).map fun p => ⟨ip, p⟩
    | _, _ => none
  | chars => do
    let ip ← IpAddress.parse? (String.ofList (chars.takeWhile (· ≠ ':')))
    match ip, chars.dropWhile (· ≠ ':') with
    | .v4 .., ':' :: digits => (port? digits).map fun p => ⟨ip, p⟩
    | _, _ => none

end SocketAddress
end RemoteTerminal
