/-
# Internet addresses

Addresses of both families and their texts.  An IPv6 address is written in lower
case with the first longest run of two or more zero groups left out; an IPv4
address inside `::ffff:0:0/96` is written in dotted form.  The zone of an IPv6
address says on which link of this machine it is meant; it is written behind a
percent sign where the address stands with a port, unless it is zero.
-/

import RemoteTerminal.Bytes

namespace RemoteTerminal

/-- An internet address: four bytes, or eight groups of sixteen bits and a zone. -/
inductive IpAddress where
  | v4 (a b c d : UInt8)
  | v6 (groups : List UInt16) (zone : UInt32)
  deriving DecidableEq, Repr

namespace IpAddress

/-- The address that stands for every interface of this machine. -/
def unspecified : IpAddress := .v4 0 0 0 0

/-- The address by which a machine reaches itself. -/
def loopback : IpAddress := .v4 127 0 0 1

/-- Four numbers with points between them. -/
def dotted (a b c d : Nat) : String :=
  toString a ++ "." ++ toString b ++ "." ++ toString c ++ "." ++ toString d

/-- A group in lower-case hexadecimal without leading zeros. -/
def groupText (group : UInt16) : String := String.ofList (Nat.toDigits 16 group.toNat)

/-- How many zero groups a list begins with. -/
def zeroRun : List UInt16 → Nat
  | [] => 0
  | g :: rest => if g = 0 then zeroRun rest + 1 else 0

/-- The first longest run of zero groups, as its place and its length. -/
def longestZeroRun : List UInt16 → Nat × Nat
  | [] => (0, 0)
  | g :: rest =>
    let (place, length) := longestZeroRun rest
    let here := zeroRun (g :: rest)
    if length ≤ here then (0, here) else (place + 1, length)

/-- Groups with colons between them. -/
def groupsText (groups : List UInt16) : String := String.intercalate ":" (groups.map groupText)

/-- The text of an address without its zone. -/
def text : IpAddress → String
  | .v4 a b c d => dotted a.toNat b.toNat c.toNat d.toNat
  | .v6 groups _ =>
    match groups with
    | [0, 0, 0, 0, 0, 0xFFFF, x, y] =>
      "::ffff:" ++ dotted (x.toNat / 256) (x.toNat % 256) (y.toNat / 256) (y.toNat % 256)
    | _ =>
      let (place, length) := longestZeroRun groups
      if length < 2 then groupsText groups
      else groupsText (groups.take place) ++ "::" ++ groupsText (groups.drop (place + length))

/-- The text of a zone behind an address. -/
def zoneText (zone : UInt32) : String := if zone = 0 then "" else "%" ++ toString zone.toNat

end IpAddress

/-- One end of a connection: an address and a port. -/
structure SocketAddress where
  ip : IpAddress
  port : UInt16
  deriving DecidableEq, Repr

namespace SocketAddress

/-- The text of an end: the port after a colon, an IPv6 address in brackets. -/
def text (a : SocketAddress) : String :=
  match a.ip with
  | .v4 .. => a.ip.text ++ ":" ++ toString a.port.toNat
  | .v6 _ zone =>
    "[" ++ a.ip.text ++ IpAddress.zoneText zone ++ "]:" ++ toString a.port.toNat

instance : ToString SocketAddress := ⟨text⟩

end SocketAddress
end RemoteTerminal
