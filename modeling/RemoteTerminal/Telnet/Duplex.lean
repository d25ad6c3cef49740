/-
# Two codecs facing each other

A pair of codecs whose outputs are each other's inputs.  `send` carries payload
from one to the other; `pump` carries what the codecs have to say by themselves
back and forth until both have fallen silent.
-/

import RemoteTerminal.Telnet.Codec

namespace RemoteTerminal
namespace Telnet

/-- The two ends of a connection. -/
inductive End where
  | a
  | b
  deriving DecidableEq, Repr

/-- The other end. -/
def End.other : End → End
  | .a => .b
  | .b => .a

/-- Two codecs facing each other. -/
structure Duplex where
  a : Codec
  b : Codec

/-- What went over the wire in one direction at one time. -/
structure Transfer where
  /-- Where it came from. -/
  source : End
  /-- The bytes on the wire. -/
  wire : Bytes
  /-- What the other end made of them. -/
  received : Decoded

namespace Duplex

/-- The codec at an end. -/
def get (d : Duplex) : End → Codec
  | .a => d.a
  | .b => d.b

/-- The pair with another codec at an end. -/
def set (d : Duplex) (e : End) (c : Codec) : Duplex :=
  match e with
  | .a => { d with a := c }
  | .b => { d with b := c }

/-- Bytes arrive from one end at the other. -/
def deliver (source : End) (wire : Bytes) (d : Duplex) : Transfer × Duplex :=
  let (received, c) := (d.get source.other).decode wire
  (⟨source, wire, received⟩, d.set source.other c)

/-- Carry payload from one end to the other. -/
def send (source : End) (data : Bytes) (d : Duplex) : Transfer × Duplex :=
  d.deliver source ((d.get source).encode data)

/-- Carry replies to and fro, beginning with those of `source`, until two ends in
turn had nothing to say (`quiet` counts them) or `max` transfers were made.  Every
turn makes a transfer or adds to the quiet, so `2 * max + 2` turns are enough. -/
def pumpWith : (turns max quiet : Nat) → End → Duplex → List Transfer × Duplex
  | 0, _, _, _, d => ([], d)
  | turns + 1, max, quiet, source, d =>
    if max = 0 ∨ 2 ≤ quiet then ([], d)
    else
      let (wire, c) := (d.get source).takeReplies
      let d := d.set source c
      if wire = [] then pumpWith turns max (quiet + 1) source.other d
      else
        let (transfer, d) := d.deliver source wire
        let (more, d) := pumpWith turns (max - 1) 0 source.other d
        (transfer :: more, d)

/-- Carry replies to and fro until both ends are silent or `max` transfers were made. -/
def pump (max : Nat) (source : End) (d : Duplex) : List Transfer × Duplex :=
  pumpWith (2 * max + 2) max 0 source d

end Duplex
end Telnet
end RemoteTerminal
