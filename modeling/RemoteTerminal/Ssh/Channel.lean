/-
# The SSH library's side

SSH itself is spoken by an external library, which offers a shell channel: it has
a host key and can be read, written, resized and closed.  A channel is given by
what it will answer, like a transport; when the answers are used up a read would
block, a write takes everything and a resize succeeds.
-/

import RemoteTerminal.Bytes
import RemoteTerminal.Journal

namespace RemoteTerminal
namespace Ssh

/-- The key that a server presents. -/
structure HostKey where
  algorithm : String
  fingerprint : String
  deriving DecidableEq, Repr

/-- The key on one line. -/
def HostKey.text (k : HostKey) : String := k.algorithm ++ " " ++ k.fingerprint

/-- How a call of the library fails. -/
inductive ChannelFault where
  /-- There is nothing to read, or no room to write. -/
  | wouldBlock
  /-- The server closed the channel. -/
  | eof
  /-- The server presented another key than before. -/
  | hostKeyChanged (key : HostKey)
  /-- Anything else. -/
  | fatal (message : String)
  deriving DecidableEq, Repr

/-- A shell channel, as the answers it still has to give. -/
structure Channel where
  hostKey : HostKey
  reads : List (Except ChannelFault Bytes) := []
  /-- How many bytes each write takes at most; no number is all of them. -/
  writes : List (Except ChannelFault (Option Nat)) := []
  resizes : List (Except ChannelFault Unit) := []

/-- What the library, or the judge of host keys, was asked, with the answer. -/
inductive Event where
  /-- Whether to trust a host that presents a key. -/
  | trust (host : String) (key : HostKey) (answer : Bool)
  | read (room : Nat) (answer : Except ChannelFault Bytes)
  | write (offered : Bytes) (answer : Except ChannelFault Nat)
  | resize (lines columns : UInt16) (answer : Except ChannelFault Unit)
  | close

namespace Channel

/-- Read at most `room` bytes; what does not fit stays. -/
def read (room : Nat) (c : Channel) : Except ChannelFault Bytes × Channel :=
  match c.reads with
  | [] => (.error .wouldBlock, c)
  | .error f :: rest => (.error f, { c with reads := rest })
  | .ok data :: rest =>
    (.ok (data.take room),
      { c with reads := if room < data.length then .ok (data.drop room) :: rest else rest })

/-- Offer bytes; the answer says how many of them were taken. -/
def write (offered : Bytes) (c : Channel) : Except ChannelFault Nat × Channel :=
  match c.writes with
  | [] => (.ok offered.length, c)
  | .error f :: rest => (.error f, { c with writes := rest })
  | .ok none :: rest => (.ok offered.length, { c with writes := rest })
  | .ok (some limit) :: rest => (.ok (min limit offered.length), { c with writes := rest })

/-- Tell the library a new window size. -/
def resize (c : Channel) : Except ChannelFault Unit × Channel :=
  match c.resizes with
  | [] => (.ok (), c)
  | answer :: rest => (answer, { c with resizes := rest })

end Channel

/-- What was noted, and what the library and the judge of host keys were asked. -/
structure Record where
  journal : List Note := []
  trail : List Event := []

namespace Record

/-- Add notes. -/
def log (notes : List Note) (r : Record) : Record := { r with journal := r.journal ++ notes }

/-- Add one note. -/
def note (n : Note) (r : Record) : Record := r.log [n]

/-- Add one event. -/
def add (e : Event) (r : Record) : Record := { r with trail := r.trail ++ [e] }

end Record
end Ssh
end RemoteTerminal
