/-
# The SSH adapter

An adapter fits a library's channel to the way in which connections are read and
written.  A channel gets an adapter only after its host key was judged; a channel
whose key is rejected is closed at once.  At the end of the channel the close
notice is handed out once, as on every other connection.
-/

import RemoteTerminal.Connection.Error
import RemoteTerminal.Ssh.Channel
import RemoteTerminal.Stream.Farewell

namespace RemoteTerminal
namespace Ssh

/-- A channel in use. -/
structure Adapter where
  channel : Channel
  /-- The host whose key was judged. -/
  host : String
  phase : Phase := .flowing
  /-- The channel has been closed from this side. -/
  closed : Bool := false

namespace Adapter

/-- Have the key of a channel judged, and use the channel if it is trusted. -/
def attach (channel : Channel) (host : String) (trusts : String → HostKey → Bool)
    (r : Record) : Except ConnectionError Adapter × Record :=
  let key := channel.hostKey
  let trusted := trusts host key
  let r := r.add (.trust host key trusted)
  if trusted then (.ok { channel, host }, r.note (.debug "SSH session attached"))
  else
    (.error (.untrustedHost host key.fingerprint),
      (r.note (.warn "Host key rejected")).add .close)

/-- What a fault of the library means for the caller. -/
def failure (f : ChannelFault) (a : Adapter) (r : Record) : ConnectionError × Record :=
  match f with
  | .wouldBlock => (.transport .wouldBlock, r)
  | .eof => (.transport .closed, r)
  | .hostKeyChanged key =>
    (.untrustedHost a.host key.fingerprint, r.note (.warn "Host key changed mid-session"))
  | .fatal message => (.ssh message, r)

/-- The next piece of the close notice, of which `sent` bytes are out. -/
def readNotice (sent room : Nat) (a : Adapter) : Bytes × Adapter :=
  (Farewell.piece sent room, { a with phase := Farewell.after sent room })

/-- The first piece of the close notice, when the channel turns out to be at its end. -/
def beginNotice (room : Nat) (a : Adapter) (r : Record) : Bytes × Adapter × Record :=
  let (piece, a) := a.readNotice 0 room
  (piece, a, r.note (.debug "SSH channel closed"))

/-- Read at most `room` bytes. -/
def read (room : Nat) (a : Adapter) (r : Record) :
    Except ConnectionError Bytes × Adapter × Record :=
  if room = 0 then (.ok [], a, r)
  else
    match a.phase with
    | .notice sent =>
      let (piece, a) := a.readNotice sent room
      (.ok piece, a, r)
    | .closed => (.ok [], a, r)
    | .flowing | .ended =>
      let (answer, channel) := a.channel.read room
      let a := { a with channel }
      let r := r.add (.read room answer)
      match answer with
      | .ok [] | .error .eof =>
        let (piece, a, r) := a.beginNotice room r
        (.ok piece, a, r)
      | .ok data => (.ok data, a, r)
      | .error f =>
        let (e, r) := a.failure f r
        (.error e, a, r)

/-- Write a caller's bytes; the answer says how many of them were taken. -/
def write (data : Bytes) (a : Adapter) (r : Record) :
    Except ConnectionError Nat × Adapter × Record :=
  if data = [] then (.ok 0, a, r)
  else
    let (answer, channel) := a.channel.write data
    let a := { a with channel }
    let r := r.add (.write data answer)
    match answer with
    | .ok count => (.ok count, a, r)
    | .error f =>
      let (e, r) := a.failure f r
      (.error e, a, r)

/-- Pass a new window size on. -/
def resize (lines columns : UInt16) (a : Adapter) (r : Record) :
    Except ConnectionError Unit × Adapter × Record :=
  let (answer, channel) := a.channel.resize
  let a := { a with channel }
  let r := r.add (.resize lines columns answer)
  match answer with
  | .ok () => (.ok (), a, r)
  | .error f =>
    let (e, r) := a.failure f r
    (.error e, a, r)

/-- Close the channel, once. -/
def close (a : Adapter) (r : Record) : Adapter × Record :=
  if a.closed then (a, r) else ({ a with closed := true }, r.add .close)

end Adapter
end Ssh
end RemoteTerminal
