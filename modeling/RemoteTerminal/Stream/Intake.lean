/-
# The input side of a stream

An intake stands between what a transport delivers and what a reader has asked
for.  It holds the tail of the last read that is not used up yet, never more than
its capacity, and it knows how far the end of the stream has been reported: a read
of no bytes is the end, and bytes already taken in always go out before the notice.
-/

import RemoteTerminal.Line
import RemoteTerminal.Transport.Error
import RemoteTerminal.Stream.Capacity
import RemoteTerminal.Stream.Farewell

namespace RemoteTerminal

/-- What a reader has to do next. -/
inductive Due where
  /-- Take in bytes and use them. -/
  | payload
  /-- Hand out the close notice. -/
  | notice
  /-- Report the end of the stream. -/
  | nothing
  deriving DecidableEq, Repr

/-- Bytes taken in and not used yet, and the phase of the stream's end. -/
structure Intake where
  buffer : Bytes := []
  capacity : Nat
  phase : Phase := .flowing
  deriving DecidableEq, Repr

namespace Intake

/-- An empty intake of the capacity that a request comes to. -/
def ofCapacity (requested : Nat) : Intake := { capacity := Capacity.granted requested }

/-- Whether the peer has ended the stream. -/
def isEof (i : Intake) : Bool := i.phase ≠ .flowing

/-- Whether the end of the stream has been reported in full. -/
def isClosed (i : Intake) : Bool := i.phase = .closed

/-- What is due to the reader; the first time that the notice is, its delivery begins. -/
def poll (i : Intake) : Due × Intake :=
  if i.buffer ≠ [] then (.payload, i)
  else
    match i.phase with
    | .flowing => (.payload, i)
    | .ended => (.notice, { i with phase := .notice 0 })
    | .notice _ => (.notice, i)
    | .closed => (.nothing, i)

/-- The next piece of the notice, if its delivery has begun. -/
def readNotice (room : Nat) (i : Intake) : Bytes × List Note × Intake :=
  match i.phase with
  | .notice sent =>
    (Farewell.piece sent room,
      if Farewell.completes sent room then [.debug "Close notice delivered"] else [],
      { i with phase := Farewell.after sent room })
  | _ => ([], [], i)

/-- Take in one read of the line, of at most `limit` bytes and no more than there
is room for.  It would block only if nothing is held afterwards; a hard fault
while bytes are held is noted, and will come again. -/
def fill (limit : Nat) (i : Intake) (l : Line) : Except TransportError Unit × Intake × Line :=
  if i.isEof then (.ok (), i, l)
  else
    let room := min (i.capacity - i.buffer.length) limit
    if room = 0 then (.ok (), i, l)
    else
      match l.read room with
      | (.ok [], l) =>
        (.ok (), { i with phase := .ended }, l.note (.debug "Remote side closed the connection"))
      | (.ok data, l) => (.ok (), { i with buffer := i.buffer ++ data }, l)
      | (.error f, l) =>
        if f.isWouldBlock || f.isInterrupted then
          (if i.buffer = [] then .error .wouldBlock else .ok (), i, l)
        else if i.buffer = [] then (.error (.io f), i, l)
        else
          (.ok (), i,
            l.note (.warn s!"Read error with {i.buffer.length} bytes buffered: {f}"))

/-- Every byte held, which leaves the intake empty. -/
def take (i : Intake) : Bytes × Intake := (i.buffer, { i with buffer := [] })

/-- At most `room` of the bytes held. -/
def drain (room : Nat) (i : Intake) : Bytes × Intake :=
  (i.buffer.take room, { i with buffer := i.buffer.drop room })

/-- Read at most `room` bytes without decoding: payload, then the notice in
pieces, then nothing for ever. -/
def read (room : Nat) (i : Intake) (l : Line) : Except TransportError Bytes × Intake × Line :=
  if room = 0 then (.ok [], i, l)
  else
    match i.poll with
    | (.notice, i) =>
      let (piece, notes, i) := i.readNotice room
      (.ok piece, i, l.log notes)
    | (.nothing, i) => (.ok [], i, l)
    | (.payload, i) =>
      match i.fill room l with
      | (.error e, i, l) => (.error e, i, l)
      | (.ok (), i, l) =>
        let (data, i) := i.drain room
        (if data = [] then .error .wouldBlock else .ok data, i, l)

/-- Draining parts the bytes held into what goes out and what stays. -/
theorem drain_append (room : Nat) (i : Intake) :
    (i.drain room).1 ++ (i.drain room).2.buffer = i.buffer := by
  simp [drain]

end Intake
end RemoteTerminal
