/-
# A telnet session

A codec on a line.  Payload that was decoded and not asked for yet is carried
over; bytes are taken from the line only when none is left.

* `read` gives payload, would block if there is none, and after the end of the
  stream gives the close notice once and then nothing.
* `write` answers how many bytes it accepted.  A fault that strikes after some
  were accepted is held back (`deferred`) and is the answer to the next write.

The requests of the beginning go out with the first read or write.  What the
codec has to say is put behind the bytes that are pending and is sent with
retries, so a handshake does not wait for the caller.
-/

import RemoteTerminal.Progress
import RemoteTerminal.Stream.Intake
import RemoteTerminal.Stream.Outbox
import RemoteTerminal.Telnet.Codec

namespace RemoteTerminal
namespace Telnet

/-- A telnet session. -/
structure Session where
  codec : Codec := {}
  progress : Progress := .idle
  intake : Intake
  outbox : Outbox
  /-- Payload that was decoded and not delivered. -/
  payload : Bytes := []
  /-- An error that the next write has to report. -/
  deferred : Option TransportError := none
  /-- How long handshake writes sit out would-blocks. -/
  timeout : Nat := retryTimeout
  /-- How many bytes of the stream were not payload. -/
  controlBytes : Nat := 0
  line : Line := {}

namespace Session

/-- A session that has not begun. -/
def create (codec : Codec) (bufferSize timeout : Nat) (transport : Transport) : Session :=
  { codec
    intake := .ofCapacity bufferSize
    outbox := .ofCapacity bufferSize
    timeout
    line := { transport, journal := Capacity.notes bufferSize ++ Capacity.notes bufferSize } }

/-- Add notes to the journal. -/
def log (notes : List Note) (s : Session) : Session := { s with line := s.line.log notes }

/-- Send pending bytes without accepting new ones. -/
def flush (s : Session) : Except TransportError Flushed × Session :=
  let (result, outbox, line) := s.outbox.flush s.line
  (result, { s with outbox, line })

/-- Queue what the codec has to say, and send with retries. -/
def sendReplies (s : Session) : Except TransportError Unit × Session :=
  let (replies, codec) := s.codec.takeReplies
  if replies = [] then (.ok (), { s with codec })
  else
    let (result, outbox, line) := (s.outbox.extend replies).flushRetry s.timeout s.line
    (result.map fun _ => (), { s with codec, outbox, line })

/-- Say what this side asks for, once. -/
def start (s : Session) : Except TransportError Unit × Session :=
  if s.progress.isStarted then (.ok (), s)
  else
    let (notes, codec) := s.codec.start
    ({ s with codec, progress := .sentOptions }.log
      (notes ++ [Note.debug "Sending telnet options"])).sendReplies

/-- Deliver at most `room` bytes of the payload that is carried over. -/
def deliver (room : Nat) (s : Session) : Bytes × Session :=
  (s.payload.take room, { s with payload := s.payload.drop room })

/-- Decode what the intake holds.  At the end of the stream a carriage return that
is held back is payload. -/
def absorb (s : Session) : Session :=
  let (raw, intake) := s.intake.take
  let (decoded, codec) := s.codec.decode raw
  let (released, codec) := if intake.isEof then codec.releaseCr else ([], codec)
  { s with
    intake, codec
    payload := s.payload ++ decoded.payload ++ released
    controlBytes := s.controlBytes + (raw.length - decoded.payload.length)
    line := s.line.log decoded.notes }

/-- Deliver at most `room` bytes, or report that there are none yet. -/
def deliverOrBlock (room : Nat) (s : Session) : Except TransportError Bytes × Session :=
  let (data, s) := s.deliver room
  (if data = [] then .error .wouldBlock else .ok data, s)

/-- Send what decoding gave rise to, and deliver.  If it cannot be sent that is
the answer, unless there is payload to deliver. -/
def respondAndDeliver (room : Nat) (s : Session) : Except TransportError Bytes × Session :=
  if s.codec.hasReplies then
    match s.sendReplies with
    | (.ok (), s) => s.deliverOrBlock room
    | (.error e, s) =>
      if s.payload = [] then (.error e, s)
      else (s.log [.warn s!"Failed to send negotiation reply: {e}"]).deliverOrBlock room
  else s.deliverOrBlock room

/-- Take bytes from the line and decode them. -/
def refill (room : Nat) (s : Session) : Except TransportError Bytes × Session :=
  match s.intake.fill s.intake.capacity s.line with
  | (.error e, intake, line) => (.error e, { s with intake, line })
  | (.ok (), intake, line) => ({ s with intake, line }.absorb).respondAndDeliver room

/-- Read at most `room` bytes of payload. -/
def read (room : Nat) (s : Session) : Except TransportError Bytes × Session :=
  if room = 0 then (.ok [], s)
  else
    match s.start with
    | (.error e, s) => (.error e, s)
    | (.ok (), s) =>
      if s.payload ≠ [] then
        let (data, s) := s.deliver room
        (.ok data, s)
      else
        match s.intake.poll with
        | (.notice, intake) =>
          let (piece, notes, intake) := intake.readNotice room
          (.ok piece, { s with intake }.log notes)
        | (.nothing, intake) => (.ok [], { s with intake })
        | (.payload, intake) => { s with intake }.refill room

/-- Frame as much of the data as fits and send it, again and again until the data
is used up, the transport stalls or it fails.  Answers how many bytes were
accepted; a fault is held back for the next write. -/
def pour (data : Bytes) (s : Session) : Nat × Session :=
  let (used, framed) := s.codec.encodeWithin s.outbox.room data
  if _h : used = 0 ∨ data = [] then (0, s)
  else
    match { s with outbox := s.outbox.extend framed }.flush with
    | (.ok .complete, s) =>
      let (more, s) := pour (data.drop used) s
      (used + more, s)
    | (.ok .stalled, s) => (used, s)
    | (.error e, s) =>
      (used, { s with deferred := some e }.log [.warn s!"Write failed, deferring error: {e}"])
termination_by data.length
decreasing_by
  simp only [not_or] at _h
  have := List.length_pos_iff.2 _h.2
  simp only [List.length_drop]
  omega

/-- Frame and send a caller's bytes, after those that are pending. -/
def write (data : Bytes) (s : Session) : Except TransportError Nat × Session :=
  match s.deferred with
  | some e =>
    (.error e, { s with deferred := none }.log [.debug "Reporting deferred write error"])
  | none =>
    if data = [] then (.ok 0, s)
    else
      match s.start with
      | (.error e, s) => (.error e, s)
      | (.ok (), s) =>
        match s.flush with
        | (.error e, s) => (.error e, s)
        | (.ok .stalled, s) => (.error .wouldBlock, s)
        | (.ok .complete, s) =>
          let (used, s) := s.pour data
          (.ok used, s)

/-- Take note of a new window size, and report it if that was agreed. -/
def resize (window : WindowSize) (s : Session) : Except TransportError Unit × Session :=
  let (reported, notes, codec) := s.codec.setWindow window
  let s := { s with codec }.log notes
  if reported then s.sendReplies else (.ok (), s)

/-- Send a command. -/
def sendCommand (command : Command) (s : Session) : Except TransportError Unit × Session :=
  let (notes, codec) := s.codec.sayCommand command
  ({ s with codec }.log notes).sendReplies

end Session
end Telnet
end RemoteTerminal
