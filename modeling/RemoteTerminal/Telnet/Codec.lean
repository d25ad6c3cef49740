/-
# The telnet codec

A codec is one end of a telnet connection without the connection: bytes from the
wire go in and come out as payload, and what the codec has to say by itself
(requests, answers, reports) collects in its `replies`.

The decoder takes one byte at a time (`step`), so a stream may be fed in any
pieces: `decode_append` says that decoding two pieces in turn is decoding them
together.

| state | a byte that is `IAC` | any other byte |
| --- | --- | --- |
| `data` | `command` | payload |
| `command` | a literal `IAC`, `data` | verb: `negotiate`; `SB`: `gather`; else `data` |
| `negotiate v` | an option byte like any other | answers `v`, `data` |
| `gather` | `gatherCommand` | kept |
| `gatherCommand` | a literal `IAC` is kept, `gather` | `SE`: handled, `data`; else dropped, `gather` |
-/

import RemoteTerminal.Journal
import RemoteTerminal.Telnet.Command
import RemoteTerminal.Telnet.Flags
import RemoteTerminal.Telnet.Framing
import RemoteTerminal.Telnet.Response
import RemoteTerminal.Telnet.Subnegotiation

namespace RemoteTerminal
namespace Telnet

/-- Where the decoder stands in the telnet grammar. -/
inductive DecoderState where
  /-- Between items. -/
  | data
  /-- After `IAC`. -/
  | command
  /-- After `IAC` and a verb. -/
  | negotiate (verb : Verb)
  /-- Inside a subnegotiation. -/
  | gather
  /-- After `IAC` inside a subnegotiation. -/
  | gatherCommand
  deriving DecidableEq, Repr

/-- One end of a telnet connection. -/
structure Codec where
  role : Role := .client
  /-- The terminal on this side. -/
  terminal : Terminal := {}
  flags : Flags := {}
  /-- What this side last said. -/
  announced : Announced := .none
  state : DecoderState := .data
  /-- A carriage return is held back. -/
  pendingCr : Bool := false
  /-- The subnegotiation that is being received, its option byte first. -/
  gathered : Bytes := []
  /-- The subnegotiation is too long and will be dropped. -/
  overflow : Bool := false
  /-- What this side has to say and has not been taken yet. -/
  replies : Bytes := []
  /-- The terminal type that the peer reported. -/
  peerTerminalType : Option String := none
  /-- The window size that the peer reported. -/
  peerWindow : Option WindowSize := none

/-- What decoding brings forth besides the next codec. -/
structure Decoded where
  payload : Bytes := []
  notes : List Note := []
  deriving DecidableEq, Repr

namespace Decoded

/-- What two stretches of a stream bring forth together. -/
def append (a b : Decoded) : Decoded := ⟨a.payload ++ b.payload, a.notes ++ b.notes⟩

instance : Append Decoded := ⟨append⟩

@[simp] theorem payload_append (a b : Decoded) : (a ++ b).payload = a.payload ++ b.payload := rfl

@[simp] theorem notes_append (a b : Decoded) : (a ++ b).notes = a.notes ++ b.notes := rfl

theorem append_assoc (a b c : Decoded) : a ++ b ++ c = a ++ (b ++ c) := by
  show Decoded.mk _ _ = Decoded.mk _ _
  simp [List.append_assoc]

end Decoded

namespace Codec

/-- Add bytes to what this side has to say. -/
def reply (bytes : Bytes) (c : Codec) : Codec := { c with replies := c.replies ++ bytes }

/-- Say a verb about an option. -/
def sayVerb (verb : Verb) (option : TelnetOption) (c : Codec) : List Note × Codec :=
  ([.debug s!"Sending {verb} {option}"],
    { c with announced := c.announced.say verb option }.reply
      [Code.iac, verb.toByte, option.toByte])

/-- Say a verb about an option, unless that is what was last said about it. -/
def announce (verb : Verb) (option : TelnetOption) (c : Codec) : List Note × Codec :=
  if c.announced.repeats verb option then ([], c) else c.sayVerb verb option

/-- Say several verbs. -/
def announceAll : List (Verb × TelnetOption) → Codec → List Note × Codec
  | [], c => ([], c)
  | (verb, option) :: rest, c =>
    let (notes, c) := c.announce verb option
    let (more, c) := announceAll rest c
    (notes ++ more, c)

/-- Say what this side asks for at the beginning. -/
def start (c : Codec) : List Note × Codec := c.announceAll (initialRequests c.role)

/-- Report the size of this side's window. -/
def sayWindow (c : Codec) : List Note × Codec :=
  ([.debug "Sending NAWS"], c.reply (Telnet.reportWindow c.terminal.window))

/-- Take note of a new window size; whether it was reported to the peer. -/
def setWindow (window : WindowSize) (c : Codec) : Bool × List Note × Codec :=
  let c := { c with terminal := { c.terminal with window } }
  if c.role = .client ∧ c.flags.windowSize then
    let (notes, c) := c.sayWindow
    (true, notes, c)
  else (false, [], c)

/-- Say a command. -/
def sayCommand (command : Command) (c : Codec) : List Note × Codec :=
  ([.debug s!"Sending IAC {command}"], c.reply command.bytes)

/-- Whether this side has something to say. -/
def hasReplies (c : Codec) : Bool := c.replies ≠ []

/-- Take what this side has to say. -/
def takeReplies (c : Codec) : Bytes × Codec := (c.replies, { c with replies := [] })

/-- Give up the carriage return that is held back: the stream has ended. -/
def releaseCr (c : Codec) : Bytes × Codec :=
  (Return.release c.pendingCr, { c with pendingCr := false })

/-- Frame payload in the mode that is in effect. -/
def encode (data : Bytes) (c : Codec) : Bytes := Telnet.encode c.flags.binaryMode data

/-- Frame as much payload as fits into `limit` bytes, and say how much that is. -/
def encodeWithin (limit : Nat) (data : Bytes) (c : Codec) : Nat × Bytes :=
  Telnet.encodeWithin c.flags.binaryMode limit data

/-- What an option calls for when it comes on. -/
def followUp : FollowUp → Codec → List Note × Codec
  | .nothing, c => ([], c)
  | .reportWindow, c => c.sayWindow
  | .askTerminalType, c =>
    ([.debug "Requesting terminal type"], c.reply Telnet.askTerminalType)

/-- Answer a verb about an option. -/
def negotiate (verb : Verb) (option : TelnetOption) (c : Codec) : List Note × Codec :=
  let heard : List Note := [.debug s!"Received {verb} {option}"]
  match respond c.role option verb with
  | .ignore => (heard, c)
  | .refuse answer =>
    let (notes, c) := c.sayVerb answer option
    (heard ++ notes, c)
  | .agree on answer next =>
    let comesOn := on && !c.flags.isOn option
    let (notes, c) := { c with flags := c.flags.set option on }.announce answer option
    let (more, c) := if comesOn then c.followUp next else ([], c)
    (heard ++ notes ++ more, c)

/-- Keep one byte of a subnegotiation, if there is room. -/
def gather (byte : UInt8) (c : Codec) : List Note × Codec :=
  if subnegotiationLimit ≤ c.gathered.length then
    (if c.overflow then [] else [.warn "Subnegotiation exceeds buffer, it will be dropped"],
      { c with overflow := true })
  else ([], { c with gathered := c.gathered ++ [byte] })

/-- Act on the parameters of an option. -/
def handle (option : UInt8) (data : Bytes) (c : Codec) : Except TelnetError (List Note × Codec) :=
  match c.role, TelnetOption.ofByte option with
  | .client, .terminalType =>
    (afterVerb option Code.send data).map fun _ =>
      ([.debug "Sending TTYPE IS"], c.reply (reportTerminalType c.terminal.terminalType))
  | .client, .terminalSpeed =>
    (afterVerb option Code.send data).map fun _ =>
      ([.debug "Sending TSPEED IS"], c.reply reportSpeed)
  | .client, .environment =>
    (afterVerb option Code.send data).map fun _ =>
      ([.debug "Sending NEW-ENVIRON IS"], c.reply (reportEnvironment c.terminal))
  | .server, .terminalType =>
    (readTerminalType data).map fun name =>
      ([.debug "Peer terminal type"], { c with peerTerminalType := some name })
  | .server, .windowSize =>
    (WindowSize.ofBytes data).map fun window =>
      ([.debug "Peer window size"], { c with peerWindow := some window })
  | _, other =>
    .ok ([.debug s!"Ignoring subnegotiation for {other} ({data.length} bytes)"], c)

/-- Act on a complete subnegotiation, and forget it. -/
def finish (c : Codec) : List Note × Codec :=
  let gathered := c.gathered
  let overflow := c.overflow
  let c := { c with gathered := [], overflow := false }
  if overflow then
    let error : TelnetError :=
      .subnegotiation (gathered.headD 0) (.overflow subnegotiationLimit)
    ([.warn error.message], c)
  else
    match gathered with
    | [] => ([.warn "Received empty subnegotiation"], c)
    | option :: data =>
      match c.handle option data with
      | .ok (notes, c) => (notes, c)
      | .error e => ([.warn e.message], c)

/-- What a byte after `IAC` means, `IAC` itself apart. -/
def interpret (byte : UInt8) (c : Codec) : List Note × Codec :=
  if byte = Code.sb then ([], { c with state := .gather, gathered := [], overflow := false })
  else
    match Verb.ofByte? byte with
    | some verb => ([], { c with state := .negotiate verb })
    | none =>
      let known := byte = Code.se ∨ (Command.ofByte? byte).isSome
      (if known then [] else [.warn ("Received Unknown Command 0x" ++ Hexadecimal.short byte)],
        { c with state := .data })

/-- Decode one byte. -/
def step (byte : UInt8) (c : Codec) : Decoded × Codec :=
  match c.state with
  | .data =>
    if byte = Code.iac then ({}, { c with state := .command })
    else
      let (payload, pendingCr) := Return.step c.flags.binaryMode c.pendingCr byte
      ({ payload }, { c with pendingCr })
  | .command =>
    if byte = Code.iac then
      ({ payload := Return.release c.pendingCr ++ [Code.iac] },
        { c with state := .data, pendingCr := false })
    else
      let (notes, c) := c.interpret byte
      ({ notes }, c)
  | .negotiate verb =>
    let (notes, c) := { c with state := .data }.negotiate verb (TelnetOption.ofByte byte)
    ({ notes }, c)
  | .gather =>
    if byte = Code.iac then ({}, { c with state := .gatherCommand })
    else
      let (notes, c) := c.gather byte
      ({ notes }, c)
  | .gatherCommand =>
    if byte = Code.iac then
      let (notes, c) := { c with state := .gather }.gather Code.iac
      ({ notes }, c)
    else if byte = Code.se then
      let (notes, c) := { c with state := .data }.finish
      ({ notes }, c)
    else
      ({ notes := [.warn ("Received Unknown or invalid Command during Subnegotiation 0x" ++
          Hexadecimal.short byte ++ ". Dropped")] },
        { c with state := .gather })

/-- Decode bytes from the wire. -/
def decode : Bytes → Codec → Decoded × Codec
  | [], c => ({}, c)
  | byte :: rest, c =>
    let (first, c) := c.step byte
    let (more, c) := decode rest c
    (first ++ more, c)

/-- Decode what a framed stream holds; there is nothing to hand on if it was all
protocol. -/
def decodeFrame (source : Bytes) (c : Codec) : Option Bytes × List Note × Codec :=
  let (decoded, c) := c.decode source
  (if decoded.payload = [] then none else some decoded.payload, decoded.notes, c)

/-- **A stream may be cut anywhere:** decoding two pieces in turn is decoding them
together. -/
theorem decode_append (a b : Bytes) (c : Codec) :
    c.decode (a ++ b) =
      ((c.decode a).1 ++ ((c.decode a).2.decode b).1, ((c.decode a).2.decode b).2) := by
  induction a generalizing c with
  | nil => rfl
  | cons byte rest ih => simp [decode, ih, Decoded.append_assoc]

/-- Decode pieces of a stream in order. -/
def decodeAll : List Bytes → Codec → Decoded × Codec
  | [], c => ({}, c)
  | piece :: rest, c =>
    let (first, c) := c.decode piece
    let (more, c) := decodeAll rest c
    (first ++ more, c)

/-- However a stream is cut, decoding its pieces is decoding the stream. -/
theorem decodeAll_eq_decode (pieces : List Bytes) (c : Codec) :
    c.decodeAll pieces = c.decode pieces.flatten := by
  induction pieces generalizing c with
  | nil => rfl
  | cons piece rest ih => simp [decodeAll, ih, decode_append]

end Codec
end Telnet
end RemoteTerminal
