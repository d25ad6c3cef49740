/-
# How the calls of an rlogin session can go

A read and a write log in first, and get no further if that fails.  An urgent read takes a
byte, or none; a byte is acted on to its end, unless it asks for the window and the report
cannot be sent.  For each of these calls a relation lists the ways it can go, with what was
found on each, and a theorem says that it goes one of them.

| call | ways |
| --- | --- |
| `read` | `ReadsBy` |
| `write` | `WritesBy` |
| `handleControl` | `HeedsBy` |
| `readUrgent` | `TakesBy` |
-/

import RemoteTerminal.Rlogin.Session

namespace RemoteTerminal
namespace Rlogin
namespace Session

/-! ### Payload -/

/-- How a read of at most `room` bytes can go. -/
inductive ReadsBy (room : Nat) (s : Session) : Except TransportError Bytes × Session → Prop where
  /-- The login cannot be sent. -/
  | unstarted {e : TransportError} (hs : s.start.1 = .error e) :
    ReadsBy room s (.error e, s.start.2)
  /-- The stream is read. -/
  | started (hs : s.start.1 = .ok ()) :
    ReadsBy room s
      ((s.start.2.intake.read room s.start.2.line).1,
        { s.start.2 with
          intake := (s.start.2.intake.read room s.start.2.line).2.1
          line := (s.start.2.intake.read room s.start.2.line).2.2 })

theorem read_readsBy (room : Nat) (s : Session) : ReadsBy room s (s.read room) := by
  unfold Session.read
  split
  · rename_i e s' hs
    obtain rfl : s.start.2 = s' := congrArg Prod.snd hs
    exact .unstarted (congrArg Prod.fst hs)
  · rename_i s' hs
    obtain rfl : s.start.2 = s' := congrArg Prod.snd hs
    exact .started (congrArg Prod.fst hs)

/-- How a write of some data can go. -/
inductive WritesBy (data : Bytes) (s : Session) : Except TransportError Nat × Session → Prop where
  /-- The login cannot be sent. -/
  | unstarted {e : TransportError} (hs : s.start.1 = .error e) :
    WritesBy data s (.error e, s.start.2)
  /-- The stream is written. -/
  | started (hs : s.start.1 = .ok ()) :
    WritesBy data s
      ((s.start.2.outbox.write data s.start.2.line).1,
        { s.start.2 with
          outbox := (s.start.2.outbox.write data s.start.2.line).2.1
          line := (s.start.2.outbox.write data s.start.2.line).2.2 })

theorem write_writesBy (data : Bytes) (s : Session) : WritesBy data s (s.write data) := by
  unfold Session.write
  split
  · rename_i e s' hs
    obtain rfl : s.start.2 = s' := congrArg Prod.snd hs
    exact .unstarted (congrArg Prod.fst hs)
  · rename_i s' hs
    obtain rfl : s.start.2 = s' := congrArg Prod.snd hs
    exact .started (congrArg Prod.fst hs)

/-! ### Urgent bytes -/

/-- A session whose window was asked for. -/
def asked (s : Session) : Session :=
  { s with progress := .established }.note (.debug "Server requested window size")

/-- How an urgent byte can be acted on. -/
inductive HeedsBy (byte : UInt8) (s : Session) : Except TransportError Unit × Session → Prop where
  /-- It asks for the window, and the report cannot be sent. -/
  | unreported (hwindow : Control.has byte Control.window = true) {e : TransportError}
    (hs : s.asked.sendWindow.1 = .error e) : HeedsBy byte s (.error e, s.asked.sendWindow.2)
  /-- It asks for the window. -/
  | reported (hwindow : Control.has byte Control.window = true)
    (hs : s.asked.sendWindow.1 = .ok ()) :
    HeedsBy byte s (.ok (), s.asked.sendWindow.2.applyModes byte)
  /-- It does not. -/
  | unasked (hwindow : Control.has byte Control.window = false) :
    HeedsBy byte s (.ok (), s.applyModes byte)

theorem handleControl_heedsBy (byte : UInt8) (s : Session) :
    HeedsBy byte s (s.handleControl byte) := by
  unfold handleControl
  split
  · rename_i hwindow
    split
    · rename_i e s' hs
      obtain rfl : s.asked.sendWindow.2 = s' := congrArg Prod.snd hs
      exact .unreported hwindow (congrArg Prod.fst hs)
    · rename_i s' hs
      obtain rfl : s.asked.sendWindow.2 = s' := congrArg Prod.snd hs
      exact .reported hwindow (congrArg Prod.fst hs)
  · rename_i hwindow
    exact .unasked (Bool.eq_false_iff.2 hwindow)

/-- A session with the line that asking for an urgent byte leaves. -/
def polled (s : Session) : Session := { s with line := (s.line.urgent 1).2 }

/-- How an urgent read can go. -/
inductive TakesBy (s : Session) : TransportError × Session → Prop where
  /-- It takes a byte, which is acted on to its end. -/
  | heeded {byte : UInt8} (hb : (s.line.urgent 1).1 = .ok [byte])
    (hc : (s.polled.handleControl byte).1 = .ok ()) :
    TakesBy s (.wouldBlock, (s.polled.handleControl byte).2)
  /-- It takes a byte, whose report cannot be sent. -/
  | unheeded {byte : UInt8} (hb : (s.line.urgent 1).1 = .ok [byte]) {e : TransportError}
    (hc : (s.polled.handleControl byte).1 = .error e) :
    TakesBy s (e, (s.polled.handleControl byte).2)
  /-- There is none. -/
  | nothing (hb : ∀ byte, (s.line.urgent 1).1 ≠ .ok [byte]) : TakesBy s (.wouldBlock, s.polled)
  /-- The line fails. -/
  | failed {f : Fault} (hb : (s.line.urgent 1).1 = .error f) :
    TakesBy s (if f.isWouldBlock then .wouldBlock else .io f, s.polled)

theorem readUrgent_takesBy (s : Session) : TakesBy s s.readUrgent := by
  unfold readUrgent
  dsimp only
  split
  · rename_i byte hb
    split
    · rename_i e s' hc
      obtain rfl : (s.polled.handleControl byte).2 = s' := congrArg Prod.snd hc
      exact .unheeded hb (congrArg Prod.fst hc)
    · rename_i s' hc
      obtain rfl : (s.polled.handleControl byte).2 = s' := congrArg Prod.snd hc
      exact .heeded hb (congrArg Prod.fst hc)
  · rename_i data hmany hb
    exact .nothing fun byte h => hmany byte (Except.ok.inj (hb.symm.trans h))
  · rename_i f hb
    exact .failed hb

end Session
end Rlogin
end RemoteTerminal
