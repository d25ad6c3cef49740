/-
# What an engine does with its transport

Every session reads, writes and asks for urgent bytes through its stream buffers, so
every call of it serves its line (`Line.Serves`), also one that fails.  An SSH engine
leaves its line alone.  The transport of an engine is shut down only when the engine is.
-/

import RemoteTerminal.Connection.Engine
import RemoteTerminal.Proofs.Rlogin.Steps
import RemoteTerminal.Proofs.Stream.Service
import RemoteTerminal.Proofs.Telnet.Steps

namespace RemoteTerminal

/-! ### Telnet -/

namespace Telnet.Session

theorem flush_serves (s : Session) : s.line.Serves s.flush.2.line := Outbox.flush_serves ..

theorem sendReplies_serves (s : Session) : s.line.Serves s.sendReplies.2.line := by
  unfold sendReplies
  dsimp only
  split
  · exact .refl _
  · exact Outbox.flushRetry_serves ..

theorem start_serves (s : Session) : s.line.Serves s.start.2.line := by
  unfold start
  split
  · exact .refl _
  · exact sendReplies_serves ({ s with codec := s.codec.start.2, progress := .sentOptions }.log
      (s.codec.start.1 ++ [Note.debug "Sending telnet options"]))

theorem respondAndDeliver_serves (room : Nat) (s : Session) :
    s.line.Serves (s.respondAndDeliver room).2.line := by
  have hsend := sendReplies_serves s
  have hresponds := respondAndDeliver_respondsBy room s
  generalize s.respondAndDeliver room = result at hresponds ⊢
  cases hresponds with
  | silent h => exact .refl _
  | said h hs => exact hsend
  | unsent h hs hp => exact hsend
  | passedOver h hs hp => exact hsend.log _

theorem refill_serves (room : Nat) (s : Session) : s.line.Serves (s.refill room).2.line := by
  have hfill : s.line.Serves s.filled.line :=
    Intake.fill_serves s.intake.capacity s.intake s.line
  have hrefills := refill_refillsBy room s
  generalize s.refill room = result at hrefills ⊢
  cases hrefills with
  | failed hf => exact hfill
  | absorbed hf => exact hfill.trans (respondAndDeliver_serves room s.filled.absorb)

theorem read_serves (room : Nat) (s : Session) : s.line.Serves (s.read room).2.line := by
  have hstart := start_serves s
  have hreads := read_readsBy room s
  generalize s.read room = result at hreads ⊢
  cases hreads with
  | nothing hr => exact .refl _
  | unstarted hr hs => exact hstart
  | carried hr hs hp => exact hstart
  | notice hr hs hp hdue => exact hstart.log _
  | closed hr hs hp hdue => exact hstart
  | refilled hr hs hp hdue =>
    exact hstart.trans
      (refill_serves room { s.start.2 with intake := s.start.2.intake.poll.2 })

/-- The loop of `write`, by induction on its rounds. -/
theorem pour_serves (data : Bytes) (s : Session) : s.line.Serves (s.pour data).2.line := by
  have hround (data : Bytes) (s : Session) : s.line.Serves (s.framed data).flush.2.line :=
    flush_serves (s.framed data)
  have hpours := pour_poursBy data s
  generalize s.pour data = result at hpours ⊢
  induction hpours with
  | done h => exact .refl _
  | complete hsome hdata hf hrest ih => exact (hround _ _).trans ih
  | stalled hsome hdata hf => exact hround _ _
  | failed hsome hdata hf => exact (hround _ _).log _

theorem write_serves (data : Bytes) (s : Session) : s.line.Serves (s.write data).2.line := by
  have hstart := start_serves s
  have hflush := hstart.trans (flush_serves s.start.2)
  have hgoes := write_goes data s
  generalize s.write data = result at hgoes ⊢
  cases hgoes with
  | reported e h => exact (Line.Serves.refl s.line).log _
  | nothing h hdata => exact .refl _
  | unstarted h hdata hs => exact hstart
  | unsent h hdata hf => exact hflush
  | stalled h hdata hf => exact hflush
  | poured h hdata hf => exact hflush.trans (pour_serves data s.start.2.flush.2)

theorem resize_serves (window : WindowSize) (s : Session) :
    s.line.Serves (s.resize window).2.line := by
  unfold resize
  dsimp only
  split
  · exact sendReplies_serves
      ({ s with codec := (s.codec.setWindow window).2.2 }.log (s.codec.setWindow window).2.1)
  · exact (Line.Serves.refl s.line).log _

theorem sendCommand_serves (c : Command) (s : Session) :
    s.line.Serves (s.sendCommand c).2.line :=
  sendReplies_serves
    ({ s with codec := (s.codec.sayCommand c).2 }.log (s.codec.sayCommand c).1)

end Telnet.Session

/-! ### Rlogin -/

namespace Rlogin.Session

theorem push_serves (bytes : Bytes) (s : Session) : s.line.Serves (s.push bytes).2.line :=
  Outbox.flushRetry_serves ..

theorem start_serves (s : Session) : s.line.Serves s.start.2.line := by
  unfold start
  split
  · exact .refl _
  · exact push_serves s.login.frame
      ({ s with progress := .sentLogin }.note (.debug "Sending rlogin login"))

theorem read_serves (room : Nat) (s : Session) : s.line.Serves (s.read room).2.line := by
  have hstart := start_serves s
  have hreads := read_readsBy room s
  generalize s.read room = result at hreads ⊢
  cases hreads with
  | unstarted hs => exact hstart
  | started hs => exact hstart.trans (Intake.read_serves ..)

theorem sendWindow_serves (s : Session) : s.line.Serves s.sendWindow.2.line :=
  push_serves (windowMessage s.login.lines s.login.columns)
    (s.note (.debug "Sending window size"))

theorem applyModes_serves (byte : UInt8) (s : Session) :
    s.line.Serves (s.applyModes byte).line := by
  have htransport : (s.applyModes byte).line.transport = s.line.transport := by
    unfold applyModes
    dsimp only
    repeat' split
    all_goals rfl
  rw [Line.Serves, htransport]
  exact .refl _

theorem handleControl_serves (byte : UInt8) (s : Session) :
    s.line.Serves (s.handleControl byte).2.line := by
  have hsend : s.line.Serves s.asked.sendWindow.2.line := sendWindow_serves s.asked
  have hheeds := handleControl_heedsBy byte s
  generalize s.handleControl byte = result at hheeds ⊢
  cases hheeds with
  | unreported hwindow hs => exact hsend
  | reported hwindow hs => exact hsend.trans (applyModes_serves byte s.asked.sendWindow.2)
  | unasked hwindow => exact applyModes_serves byte s

theorem readUrgent_serves (s : Session) : s.line.Serves s.readUrgent.2.line := by
  have hurgent : s.line.Serves s.polled.line := (Transport.Serves.refl _).urgent 1
  have htakes := readUrgent_takesBy s
  generalize s.readUrgent = result at htakes ⊢
  cases htakes with
  | heeded hb hc => exact hurgent.trans (handleControl_serves _ s.polled)
  | unheeded hb hc => exact hurgent.trans (handleControl_serves _ s.polled)
  | nothing hb => exact hurgent
  | failed hb => exact hurgent

theorem write_serves (data : Bytes) (s : Session) : s.line.Serves (s.write data).2.line := by
  have hstart := start_serves s
  have hwrites := write_writesBy data s
  generalize s.write data = result at hwrites ⊢
  cases hwrites with
  | unstarted hs => exact hstart
  | started hs => exact hstart.trans (Outbox.write_serves ..)

theorem flush_serves (s : Session) : s.line.Serves s.flush.2.line := Outbox.flush_serves ..

theorem resize_serves (lines columns : UInt16) (s : Session) :
    s.line.Serves (s.resize lines columns).2.line := by
  unfold resize
  dsimp only
  split
  · exact sendWindow_serves { s with login := { s.login with lines, columns } }
  · exact .refl _

end Rlogin.Session

/-! ### Any engine -/

namespace Engine

/-- An engine comes up on the transport that it was made for. -/
theorem transport_of_create? {protocol : Protocol} {config : Config} {role : Telnet.Role}
    {t : Transport} {e : Engine} (h : create? protocol config role t = some e) :
    e.line.transport = t := by
  unfold create? at h
  split at h
  · obtain rfl := Option.some.inj h
    rfl
  · cases h
  · obtain rfl := Option.some.inj h
    rfl
  · obtain rfl := Option.some.inj h
    rfl
  · obtain rfl := Option.some.inj h
    rfl

theorem start_serves (e : Engine) : e.line.Serves e.start.2.line := by
  cases e with
  | telnet s => exact Telnet.Session.start_serves s
  | rlogin s => exact Rlogin.Session.start_serves s
  | raw s => exact .refl _
  | ssh l a => exact .refl _

theorem read_serves (room : Nat) (e : Engine) (r : Ssh.Record) :
    e.line.Serves (e.read room r).2.1.line := by
  cases e with
  | telnet s => exact Telnet.Session.read_serves room s
  | rlogin s => exact Rlogin.Session.read_serves room s
  | raw s => exact Intake.read_serves ..
  | ssh l a =>
    cases a with
    | none => exact .refl _
    | some a => exact .refl _

theorem readUrgent_serves (e : Engine) : e.line.Serves e.readUrgent.2.line := by
  cases e with
  | rlogin s => exact Rlogin.Session.readUrgent_serves s
  | telnet | raw | ssh => exact .refl _

theorem write_serves (data : Bytes) (e : Engine) (r : Ssh.Record) :
    e.line.Serves (e.write data r).2.1.line := by
  cases e with
  | telnet s => exact Telnet.Session.write_serves data s
  | rlogin s => exact Rlogin.Session.write_serves data s
  | raw s => exact Outbox.write_serves ..
  | ssh l a =>
    cases a with
    | none => exact .refl _
    | some a => exact .refl _

theorem flush_serves (e : Engine) : e.line.Serves e.flush.2.line := by
  cases e with
  | telnet s => exact Telnet.Session.flush_serves s
  | rlogin s => exact Rlogin.Session.flush_serves s
  | raw s => exact Outbox.flush_serves ..
  | ssh l a => exact .refl _

theorem resize_serves (lines columns : UInt16) (e : Engine) (r : Ssh.Record) :
    e.line.Serves (e.resize lines columns r).2.1.line := by
  cases e with
  | telnet s => exact Telnet.Session.resize_serves _ s
  | rlogin s => exact Rlogin.Session.resize_serves lines columns s
  | raw s => exact .refl _
  | ssh l a =>
    cases a with
    | none => exact .refl _
    | some a => exact .refl _

/-- Shutting an engine down shuts its transport down. -/
theorem shutdown_transport (e : Engine) (r : Ssh.Record) :
    (e.shutdown r).1 = e.line.transport.shutdown := by
  cases e with
  | telnet | rlogin | raw => rfl
  | ssh l a =>
    cases a with
    | none => rfl
    | some a => rfl

/-- The notes are all that an engine gives away with them. -/
@[simp] theorem transport_takeNotes (e : Engine) :
    e.takeNotes.2.line.transport = e.line.transport := by
  cases e <;> rfl

end Engine
end RemoteTerminal
