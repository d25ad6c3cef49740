/-
# What a session fails with

The errors of a session come from its stream buffers, so what these warrant (see
`Transport.Warrants`) a session warrants as well: each call of a telnet, an rlogin or a raw
session fails by blocking or with a hard fault that its transport has shown.  A fault that
strikes a telnet write after some bytes were accepted is reported by a later write, and is
warranted then since it was warranted when it was held back (`Telnet.Session.Backed`).

One place makes an exception.  An urgent read of an rlogin session that is interrupted is
neither made again nor taken for one that would block: it fails with the interruption
(`Rlogin.Session.Cut`).
-/

import RemoteTerminal.Proofs.Connection.Service
import RemoteTerminal.Proofs.Stream.Faults
import RemoteTerminal.Proofs.Telnet.View
import RemoteTerminal.Raw.Run
import RemoteTerminal.Rlogin.Run

namespace RemoteTerminal

/-! ### Telnet -/

namespace Telnet.Session

theorem flush_backs (s : Session) : s.flush.2.line.Backs s.flush.1 :=
  Outbox.flush_backs s.outbox s.line

theorem sendReplies_backs (s : Session) : s.sendReplies.2.line.Backs s.sendReplies.1 := by
  unfold sendReplies
  dsimp only
  split
  · exact Line.backs_ok _ ()
  · exact Line.Backs.map (Outbox.flushRetry_backs s.timeout _ s.line) _

theorem start_backs (s : Session) : s.start.2.line.Backs s.start.1 := by
  unfold start
  split
  · exact Line.backs_ok _ ()
  · exact sendReplies_backs _

theorem deliverOrBlock_backs (room : Nat) (s : Session) :
    (s.deliverOrBlock room).2.line.Backs (s.deliverOrBlock room).1 := by
  unfold deliverOrBlock deliver
  dsimp only
  split
  · exact Line.backs_wouldBlock _
  · exact Line.backs_ok _ _

theorem respondAndDeliver_backs (room : Nat) (s : Session) :
    (s.respondAndDeliver room).2.line.Backs (s.respondAndDeliver room).1 := by
  have hsend := sendReplies_backs s
  have hresponds := respondAndDeliver_respondsBy room s
  generalize s.respondAndDeliver room = result at hresponds ⊢
  cases hresponds with
  | silent h => exact deliverOrBlock_backs room s
  | said h hs => exact deliverOrBlock_backs room _
  | unsent h hs hp =>
    rw [hs] at hsend
    exact hsend.of_error
  | passedOver h hs hp => exact deliverOrBlock_backs room _

theorem refill_backs (room : Nat) (s : Session) :
    (s.refill room).2.line.Backs (s.refill room).1 := by
  have hrefills := refill_refillsBy room s
  generalize s.refill room = result at hrefills ⊢
  cases hrefills with
  | failed hf =>
    have hfill := Intake.fill_backs s.intake.capacity s.intake s.line
    rw [hf] at hfill
    exact hfill.of_error
  | absorbed hf => exact respondAndDeliver_backs room _

theorem read_backs (room : Nat) (s : Session) : (s.read room).2.line.Backs (s.read room).1 := by
  have hstart := start_backs s
  have hreads := read_readsBy room s
  generalize s.read room = result at hreads ⊢
  cases hreads with
  | nothing hr => exact Line.backs_ok _ []
  | unstarted hr hs =>
    rw [hs] at hstart
    exact hstart.of_error
  | carried hr hs hp => exact Line.backs_ok _ _
  | notice hr hs hp hdue => exact Line.backs_ok _ _
  | closed hr hs hp hdue => exact Line.backs_ok _ []
  | refilled hr hs hp hdue => exact refill_backs room _

theorem resize_backs (window : WindowSize) (s : Session) :
    (s.resize window).2.line.Backs (s.resize window).1 := by
  unfold resize
  dsimp only
  split
  · exact sendReplies_backs _
  · exact Line.backs_ok _ ()

theorem sendCommand_backs (c : Command) (s : Session) :
    (s.sendCommand c).2.line.Backs (s.sendCommand c).1 := sendReplies_backs _

/-! What is held back -/

/-- What a session holds back is warranted. -/
def Backed (s : Session) : Prop := ∀ e, s.deferred = some e → s.line.transport.Warrants e

/-- A fault that is held back stays warranted while the transport is served. -/
theorem Backed.serves {s s' : Session} (h : s.Backed) (hd : s'.deferred = s.deferred)
    (hs : s.line.Serves s'.line) : s'.Backed :=
  fun e he => (h e (hd ▸ he)).serves hs

theorem backed_of_none {s : Session} (h : s.deferred = none) : s.Backed :=
  fun _ he => by cases h.symm.trans he

/-- Only a write holds anything back or lets it go. -/
theorem deferred_start (s : Session) : s.start.2.deferred = s.deferred := by
  have hview : s.start.2.deferred = s.view.start.deferred :=
    congrArg View.deferred (view_start s)
  rw [hview, View.start]
  split <;> rfl

theorem deferred_resize (window : WindowSize) (s : Session) :
    (s.resize window).2.deferred = s.deferred := by
  have hview : (s.resize window).2.deferred = (s.view.resize window).deferred :=
    congrArg View.deferred (view_resize window s)
  rw [hview, View.resize]
  split <;> rfl

theorem deferred_refill (room : Nat) (s : Session) :
    (s.refill room).2.deferred = s.deferred := by
  have hrefills := refill_refillsBy room s
  generalize s.refill room = result at hrefills ⊢
  cases hrefills with
  | failed hf => rfl
  | absorbed hf => exact congrArg View.deferred (respondAndDeliver_gives room _).2

theorem deferred_read (room : Nat) (s : Session) : (s.read room).2.deferred = s.deferred := by
  have hstart := deferred_start s
  have hreads := read_readsBy room s
  generalize s.read room = result at hreads ⊢
  cases hreads with
  | nothing hr => rfl
  | unstarted hr hs => exact hstart
  | carried hr hs hp => exact hstart
  | notice hr hs hp hdue => exact hstart
  | closed hr hs hp hdue => exact hstart
  | refilled hr hs hp hdue => exact (deferred_refill room _).trans hstart

/-- The loop of `write` holds back what a flush of its own has failed with; by induction on
its rounds. -/
theorem pour_backed (data : Bytes) {s : Session} (h : s.Backed) : (s.pour data).2.Backed := by
  have hround (data : Bytes) {s : Session} (h : s.Backed) : (s.framed data).flush.2.Backed :=
    h.serves rfl (flush_serves (s.framed data))
  have hpours := pour_poursBy data s
  generalize s.pour data = result at hpours ⊢
  induction hpours with
  | done hnone => exact h
  | complete hsome hdata hf hrest ih => exact ih (hround _ h)
  | stalled hsome hdata hf => exact hround _ h
  | @failed data s hsome hdata e hf =>
    have hbacks := flush_backs (s.framed data)
    rw [hf] at hbacks
    intro e' he'
    obtain rfl : e = e' := Option.some.inj he'
    exact hbacks.warrants

/-- A write fails with what was held back before, or in sending what was pending; what it
holds back itself it has failed with. -/
theorem write_backed (data : Bytes) {s : Session} (h : s.Backed) :
    (s.write data).2.line.Backs (s.write data).1 ∧ (s.write data).2.Backed := by
  have hstart : s.start.2.Backed := h.serves (deferred_start s) (start_serves s)
  have hflush : s.start.2.flush.2.Backed := hstart.serves rfl (flush_serves s.start.2)
  have hgoes := write_goes data s
  generalize s.write data = result at hgoes ⊢
  cases hgoes with
  | reported e hd => exact ⟨Line.backs_error (h e hd), backed_of_none rfl⟩
  | nothing hd hdata => exact ⟨Line.backs_ok _ 0, h⟩
  | unstarted hd hdata hs =>
    have hbacks := start_backs s
    rw [hs] at hbacks
    exact ⟨hbacks.of_error, hstart⟩
  | unsent hd hdata hf =>
    have hbacks := flush_backs s.start.2
    rw [hf] at hbacks
    exact ⟨hbacks.of_error, hflush⟩
  | stalled hd hdata hf => exact ⟨Line.backs_wouldBlock _, hflush⟩
  | poured hd hdata hf => exact ⟨Line.backs_ok _ _, pour_backed data hflush⟩

/-- Every call keeps what is held back warranted. -/
theorem backed_perform (call : Call) {s : Session} (h : s.Backed) : (s.perform call).2.Backed := by
  cases call with
  | start => exact h.serves (deferred_start s) (start_serves s)
  | read room => exact h.serves (deferred_read room s) (read_serves room s)
  | write data => exact (write_backed data h).2
  | flush => exact h.serves rfl (flush_serves s)
  | resize window => exact h.serves (deferred_resize window s) (resize_serves window s)
  | command c =>
    exact h.serves (congrArg View.deferred (view_sendCommand c s)) (sendCommand_serves c s)

theorem backed_run (calls : List Call) {s : Session} (h : s.Backed) : (s.run calls).2.Backed := by
  induction calls generalizing s with
  | nil => exact h
  | cons call rest ih => exact ih (backed_perform call h)

/-- **A telnet session fails with what its transport warrants.** -/
theorem warrants_of_perform {call : Call} {s : Session} {e : TransportError} (h : s.Backed)
    (he : (s.perform call).1.error? = some e) :
    (s.perform call).2.line.transport.Warrants e := by
  cases call with
  | start => exact start_backs s e (eq_error_of_errorOf he)
  | read room => exact read_backs room s e (eq_error_of_errorOf he)
  | write data => exact (write_backed data h).1 e (eq_error_of_errorOf he)
  | flush => exact flush_backs s e (eq_error_of_errorOf he)
  | resize window => exact resize_backs window s e (eq_error_of_errorOf he)
  | command c => exact sendCommand_backs c s e (eq_error_of_errorOf he)

end Telnet.Session

/-! ### Raw -/

/-- **A raw session fails with what its transport warrants.** -/
theorem Raw.Session.warrants_of_perform {call : Call} {s : Session} {e : TransportError}
    (he : (s.perform call).1.error? = some e) :
    (s.perform call).2.line.transport.Warrants e := by
  cases call with
  | read room => exact Intake.read_backs room s.intake s.line e (eq_error_of_errorOf he)
  | write data => exact Outbox.write_backs data s.outbox s.line e (eq_error_of_errorOf he)
  | flush => exact Outbox.flush_backs s.outbox s.line e (eq_error_of_errorOf he)

/-! ### Rlogin -/

namespace Rlogin.Session

theorem push_backs (bytes : Bytes) (s : Session) : (s.push bytes).2.line.Backs (s.push bytes).1 :=
  Line.Backs.map (Outbox.flushRetry_backs s.timeout (s.outbox.extend bytes) s.line) _

theorem start_backs (s : Session) : s.start.2.line.Backs s.start.1 := by
  unfold start
  split
  · exact Line.backs_ok _ ()
  · exact push_backs _ _

theorem read_backs (room : Nat) (s : Session) : (s.read room).2.line.Backs (s.read room).1 := by
  have hreads := read_readsBy room s
  generalize s.read room = result at hreads ⊢
  cases hreads with
  | unstarted hs =>
    have hstart := start_backs s
    rw [hs] at hstart
    exact hstart.of_error
  | started hs => exact Intake.read_backs room s.start.2.intake s.start.2.line

theorem write_backs (data : Bytes) (s : Session) :
    (s.write data).2.line.Backs (s.write data).1 := by
  have hwrites := write_writesBy data s
  generalize s.write data = result at hwrites ⊢
  cases hwrites with
  | unstarted hs =>
    have hstart := start_backs s
    rw [hs] at hstart
    exact hstart.of_error
  | started hs => exact Outbox.write_backs data s.start.2.outbox s.start.2.line

theorem flush_backs (s : Session) : s.flush.2.line.Backs s.flush.1 :=
  Outbox.flush_backs s.outbox s.line

theorem sendWindow_backs (s : Session) : s.sendWindow.2.line.Backs s.sendWindow.1 :=
  push_backs _ _

theorem resize_backs (lines columns : UInt16) (s : Session) :
    (s.resize lines columns).2.line.Backs (s.resize lines columns).1 := by
  unfold resize
  dsimp only
  split
  · exact sendWindow_backs _
  · exact Line.backs_ok _ ()

theorem handleControl_backs (byte : UInt8) (s : Session) :
    (s.handleControl byte).2.line.Backs (s.handleControl byte).1 := by
  have hheeds := handleControl_heedsBy byte s
  generalize s.handleControl byte = result at hheeds ⊢
  cases hheeds with
  | unreported hwindow hs =>
    have hsend := sendWindow_backs s.asked
    rwa [hs] at hsend
  | reported hwindow hs => exact Line.backs_ok _ ()
  | unasked hwindow => exact Line.backs_ok _ ()

/-- The call is an urgent read that is interrupted. -/
def Cut (call : Call) (s : Session) : Prop :=
  call = .readUrgent ∧ (s.line.urgent 1).1 = .error .interrupted

theorem readUrgent_of_interrupted {s : Session} (h : (s.line.urgent 1).1 = .error .interrupted) :
    s.readUrgent.1 = .io .interrupted := by
  simp [readUrgent, h, Fault.isWouldBlock]

/-- An urgent read that is not interrupted fails with what the transport warrants. -/
theorem readUrgent_warrants {s : Session} (h : (s.line.urgent 1).1 ≠ .error .interrupted) :
    s.readUrgent.2.line.transport.Warrants s.readUrgent.1 := by
  have htakes := readUrgent_takesBy s
  generalize s.readUrgent = result at htakes ⊢
  cases htakes with
  | heeded hb hc => exact .wouldBlock
  | @unheeded byte hb e hc =>
    have hcontrol := handleControl_backs byte s.polled
    rw [hc] at hcontrol
    exact hcontrol.warrants
  | nothing hb => exact .wouldBlock
  | @failed f hf =>
    dsimp only
    split
    · exact .wouldBlock
    · rename_i hb
      have hi : f.isInterrupted = false := by
        simpa [Fault.isInterrupted] using fun hf' : f = .interrupted => h (hf' ▸ hf)
      have hne : f ≠ .wouldBlock := by simpa [Fault.isWouldBlock] using hb
      exact .hard (by simp [Fault.isTransient, hi, hb]) (Line.shows_of_urgent hf hne)

/-- **An rlogin session fails with what its transport warrants**, or with the interruption
of an urgent read. -/
theorem warrants_of_perform {call : Call} {s : Session} {e : TransportError}
    (he : (s.perform call).1.error? = some e) :
    (s.perform call).2.line.transport.Warrants e ∨ Cut call s ∧ e = .io .interrupted := by
  cases call with
  | start => exact .inl (start_backs s e (eq_error_of_errorOf he))
  | read room => exact .inl (read_backs room s e (eq_error_of_errorOf he))
  | readUrgent =>
    obtain rfl : s.readUrgent.1 = e := Option.some.inj he
    by_cases hcut : (s.line.urgent 1).1 = .error .interrupted
    · exact .inr ⟨⟨rfl, hcut⟩, readUrgent_of_interrupted hcut⟩
    · exact .inl (readUrgent_warrants hcut)
  | write data => exact .inl (write_backs data s e (eq_error_of_errorOf he))
  | flush => exact .inl (flush_backs s e (eq_error_of_errorOf he))
  | resize lines columns => exact .inl (resize_backs lines columns s e (eq_error_of_errorOf he))

/-- An urgent read that is interrupted says so. -/
theorem error_of_cut {call : Call} {s : Session} (h : Cut call s) :
    (s.perform call).1.error? = some (.io .interrupted) := by
  obtain ⟨rfl, hcut⟩ := h
  exact congrArg some (readUrgent_of_interrupted hcut)

end Rlogin.Session

end RemoteTerminal
