/-
# What a connection fails with

A connection passes the errors of its engine on, and an SSH library has no faults of a
transport, so a fault in an error of a connection is one that the transport in use warrants
(`fault_of_perform`); what an engine holds back stays warranted (`Connection.Backed`).  The
one exception is that of the rlogin session: an urgent read that is interrupted
(`Connection.Cut`).

So the question whether a call would block has one answer, whether it is asked of the error
or of the kind that a plain stream shows (`transient_faults_pass`).
-/

import RemoteTerminal.Connection.Run
import RemoteTerminal.Proofs.Connection.Lifecycle
import RemoteTerminal.Proofs.Connection.SessionFaults
import RemoteTerminal.Proofs.Rlogin.OutputStream

namespace RemoteTerminal

/-! ### SSH -/

namespace Ssh.Adapter

/-- The library's faults are none of a transport. -/
theorem failure_ne_io (cf : ChannelFault) (a : Adapter) (r : Record) (f : Fault) :
    (a.failure cf r).1 ≠ .transport (.io f) := by
  cases cf <;> simp [failure]

theorem read_ne_io (room : Nat) (a : Adapter) (r : Record) (f : Fault) :
    (a.read room r).1 ≠ .error (.transport (.io f)) := by
  unfold read
  split
  · simp
  · split
    · simp
    · simp
    all_goals
      dsimp only
      split
      · simp
      · simp
      · simp
      · exact fun h => failure_ne_io _ _ _ f (Except.error.inj h)

theorem write_ne_io (data : Bytes) (a : Adapter) (r : Record) (f : Fault) :
    (a.write data r).1 ≠ .error (.transport (.io f)) := by
  unfold write
  split
  · simp
  · dsimp only
    split
    · simp
    · exact fun h => failure_ne_io _ _ _ f (Except.error.inj h)

theorem resize_ne_io (lines columns : UInt16) (a : Adapter) (r : Record) (f : Fault) :
    (a.resize lines columns r).1 ≠ .error (.transport (.io f)) := by
  unfold resize
  dsimp only
  split
  · simp
  · exact fun h => failure_ne_io _ _ _ f (Except.error.inj h)

end Ssh.Adapter

/-! ### Any engine -/

/-- A line backs the faults in a result of a connection. -/
def Line.BacksFaults {α : Type} (l : Line) (r : Except ConnectionError α) : Prop :=
  ∀ f, r = .error (.transport (.io f)) → l.transport.Warrants (.io f)

theorem Line.backsFaults_of_ne {α : Type} {l : Line} {r : Except ConnectionError α}
    (h : ∀ f, r ≠ .error (.transport (.io f))) : l.BacksFaults r :=
  fun f hf => absurd hf (h f)

theorem Line.Backs.mapError {α : Type} {l : Line} {r : Except TransportError α}
    (h : l.Backs r) : l.BacksFaults (r.mapError .transport) := by
  intro f hf
  cases r with
  | error e =>
    obtain rfl := ConnectionError.transport.inj (Except.error.inj hf)
    exact h.warrants
  | ok a => cases hf

namespace Engine

/-- What an engine holds back is warranted; only telnet holds anything back. -/
def Backed : Engine → Prop
  | telnet s => s.Backed
  | rlogin _ | raw _ | ssh _ _ => True

theorem backed_withLine {e : Engine} {l : Line} (h : e.Backed)
    (hl : e.line.transport = l.transport) : (e.withLine l).Backed := by
  cases e with
  | telnet s => exact fun e he => hl ▸ h e he
  | rlogin | raw | ssh => trivial

theorem backed_create? {protocol : Protocol} {config : Config} {role : Telnet.Role}
    {t : Transport} {e : Engine} (h : create? protocol config role t = some e) : e.Backed := by
  unfold create? at h
  split at h
  · obtain rfl := Option.some.inj h
    exact Telnet.Session.backed_of_none rfl
  · cases h
  · obtain rfl := Option.some.inj h
    trivial
  · obtain rfl := Option.some.inj h
    trivial
  · obtain rfl := Option.some.inj h
    trivial

section Calls

variable {e : Engine} (h : e.Backed)
include h

theorem start_backed : e.start.2.line.Backs e.start.1 ∧ e.start.2.Backed := by
  cases e with
  | telnet s => exact ⟨s.start_backs, h.serves s.deferred_start s.start_serves⟩
  | rlogin s => exact ⟨s.start_backs, trivial⟩
  | raw | ssh => exact ⟨Line.backs_ok _ (), trivial⟩

theorem read_backed (room : Nat) (r : Ssh.Record) :
    (e.read room r).2.1.line.BacksFaults (e.read room r).1 ∧ (e.read room r).2.1.Backed := by
  cases e with
  | telnet s =>
    exact ⟨(s.read_backs room).mapError, h.serves (s.deferred_read room) (s.read_serves room)⟩
  | rlogin s => exact ⟨(s.read_backs room).mapError, trivial⟩
  | raw s => exact ⟨(Intake.read_backs room s.intake s.line).mapError, trivial⟩
  | ssh l a =>
    cases a with
    | none => exact ⟨Line.backsFaults_of_ne (by simp [read]), trivial⟩
    | some a => exact ⟨Line.backsFaults_of_ne (a.read_ne_io room r), trivial⟩

theorem write_backed (data : Bytes) (r : Ssh.Record) :
    (e.write data r).2.1.line.BacksFaults (e.write data r).1 ∧ (e.write data r).2.1.Backed := by
  cases e with
  | telnet s => exact ⟨(s.write_backed data h).1.mapError, (s.write_backed data h).2⟩
  | rlogin s => exact ⟨(s.write_backs data).mapError, trivial⟩
  | raw s => exact ⟨(Outbox.write_backs data s.outbox s.line).mapError, trivial⟩
  | ssh l a =>
    cases a with
    | none => exact ⟨Line.backsFaults_of_ne (by simp [write]), trivial⟩
    | some a => exact ⟨Line.backsFaults_of_ne (a.write_ne_io data r), trivial⟩

theorem flush_backed : e.flush.2.line.Backs e.flush.1 ∧ e.flush.2.Backed := by
  cases e with
  | telnet s => exact ⟨s.flush_backs, h.serves rfl s.flush_serves⟩
  | rlogin s => exact ⟨s.flush_backs, trivial⟩
  | raw s => exact ⟨Outbox.flush_backs s.outbox s.line, trivial⟩
  | ssh l a => exact ⟨Line.backs_ok _ _, trivial⟩

theorem resize_backed (lines columns : UInt16) (r : Ssh.Record) :
    (e.resize lines columns r).2.1.line.BacksFaults (e.resize lines columns r).1 ∧
      (e.resize lines columns r).2.1.Backed := by
  cases e with
  | telnet s =>
    exact ⟨(s.resize_backs _).mapError, h.serves (s.deferred_resize _) (s.resize_serves _)⟩
  | rlogin s => exact ⟨(s.resize_backs lines columns).mapError, trivial⟩
  | raw s => exact ⟨Line.backsFaults_of_ne (by simp [resize]), trivial⟩
  | ssh l a =>
    cases a with
    | none => exact ⟨Line.backsFaults_of_ne (by simp [resize]), trivial⟩
    | some a => exact ⟨Line.backsFaults_of_ne (a.resize_ne_io lines columns r), trivial⟩

/-- Only an rlogin session can have its urgent read cut. -/
theorem readUrgent_backed : (∀ f, e.readUrgent.1 = .io f →
    e.readUrgent.2.line.transport.Warrants (.io f) ∨
      (∃ s, e = .rlogin s ∧ (s.line.urgent 1).1 = .error .interrupted) ∧ f = .interrupted) ∧
    e.readUrgent.2.Backed := by
  cases e with
  | rlogin s =>
    refine ⟨fun f hf => ?_, trivial⟩
    have hf : s.readUrgent.1 = .io f := hf
    by_cases hcut : (s.line.urgent 1).1 = .error .interrupted
    · have hsays := Rlogin.Session.readUrgent_of_interrupted hcut
      exact .inr ⟨⟨s, rfl, hcut⟩, TransportError.io.inj (hf.symm.trans hsays)⟩
    · exact .inl (hf ▸ Rlogin.Session.readUrgent_warrants hcut)
  | telnet | raw | ssh => exact ⟨fun _ hf => (nomatch hf), h⟩

end Calls
end Engine

/-! ### A connection -/

namespace Connection

variable {c : Connection}

/-- What the engine of a connection holds back is warranted. -/
def Backed (c : Connection) : Prop := ∀ e, c.engine = some e → e.Backed

/-- A connection backs the faults in a result: the transport in use warrants them. -/
def Backs {α : Type} (c : Connection) (r : Except ConnectionError α) : Prop :=
  ∀ f, r = .error (.transport (.io f)) → ∃ u, c.transport? = some u ∧ u.Warrants (.io f)

/-- The call is an urgent read of an rlogin session that is interrupted. -/
def Cut (call : Call) (c : Connection) : Prop :=
  call = .readUrgent ∧
    ∃ s, c.engine = some (.rlogin s) ∧ (s.line.urgent 1).1 = .error .interrupted

theorem backed_of_none (h : c.engine = none) : c.Backed := fun _ he => nomatch h.symm.trans he

theorem backs_of_ne {α : Type} {r : Except ConnectionError α}
    (h : ∀ f, r ≠ .error (.transport (.io f))) : c.Backs r := fun f hf => absurd hf (h f)

/-- Taking the notes of an engine over changes nothing about its faults. -/
theorem settle_backed {α : Type} {e : Engine} {r : Except ConnectionError α}
    (h : e.line.BacksFaults r ∧ e.Backed) : (c.settle e).Backs r ∧ (c.settle e).Backed := by
  constructor
  · intro f hf
    refine ⟨e.takeNotes.2.line.transport, rfl, ?_⟩
    rw [Engine.transport_takeNotes]
    exact h.1 f hf
  · intro e' he'
    obtain rfl : e.takeNotes.2 = e' := Option.some.inj he'
    exact Engine.backed_withLine h.2 rfl

/-- No error of handing over a channel is one of the transport. -/
theorem attachSsh_ne_transport (channel : Ssh.Channel) (trusts : String → Ssh.HostKey → Bool)
    (te : TransportError) : (c.attachSsh channel trusts).1 ≠ .error (.transport te) := by
  unfold attachSsh
  split
  · simp
  · simp
  · unfold Ssh.Adapter.attach
    dsimp only
    by_cases htrust : trusts c.hostName channel.hostKey = true
    · simp [htrust]
    · simp [htrust]
  · simp [unsupported]

theorem resize_of_none (h : c.engine = none) (lines columns : UInt16) :
    (c.resize lines columns).1 = .ok () := by
  unfold resize
  cases c
  dsimp only at h
  subst h
  rfl

section Calls

variable (h : c.Backed)
include h

theorem read_backed (room : Nat) : (c.read room).2.Backs (c.read room).1 ∧
    (c.read room).2.Backed := by
  unfold read
  split
  · exact ⟨backs_of_ne (by simp), h⟩
  · rename_i e he
    exact settle_backed (c := { c with record := (e.read room c.record).2.2 })
      (Engine.read_backed (h e he) room c.record)

theorem write_backed (data : Bytes) : (c.write data).2.Backs (c.write data).1 ∧
    (c.write data).2.Backed := by
  unfold write
  split
  · exact ⟨backs_of_ne (by simp), h⟩
  · rename_i e he
    exact settle_backed (c := { c with record := (e.write data c.record).2.2 })
      (Engine.write_backed (h e he) data c.record)

theorem flush_backed : c.flush.2.Backs c.flush.1 ∧ c.flush.2.Backed := by
  unfold flush
  split
  · exact ⟨backs_of_ne (by simp), h⟩
  · rename_i e he
    obtain ⟨hbacks, hbacked⟩ := Engine.flush_backed (h e he)
    exact settle_backed ⟨hbacks.mapError, hbacked⟩

theorem resize_backed (lines columns : UInt16) :
    (c.resize lines columns).2.Backs (c.resize lines columns).1 ∧
      (c.resize lines columns).2.Backed := by
  unfold resize
  dsimp only
  split
  · exact ⟨backs_of_ne (by simp), h⟩
  · rename_i e he
    exact settle_backed (Engine.resize_backed (h e he) lines columns _)

theorem sendCommand_backed (command : Telnet.Command) :
    (c.sendCommand command).2.Backs (c.sendCommand command).1 ∧
      (c.sendCommand command).2.Backed := by
  unfold sendCommand
  split
  · exact ⟨backs_of_ne (by simp), h⟩
  · rename_i s he
    have hbacked : (s.sendCommand command).2.Backed :=
      Telnet.Session.backed_perform (.command command) (h _ he)
    exact settle_backed (e := .telnet (s.sendCommand command).2)
      ⟨(s.sendCommand_backs command).mapError, hbacked⟩
  · exact ⟨backs_of_ne (by simp [unsupported]), h⟩

theorem readUrgent_backed :
    (∀ f, c.readUrgent.1 = .transport (.io f) →
      (∃ u, c.readUrgent.2.transport? = some u ∧ u.Warrants (.io f)) ∨
        Cut .readUrgent c ∧ f = .interrupted) ∧ c.readUrgent.2.Backed := by
  unfold readUrgent
  split
  · exact ⟨fun _ hf => (nomatch hf), h⟩
  · rename_i e he
    obtain ⟨hurgent, hbacked⟩ := Engine.readUrgent_backed (h e he)
    have hsettle := settle_backed (c := c) (r := (.ok () : Except ConnectionError Unit))
      ⟨Line.backsFaults_of_ne (by simp), hbacked⟩
    refine ⟨fun f hf => ?_, hsettle.2⟩
    rcases hurgent f (ConnectionError.transport.inj hf) with hwarrants | ⟨⟨s, rfl, hcut⟩, hf'⟩
    · refine .inl ⟨e.readUrgent.2.takeNotes.2.line.transport, rfl, ?_⟩
      rwa [Engine.transport_takeNotes]
    · exact .inr ⟨⟨rfl, s, he, hcut⟩, hf'⟩

/-- Handing over a channel puts nothing to the transport. -/
theorem attachSsh_backed (channel : Ssh.Channel) (trusts : String → Ssh.HostKey → Bool) :
    (c.attachSsh channel trusts).2.Backs (c.attachSsh channel trusts).1 ∧
      (c.attachSsh channel trusts).2.Backed := by
  refine ⟨backs_of_ne fun f => attachSsh_ne_transport channel trusts (.io f), ?_⟩
  unfold attachSsh
  split
  · exact h
  · exact h
  · split
    · intro e he
      obtain rfl := Option.some.inj he
      trivial
    · exact backed_of_none (engine_close _)
  · exact h

/-- **A fault in the error of a call** is one that the transport warrants, or the
interruption of an urgent read. -/
theorem fault_of_perform {call : Call} {f : Fault}
    (he : (c.perform call).1.error? = some (.transport (.io f))) :
    (∃ u, (c.perform call).2.transport? = some u ∧ u.Warrants (.io f)) ∨
      Cut call c ∧ f = .interrupted := by
  cases call with
  | read room => exact .inl ((read_backed h room).1 f (eq_error_of_errorOf he))
  | readUrgent => exact (readUrgent_backed h).1 f (Option.some.inj he)
  | write data => exact .inl ((write_backed h data).1 f (eq_error_of_errorOf he))
  | flush => exact .inl ((flush_backed h).1 f (eq_error_of_errorOf he))
  | resize lines columns =>
    exact .inl ((resize_backed h lines columns).1 f (eq_error_of_errorOf he))
  | command command => exact .inl ((sendCommand_backed h command).1 f (eq_error_of_errorOf he))
  | attachSsh channel trusts =>
    exact .inl ((attachSsh_backed h channel trusts).1 f (eq_error_of_errorOf he))
  | close => cases he

/-- Every call keeps what is held back warranted. -/
theorem backed_perform (call : Call) : (c.perform call).2.Backed := by
  cases call with
  | read room => exact (read_backed h room).2
  | readUrgent => exact (readUrgent_backed h).2
  | write data => exact (write_backed h data).2
  | flush => exact (flush_backed h).2
  | resize lines columns => exact (resize_backed h lines columns).2
  | command command => exact (sendCommand_backed h command).2
  | attachSsh channel trusts => exact (attachSsh_backed h channel trusts).2
  | close => exact backed_of_none (engine_close c)

end Calls

theorem backed_run (calls : List Call) (h : c.Backed) : (c.run calls).2.Backed := by
  induction calls generalizing c with
  | nil => exact h
  | cons call rest ih => exact ih (backed_perform h call)

/-- An urgent read that is interrupted says so. -/
theorem error_of_cut {call : Call} (h : Cut call c) :
    (c.perform call).1.error? = some (.transport (.io .interrupted)) := by
  obtain ⟨rfl, s, hs, hcut⟩ := h
  have hurgent := Rlogin.Session.readUrgent_of_interrupted hcut
  simp only [perform, readUrgent, hs, Engine.readUrgent, hurgent]
  rfl

section Made

variable (t : Transport) (protocol : Protocol) (config : Config) (role : Telnet.Role)

/-- A connection is made with nothing held back, or it is not made, and its transport
warrants the fault. -/
theorem ofTransport_backed : (ofTransport t protocol config role).2.Backs
      (ofTransport t protocol config role).1 ∧
    (ofTransport t protocol config role).2.Backed := by
  unfold ofTransport establish
  split
  · exact ⟨backs_of_ne (by simp [unsupported]), backed_of_none rfl⟩
  · rename_i e he
    obtain ⟨hbacks, hbacked⟩ := Engine.start_backed (Engine.backed_create? he)
    split
    · rename_i error e' hs
      rw [hs] at hbacks
      refine ⟨fun f hf => ⟨e'.line.transport, rfl, ?_⟩, backed_of_none rfl⟩
      obtain rfl := ConnectionError.transport.inj (Except.error.inj hf)
      exact hbacks.warrants
    · rename_i e' hs
      rw [hs] at hbacked
      have hsettle := settle_backed (c := { protocol, config }) (e := e')
        (r := (.ok () : Except ConnectionError Unit)) ⟨Line.backsFaults_of_ne (by simp), hbacked⟩
      exact ⟨backs_of_ne (by simp), hsettle.2⟩

end Made

/-- A call that would block leaves the connection established: what ends it has no such
error, and what is refused has not either. -/
theorem isConnected_of_wouldBlock {call : Call} {c : Connection}
    (h : (c.perform call).1.error? = some (.transport .wouldBlock)) :
    (c.perform call).2.isConnected = true := by
  cases he : c.engine with
  | none =>
    have hrefuses := refuses_of_none he
    cases call with
    | read room => rw [perform, hrefuses.read] at h; cases h
    | readUrgent => rw [perform, hrefuses.readUrgent] at h; cases h
    | write data => rw [perform, hrefuses.write] at h; cases h
    | flush => rw [perform, hrefuses.flush] at h; cases h
    | resize lines columns =>
      have herror := (resize_of_none he lines columns).symm.trans (eq_error_of_errorOf h)
      cases herror
    | command command => rw [perform, hrefuses.command] at h; cases h
    | attachSsh channel trusts => rw [perform, hrefuses.attachSsh] at h; cases h
    | close => cases h
  | some e =>
    rcases perform_of_engine he call with ⟨-, hgoes⟩ | ⟨hends, -⟩
    · obtain ⟨-, e', -, he', -⟩ := hgoes.engine
      simp [isConnected, he']
    · cases call with
      | attachSsh channel trusts =>
        exact absurd (eq_error_of_errorOf h) (attachSsh_ne_transport channel trusts .wouldBlock)
      | close => cases h
      | _ => simp [Call.ends] at hends

/-! ### What a plain stream shows -/

end Connection

namespace ConnectionError

/-- Unless the error has a transient fault, blocking is shown for what would block. -/
theorem toStream_wouldBlock_iff {e : ConnectionError}
    (h : e ≠ .transport (.io .wouldBlock)) :
    e.toStream.fault = .wouldBlock ↔ e.isWouldBlock = true := by
  cases e with
  | transport te =>
    cases te with
    | io f =>
      have hf : f ≠ .wouldBlock := fun hf => h (hf ▸ rfl)
      simpa [toStream, StreamError.ofFault, isWouldBlock, TransportError.isWouldBlock] using hf
    | _ => simp [toStream, StreamError.ofFault, isWouldBlock, TransportError.isWouldBlock]
  | _ => simp [toStream, StreamError.ofFault, isWouldBlock]

theorem toStream_interrupted_iff (e : ConnectionError) :
    e.toStream.fault = .interrupted ↔ e = .transport (.io .interrupted) := by
  unfold toStream
  split <;> simp_all [StreamError.ofFault]

end ConnectionError

theorem exists_of_errorOf_mapError {ε ε' α : Type} {r : Except ε α} {g : ε → ε'} {e' : ε'}
    (h : errorOf (r.mapError g) = some e') : ∃ e, errorOf r = some e ∧ g e = e' := by
  cases r with
  | error e => exact ⟨e, rfl, Option.some.inj h⟩
  | ok a => cases h

/-- A plain stream shows the errors there are, and a flush that stalls as one. -/
theorem Outcome.error?_toStream {o : Outcome ConnectionError} {shown : StreamError}
    (h : o.toStream.error? = some shown) :
    (∃ e, o.error? = some e ∧ e.toStream = shown) ∨
      o = .flushed (.ok .stalled) ∧ shown = .ofFault .wouldBlock := by
  cases o with
  | nothing => cases h
  | done r => exact .inl (exists_of_errorOf_mapError h)
  | data r => exact .inl (exists_of_errorOf_mapError h)
  | count r => exact .inl (exists_of_errorOf_mapError h)
  | flushed r =>
    match r with
    | .ok .complete => cases h
    | .ok .stalled => exact .inr ⟨rfl, (Option.some.inj h).symm⟩
    | .error e => exact .inl ⟨e, rfl, Option.some.inj h⟩
  | taken bytes => cases h
  | due what => cases h

/-- Blocking is shown for a flush that stalls and for an error that would block. -/
theorem Outcome.shows_wouldBlock_iff {o : Outcome ConnectionError} {shown : StreamError}
    (h : o.toStream.error? = some shown) (hne : o.error? ≠ some (.transport (.io .wouldBlock))) :
    shown.fault = .wouldBlock ↔
      o = .flushed (.ok .stalled) ∨ ∃ e, o.error? = some e ∧ e.isWouldBlock = true := by
  rcases error?_toStream h with ⟨e, he, rfl⟩ | ⟨rfl, rfl⟩
  · have hkind := ConnectionError.toStream_wouldBlock_iff (e := e) fun heq => hne (heq ▸ he)
    rw [hkind]
    constructor
    · exact fun hw => .inr ⟨e, he, hw⟩
    · rintro (rfl | ⟨e', he', hw⟩)
      · cases he
      · rwa [Option.some.inj (he.symm.trans he')]
  · exact iff_of_true rfl (.inl rfl)

theorem Outcome.shows_interrupted_iff {o : Outcome ConnectionError} {shown : StreamError}
    (h : o.toStream.error? = some shown) :
    shown.fault = .interrupted ↔ o.error? = some (.transport (.io .interrupted)) := by
  rcases error?_toStream h with ⟨e, he, rfl⟩ | ⟨rfl, rfl⟩
  · rw [ConnectionError.toStream_interrupted_iff, he, Option.some.injEq]
  · exact iff_of_false nofun nofun

/-- **What is transient passes.**  This is so for every transport, whatever it answers, and
for every run of a session or of a connection.  A call fails by blocking, or with a hard
fault that the transport has shown; a fault that passes by itself is no error of its own.

* So it is with telnet, which may report such a fault in a later write, and with raw.
* So it is with rlogin, but that an urgent read which is interrupted fails with just this
  fault.
* A connection adds no fault: it is made, or not, and called with the faults that its
  transport warrants, and with that of an urgent read.
* A call would block exactly if a plain stream is shown that it would, which a flush that
  stalls is shown as well, and the connection is established after it. -/
theorem Connection.transient_faults_pass (t : Transport) :
    (∀ role terminal size timeout calls call e,
      let s := ((Telnet.Session.fresh role terminal size timeout t).run calls).2
      (s.perform call).1.error? = some e → (s.perform call).2.line.transport.Warrants e) ∧
    (∀ size calls call e,
      let s := ((Raw.Session.create size t.unused).run calls).2
      (s.perform call).1.error? = some e → (s.perform call).2.line.transport.Warrants e) ∧
    (∀ login size timeout calls call,
      let s := ((Rlogin.Session.fresh login size timeout t).run calls).2
      (∀ e, (s.perform call).1.error? = some e → e ≠ .io .interrupted →
        (s.perform call).2.line.transport.Warrants e) ∧
      ((s.perform call).1.error? = some (.io .interrupted) ↔ Rlogin.Session.Cut call s)) ∧
    (∀ protocol config role calls call,
      let first := ofTransport t.unused protocol config role
      let c := (first.2.run calls).2
      let c' := (c.perform call).2
      let outcome := (c.perform call).1
      first.2.Backs first.1 ∧
      (∀ f, outcome.error? = some (.transport (.io f)) → f ≠ .interrupted →
        ∃ u, c'.transport? = some u ∧ u.Warrants (.io f)) ∧
      (outcome.error? = some (.transport (.io .interrupted)) ↔ Cut call c) ∧
      (∀ e, outcome.error? = some e →
        (e.toStream.fault = .wouldBlock ↔ e.isWouldBlock = true) ∧
        (e.isWouldBlock = true → c'.isConnected = true)) ∧
      (∀ shown, outcome.toStream.error? = some shown →
        (shown.fault = .wouldBlock ↔ outcome = .flushed (.ok .stalled) ∨
          ∃ e, outcome.error? = some e ∧ e.isWouldBlock = true) ∧
        (shown.fault = .interrupted ↔ Cut call c))) := by
  refine ⟨?_, ?_, ?_, ?_⟩
  · intro role terminal size timeout calls call e s he
    exact Telnet.Session.warrants_of_perform
      (Telnet.Session.backed_run calls (Telnet.Session.backed_of_none rfl)) he
  · intro size calls call e s he
    exact Raw.Session.warrants_of_perform he
  · intro login size timeout calls call s
    refine ⟨fun e he hne => ?_, fun he => ?_, Rlogin.Session.error_of_cut⟩
    · rcases Rlogin.Session.warrants_of_perform he with hwarrants | ⟨-, heq⟩
      · exact hwarrants
      · exact absurd heq hne
    · rcases Rlogin.Session.warrants_of_perform he with hwarrants | ⟨hcut, -⟩
      · exact nomatch hwarrants.isTransient_eq_false
      · exact hcut
  · intro protocol config role calls call first c c' outcome
    obtain ⟨hfirst, hbacked⟩ := ofTransport_backed t.unused protocol config role
    have hc : c.Backed := backed_run calls hbacked
    have hcut : outcome.error? = some (.transport (.io .interrupted)) ↔ Cut call c := by
      refine ⟨fun he => ?_, error_of_cut⟩
      rcases fault_of_perform hc he with ⟨u, -, hwarrants⟩ | ⟨hcut, -⟩
      · exact nomatch hwarrants.isTransient_eq_false
      · exact hcut
    have hblock : outcome.error? ≠ some (.transport (.io .wouldBlock)) := by
      intro he
      rcases fault_of_perform hc he with ⟨u, -, hwarrants⟩ | ⟨-, hf⟩
      · exact nomatch hwarrants.isTransient_eq_false
      · exact nomatch hf
    refine ⟨hfirst, fun f he hne => ?_, hcut, fun e he => ⟨?_, fun hw => ?_⟩, fun shown hs => ?_⟩
    · rcases fault_of_perform hc he with hwarrants | ⟨-, heq⟩
      · exact hwarrants
      · exact absurd heq hne
    · exact ConnectionError.toStream_wouldBlock_iff fun heq => hblock (heq ▸ he)
    · have heq : e = .transport .wouldBlock := by
        cases e <;> simp_all [ConnectionError.isWouldBlock, TransportError.isWouldBlock]
      exact isConnected_of_wouldBlock (heq ▸ he)
    · rw [← hcut]
      exact ⟨Outcome.shows_wouldBlock_iff hs hblock, Outcome.shows_interrupted_iff hs⟩

/-- The server's urgent data is cut off by a signal.  The call could be made again at once,
but a client that polls is told that the connection has failed. -/
theorem Rlogin.Session.urgent_read_cut :
    let s := fresh {} 4096 5000 { urgentIn := [.error .interrupted] }
    (s.run [.start, .readUrgent]).1 = [.done (.ok ()), .data (.error (.io .interrupted))] ∧
      (ConnectionError.transport (.io .interrupted)).isWouldBlock = false := by
  intro s
  constructor
  · with_unfolding_all rfl
  · rfl

end RemoteTerminal
