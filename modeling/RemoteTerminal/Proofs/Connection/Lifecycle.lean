/-
# The life of a connection

A connection is established once, when it is made, and ends once: it is closed, or it is
handed a channel whose host key is rejected (`Call.ends`), or it is dropped, which closes
it.  A call of an established connection either leaves it established, over the same
transport, which was served and no more (`GoesOn`), or ends it, which shuts the transport
down and moves the tally by one (`Ended`); a call of any other connection leaves the
transport and the tally alone (`Rests`).  `perform_of_engine` and `perform_of_none` say that
there is nothing else.

So opened, closed and open connections balance after every call, and with them the
shutdowns of the transport (`Balance`).  `lifecycle` puts this together.
-/

import RemoteTerminal.Connection.Run
import RemoteTerminal.Proofs.Connection.Service

namespace RemoteTerminal

/-- Shutting down is one more call, unless the transport has no shutdown of its own. -/
theorem Transport.shutdowns_shutdown (t : Transport) :
    t.shutdown.shutdowns = t.shutdowns + if t.dataOnly then 0 else 1 := by
  unfold shutdown
  split
  · rfl
  · simp [shutdowns, record, Exchange.isShutdown]

@[simp] theorem Transport.dataOnly_shutdown (t : Transport) : t.shutdown.dataOnly = t.dataOnly := by
  unfold shutdown
  split <;> rfl

namespace Connection

/-- Whether a call ends an established connection: it closes it, or hands it a channel
whose host key is rejected. -/
def Call.ends (call : Call) (c : Connection) : Bool :=
  match call, c.engine with
  | .close, some _ => true
  | .attachSsh channel trusts, some (.ssh _ none) => !trusts c.hostName channel.hostKey
  | _, _ => false

/-! ### What a call can do -/

/-- An established connection stays established, and its transport was served. -/
structure GoesOn (c c' : Connection) : Prop where
  engine : ∃ e e', c.engine = some e ∧ c'.engine = some e' ∧ e.line.Serves e'.line
  opened_eq : c'.tally.opened = c.tally.opened
  closed_eq : c'.tally.closed = c.tally.closed
  active_eq : c'.tally.active = c.tally.active

/-- An established connection has ended: its transport is shut down and counted. -/
structure Ended (c c' : Connection) : Prop where
  engine : ∃ e, c.engine = some e ∧ c'.engine = none ∧
    c'.released = some e.line.transport.shutdown
  opened_eq : c'.tally.opened = c.tally.opened
  closed_eq : c'.tally.closed = c.tally.closed + 1
  active_eq : c'.tally.active = c.tally.active - 1

/-- A connection that is not established stays so, and nothing is done or counted. -/
structure Rests (c c' : Connection) : Prop where
  engine_eq : c.engine = none
  engine_eq' : c'.engine = none
  released_eq : c'.released = c.released
  tally_eq : c'.tally = c.tally

theorem Rests.refl {c : Connection} (h : c.engine = none) : Rests c c := ⟨h, h, rfl, rfl⟩

theorem Rests.trans {c c' c'' : Connection} (h : Rests c c') (h' : Rests c' c'') : Rests c c'' :=
  ⟨h.engine_eq, h'.engine_eq', h'.released_eq.trans h.released_eq, h'.tally_eq.trans h.tally_eq⟩

theorem Rests.transport?_eq {c c' : Connection} (h : Rests c c') :
    c'.transport? = c.transport? := by
  simp [transport?, h.engine_eq, h.engine_eq', h.released_eq]

section Calls

variable {c : Connection} {e e' : Engine}

/-- A connection whose engine has served its transport goes on; what is noted and what is
counted of the bytes have no part in it. -/
theorem goesOn_settle (h : c.engine = some e) (hserves : e.line.Serves e'.line)
    (record : Ssh.Record) : GoesOn c ({ c with record }.settle e') := by
  refine ⟨⟨e, e'.takeNotes.2, h, rfl, ?_⟩, rfl, rfl, rfl⟩
  rw [Line.Serves, Engine.transport_takeNotes]
  exact hserves

theorem goesOn_refl (h : c.engine = some e) : GoesOn c c :=
  ⟨⟨e, e, h, h, .refl _⟩, rfl, rfl, rfl⟩

theorem goesOn_read (h : c.engine = some e) (room : Nat) : GoesOn c (c.read room).2 := by
  have hsettle := goesOn_settle h (e.read_serves room c.record) (e.read room c.record).2.2
  unfold read
  rw [h]
  exact ⟨hsettle.engine, hsettle.opened_eq, hsettle.closed_eq, hsettle.active_eq⟩

theorem goesOn_readUrgent (h : c.engine = some e) : GoesOn c c.readUrgent.2 := by
  unfold readUrgent
  rw [h]
  exact goesOn_settle h e.readUrgent_serves c.record

theorem goesOn_write (h : c.engine = some e) (data : Bytes) : GoesOn c (c.write data).2 := by
  have hsettle := goesOn_settle h (e.write_serves data c.record) (e.write data c.record).2.2
  unfold write
  rw [h]
  exact ⟨hsettle.engine, hsettle.opened_eq, hsettle.closed_eq, hsettle.active_eq⟩

theorem goesOn_flush (h : c.engine = some e) : GoesOn c c.flush.2 := by
  unfold flush
  rw [h]
  exact goesOn_settle h e.flush_serves c.record

theorem goesOn_resize (h : c.engine = some e) (lines columns : UInt16) :
    GoesOn c (c.resize lines columns).2 := by
  let remembered := { c with config := { c.config with lines, columns } }.note (.debug "Resize")
  have hsettle := goesOn_settle (c := remembered) h
    (e.resize_serves lines columns remembered.record)
    (e.resize lines columns remembered.record).2.2
  unfold resize
  dsimp only
  rw [show (note (.debug "Resize") { c with config := { c.config with lines, columns } }).engine =
    some e from h]
  exact ⟨hsettle.engine, hsettle.opened_eq, hsettle.closed_eq, hsettle.active_eq⟩

theorem goesOn_sendCommand (h : c.engine = some e) (command : Telnet.Command) :
    GoesOn c (c.sendCommand command).2 := by
  unfold sendCommand
  rw [h]
  cases e with
  | telnet s =>
    have hserves : (Engine.telnet s).line.Serves (Engine.telnet (s.sendCommand command).2).line :=
      Telnet.Session.sendCommand_serves command s
    exact goesOn_settle h hserves c.record
  | rlogin | raw | ssh => exact goesOn_refl h

/-! ### The end -/

theorem ended_disconnect (h : c.engine = some e) : Ended c c.disconnect := by
  unfold disconnect
  rw [h]
  exact ⟨⟨e, h, rfl, congrArg some (Engine.shutdown_transport e _)⟩, rfl, rfl, rfl⟩

theorem rests_disconnect (h : c.engine = none) : Rests c c.disconnect := by
  unfold disconnect
  rw [h]
  exact .refl h

/-- Giving up a listening address and a connect in progress is no part of the end. -/
theorem stop_eq (c : Connection) :
    c.stopListening.stopPending.engine = c.engine ∧
      c.stopListening.stopPending.released = c.released ∧
      c.stopListening.stopPending.tally = c.tally := by
  have hlistening : c.stopListening.engine = c.engine ∧ c.stopListening.released = c.released ∧
      c.stopListening.tally = c.tally := by
    unfold stopListening
    split <;> exact ⟨rfl, rfl, rfl⟩
  unfold stopPending
  split <;> exact hlistening

/-- Closing ends a connection that is established. -/
theorem ended_close (h : c.engine = some e) : Ended c c.close := by
  obtain ⟨hengine, -, htally⟩ := stop_eq c
  have hend := ended_disconnect (c := { c.stopListening.stopPending with candidates := [] })
    (hengine.trans h)
  obtain ⟨e', he', hnone, hreleased⟩ := hend.engine
  exact ⟨⟨e', hengine.symm.trans he', hnone, hreleased⟩, htally ▸ hend.opened_eq,
    htally ▸ hend.closed_eq, htally ▸ hend.active_eq⟩

/-- Closing does nothing to a connection that is not. -/
theorem rests_close (h : c.engine = none) : Rests c c.close := by
  obtain ⟨hengine, hreleased, htally⟩ := stop_eq c
  have hrest := rests_disconnect (c := { c.stopListening.stopPending with candidates := [] })
    (hengine.trans h)
  exact ⟨h, hrest.engine_eq', hrest.released_eq.trans hreleased, hrest.tally_eq.trans htally⟩

theorem ended_close_record (h : c.engine = some e) (record : Ssh.Record) :
    Ended c { c with record }.close := by
  have hend := ended_close (c := { c with record }) h
  exact ⟨hend.engine, hend.opened_eq, hend.closed_eq, hend.active_eq⟩

section Attach

variable {l : Line} {channel : Ssh.Channel} {trusts : String → Ssh.HostKey → Bool}

theorem attachSsh_of_trusted (h : c.engine = some (.ssh l none))
    (ht : trusts c.hostName channel.hostKey = true) :
    c.attachSsh channel trusts = (.ok (), { c with
      engine := some (.ssh l (some { channel, host := c.hostName }))
      record := (c.record.add (.trust c.hostName channel.hostKey true)).note
        (.debug "SSH session attached") }) := by
  simp only [attachSsh, h, Ssh.Adapter.attach, ht, if_true]

theorem attachSsh_of_rejected (h : c.engine = some (.ssh l none))
    (ht : trusts c.hostName channel.hostKey = false) :
    c.attachSsh channel trusts =
      (.error (.untrustedHost c.hostName channel.hostKey.fingerprint),
        ({ c with
          record := ((c.record.add (.trust c.hostName channel.hostKey false)).note
            (.warn "Host key rejected")).add .close } : Connection).close) := by
  simp only [attachSsh, h, Ssh.Adapter.attach, ht, Bool.false_eq_true, if_false]

end Attach

/-- Handing over a channel ends the connection if its host key is rejected, and else
leaves it as it is but for the channel. -/
theorem attachSsh_cases (h : c.engine = some e) (channel : Ssh.Channel)
    (trusts : String → Ssh.HostKey → Bool) :
    let call := Call.attachSsh channel trusts
    (call.ends c = false ∧ GoesOn c (c.attachSsh channel trusts).2) ∨
      (call.ends c = true ∧ Ended c (c.attachSsh channel trusts).2) := by
  intro call
  cases e with
  | telnet | rlogin | raw =>
    simp only [call, attachSsh, Call.ends, h]
    exact .inl ⟨trivial, goesOn_refl h⟩
  | ssh l a =>
    cases a with
    | some a =>
      simp only [call, attachSsh, Call.ends, h]
      exact .inl ⟨trivial, goesOn_refl h⟩
    | none =>
      have hends : call.ends c = !trusts c.hostName channel.hostKey := by
        simp only [call, Call.ends, h]
      cases ht : trusts c.hostName channel.hostKey with
      | true =>
        rw [hends, ht, attachSsh_of_trusted h ht]
        exact .inl ⟨rfl, ⟨⟨_, _, h, rfl, .refl l⟩, rfl, rfl, rfl⟩⟩
      | false =>
        rw [hends, ht, attachSsh_of_rejected h ht]
        exact .inr ⟨rfl, ended_close_record h _⟩

/-! ### One call -/

/-- **What a call can do to an established connection**: it leaves it established, or it
ends it. -/
theorem perform_of_engine (h : c.engine = some e) (call : Call) :
    (call.ends c = false ∧ GoesOn c (c.perform call).2) ∨
      (call.ends c = true ∧ Ended c (c.perform call).2) := by
  cases call with
  | read room => exact .inl ⟨rfl, goesOn_read h room⟩
  | readUrgent => exact .inl ⟨rfl, goesOn_readUrgent h⟩
  | write data => exact .inl ⟨rfl, goesOn_write h data⟩
  | flush => exact .inl ⟨rfl, goesOn_flush h⟩
  | resize lines columns => exact .inl ⟨rfl, goesOn_resize h lines columns⟩
  | command command => exact .inl ⟨rfl, goesOn_sendCommand h command⟩
  | attachSsh channel trusts => exact attachSsh_cases h channel trusts
  | close =>
    have hends : Call.ends .close c = true := by simp only [Call.ends, h]
    exact .inr ⟨hends, ended_close h⟩

/-- The calls that need an established connection are refused by any other. -/
structure Refuses (c : Connection) : Prop where
  read : ∀ room, c.read room = (.error .notConnected, c)
  readUrgent : c.readUrgent = (.notConnected, c)
  write : ∀ data, c.write data = (.error .notConnected, c)
  flush : c.flush = (.error .notConnected, c)
  command : ∀ command, c.sendCommand command = (.error .notConnected, c)
  attachSsh : ∀ channel trusts, c.attachSsh channel trusts = (.error .notConnected, c)

theorem refuses_of_none (h : c.engine = none) : Refuses c where
  read room := by rw [Connection.read, h]
  readUrgent := by rw [Connection.readUrgent, h]
  write data := by rw [Connection.write, h]
  flush := by rw [Connection.flush, h]
  command command := by rw [Connection.sendCommand, h]
  attachSsh channel trusts := by rw [Connection.attachSsh, h]

/-- What is left to a connection that is not established is to remember a size. -/
theorem rests_resize (h : c.engine = none) (lines columns : UInt16) :
    Rests c (c.resize lines columns).2 := by
  unfold resize
  dsimp only [note]
  cases c
  dsimp only at h
  subst h
  exact ⟨rfl, rfl, rfl, rfl⟩

/-- **A call does nothing to any other connection.** -/
theorem perform_of_none (h : c.engine = none) (call : Call) :
    call.ends c = false ∧ Rests c (c.perform call).2 := by
  have hrefuses := refuses_of_none h
  have hrest := Rests.refl h
  have hnever : call.ends c = false := by
    cases call <;> simp only [Call.ends, h]
  refine ⟨hnever, ?_⟩
  cases call with
  | read room => rwa [perform, hrefuses.read]
  | readUrgent => rwa [perform, hrefuses.readUrgent]
  | write data => rwa [perform, hrefuses.write]
  | flush => rwa [perform, hrefuses.flush]
  | resize lines columns => exact rests_resize h lines columns
  | command command => rwa [perform, hrefuses.command]
  | attachSsh channel trusts => rwa [perform, hrefuses.attachSsh]
  | close => exact rests_close h

end Calls

/-! ### The balance -/

/-- What was opened, was closed and is open of the one connection over a transport, which
was opened only if it was `made`. -/
structure Balance (dataOnly made : Bool) (c : Connection) : Prop where
  opened_eq : c.tally.opened = made.toNat
  closed_eq : c.tally.closed + c.isConnected.toNat = c.tally.opened
  active_eq : c.tally.active = c.isConnected.toNat
  shutdowns : ∃ u, c.transport? = some u ∧ u.dataOnly = dataOnly ∧
    u.shutdowns = if dataOnly then 0 else c.tally.closed

namespace Balance

variable {dataOnly made : Bool} {c c' : Connection}

theorem goesOn (h : Balance dataOnly made c) (hg : GoesOn c c') : Balance dataOnly made c' := by
  obtain ⟨e, e', he, he', hserves⟩ := hg.engine
  have hc : c'.isConnected = c.isConnected := by simp [isConnected, he, he']
  obtain ⟨u, hu, hkind, hcount⟩ := h.shutdowns
  obtain rfl : e.line.transport = u := by simpa [transport?, he] using hu
  refine ⟨hg.opened_eq.trans h.opened_eq, ?_, ?_, e'.line.transport, ?_, ?_, ?_⟩
  · rw [hg.closed_eq, hg.opened_eq, hc, h.closed_eq]
  · rw [hg.active_eq, hc, h.active_eq]
  · simp [transport?, he']
  · rw [hserves.dataOnly_eq, hkind]
  · rw [hserves.shutdowns_eq, hcount, hg.closed_eq]

theorem ended (h : Balance dataOnly made c) (hend : Ended c c') : Balance dataOnly made c' := by
  obtain ⟨e, he, hnone, hreleased⟩ := hend.engine
  have hc : c.isConnected = true := by simp [isConnected, he]
  have hc' : c'.isConnected = false := by simp [isConnected, hnone]
  obtain ⟨u, hu, hkind, hcount⟩ := h.shutdowns
  obtain rfl : e.line.transport = u := by simpa [transport?, he] using hu
  have hclosed := h.closed_eq
  have hactive := h.active_eq
  rw [hc] at hclosed hactive
  refine ⟨hend.opened_eq.trans h.opened_eq, ?_, ?_, e.line.transport.shutdown, ?_, ?_, ?_⟩
  · rw [hend.closed_eq, hend.opened_eq, hc', ← hclosed]
    rfl
  · rw [hend.active_eq, hc', hactive]
    rfl
  · simp [transport?, hnone, hreleased]
  · rw [Transport.dataOnly_shutdown, hkind]
  · rw [Transport.shutdowns_shutdown, hcount, hend.closed_eq, hkind]
    split <;> rfl

theorem rests (h : Balance dataOnly made c) (hrest : Rests c c') : Balance dataOnly made c' := by
  have hc : c'.isConnected = c.isConnected := by
    simp [isConnected, hrest.engine_eq, hrest.engine_eq']
  refine ⟨?_, ?_, ?_, ?_⟩
  · rw [hrest.tally_eq]
    exact h.opened_eq
  · rw [hrest.tally_eq, hc]
    exact h.closed_eq
  · rw [hrest.tally_eq, hc]
    exact h.active_eq
  · rw [hrest.tally_eq, hrest.transport?_eq]
    exact h.shutdowns

/-- **Every call keeps the balance.** -/
theorem perform (h : Balance dataOnly made c) (call : Call) :
    Balance dataOnly made (c.perform call).2 := by
  cases he : c.engine with
  | none => exact h.rests (perform_of_none he call).2
  | some e =>
    rcases perform_of_engine he call with ⟨-, hgoes⟩ | ⟨-, hend⟩
    · exact h.goesOn hgoes
    · exact h.ended hend

/-- So does every run. -/
theorem run (h : Balance dataOnly made c) (calls : List Call) :
    Balance dataOnly made (c.run calls).2 := by
  induction calls generalizing c with
  | nil => exact h
  | cons call rest ih => exact ih (h.perform call)

end Balance

/-! ### From the beginning -/

section Made

variable (t : Transport) (protocol : Protocol) (config : Config) (role : Telnet.Role)

/-- A connection is made established, with a transport that has served the handshake, or
it is not made, and the transport is left as the handshake left it. -/
theorem ofTransport_cases :
    ((ofTransport t protocol config role).1 = .ok () ∧
        (∃ e, (ofTransport t protocol config role).2.engine = some e ∧
          t.Serves e.line.transport) ∧
        (ofTransport t protocol config role).2.tally = { opened := 1, active := 1 }) ∨
      ((ofTransport t protocol config role).1 ≠ .ok () ∧
        (ofTransport t protocol config role).2.engine = none ∧
        (∃ u, (ofTransport t protocol config role).2.released = some u ∧ t.Serves u) ∧
        (ofTransport t protocol config role).2.tally = {}) := by
  unfold ofTransport establish
  split
  · exact .inr ⟨by simp, rfl, ⟨t, rfl, .refl t⟩, rfl⟩
  · rename_i e he
    have hserves := e.start_serves
    rw [Line.Serves, Engine.transport_of_create? he] at hserves
    split
    · rename_i error e' hs
      rw [hs] at hserves
      exact .inr ⟨by simp, rfl, ⟨_, rfl, hserves⟩, rfl⟩
    · rename_i e' hs
      rw [hs] at hserves
      refine .inl ⟨rfl, ⟨e'.takeNotes.2, rfl, ?_⟩, rfl⟩
      rwa [Engine.transport_takeNotes]

theorem ofTransport_eq_ok_iff :
    (ofTransport t protocol config role).1 = .ok () ↔
      (ofTransport t protocol config role).2.isConnected = true := by
  rcases ofTransport_cases t protocol config role with ⟨hok, ⟨e, he, -⟩, -⟩ | ⟨hfail, hnone, -⟩
  · simp [isConnected, hok, he]
  · simp [isConnected, hfail, hnone]

/-- A connection is in balance when it is made. -/
theorem balance_ofTransport (h : t.shutdowns = 0) :
    Balance t.dataOnly (ofTransport t protocol config role).2.isConnected
      (ofTransport t protocol config role).2 := by
  rcases ofTransport_cases t protocol config role with
    ⟨-, ⟨e, he, hserves⟩, htally⟩ | ⟨-, hnone, ⟨u, hu, hserves⟩, htally⟩
  · have hc : (ofTransport t protocol config role).2.isConnected = true := by
      simp [isConnected, he]
    rw [hc]
    refine ⟨?_, ?_, ?_, e.line.transport, ?_, hserves.dataOnly_eq, ?_⟩
    · rw [htally]
      rfl
    · rw [htally, hc]
      rfl
    · rw [htally, hc]
      rfl
    · simp [transport?, he]
    · rw [hserves.shutdowns_eq, h, htally, ite_self]
  · have hc : (ofTransport t protocol config role).2.isConnected = false := by
      simp [isConnected, hnone]
    rw [hc]
    refine ⟨?_, ?_, ?_, u, ?_, hserves.dataOnly_eq, ?_⟩
    · rw [htally]
      rfl
    · rw [htally, hc]
      rfl
    · rw [htally, hc]
      rfl
    · simp [transport?, hnone, hu]
    · rw [hserves.shutdowns_eq, h, htally, ite_self]

end Made

/-- Established or not, as the calls leave it. -/
theorem isConnected_perform_iff (call : Call) (c : Connection) :
    (c.perform call).2.isConnected = true ↔ c.isConnected = true ∧ call.ends c = false := by
  cases he : c.engine with
  | none =>
    obtain ⟨-, hrest⟩ := perform_of_none he call
    simp [isConnected, he, hrest.engine_eq']
  | some e =>
    rcases perform_of_engine he call with ⟨hends, hgoes⟩ | ⟨hends, hend⟩
    · obtain ⟨_, e', _, he', -⟩ := hgoes.engine
      simp [isConnected, he, he', hends]
    · obtain ⟨_, _, hnone, -⟩ := hend.engine
      simp [isConnected, hnone, hends]

theorem engine_close (c : Connection) : c.close.engine = none := by
  cases he : c.engine with
  | none => exact (rests_close he).engine_eq'
  | some e =>
    obtain ⟨_, _, hnone, -⟩ := (ended_close he).engine
    exact hnone

theorem isConnected_close (c : Connection) : c.close.isConnected = false := by
  rw [isConnected, engine_close]
  rfl

/-- The shutdowns of the transport, by whether the connection has ended. -/
theorem Balance.exists_shutdowns {dataOnly made : Bool} {c : Connection}
    (h : Balance dataOnly made c) :
    ∃ u, c.transport? = some u ∧ u.shutdowns =
      if dataOnly = false ∧ made = true ∧ c.isConnected = false then 1 else 0 := by
  obtain ⟨u, hu, -, hcount⟩ := h.shutdowns
  refine ⟨u, hu, hcount.trans ?_⟩
  have hclosed := h.closed_eq
  rw [h.opened_eq] at hclosed
  cases dataOnly <;> cases made <;> cases hc : c.isConnected <;> simp_all

/-- A connection that is not established rests over all calls. -/
theorem rests_run (calls : List Call) {c : Connection} (h : c.engine = none) :
    Rests c (c.run calls).2 := by
  induction calls generalizing c with
  | nil => exact .refl h
  | cons call rest ih =>
    have hfirst := (perform_of_none h call).2
    exact hfirst.trans (ih hfirst.engine_eq')

/-- **The life of a connection.**  This is so for every transport, protocol, configuration
and role, over all calls in any order and for all that a transport may answer; dropping a
connection closes it.

* A connection that was made is established, and one that was not is not.
* A call ends an established connection exactly if it is a close or hands over a channel
  whose host key is rejected.
* The transport is shut down once when an established connection has ended and not before,
  and never if it was not made.  A transport without a shutdown of its own is left to
  itself.
* Once a connection is not established, no later call is made to the transport or is
  counted, and all calls that need a connection are refused.
* What was opened less what was closed is what is open: one if the connection is
  established, none if it is not, and none after the drop. -/
theorem lifecycle (t : Transport) (protocol : Protocol) (config : Config) (role : Telnet.Role)
    (calls : List Call) :
    let first := ofTransport t.unused protocol config role
    let made := first.2.isConnected
    let c := (first.2.run calls).2
    let dropped := c.close
    (first.1 = .ok () ↔ made = true) ∧
      (∀ call, (c.perform call).2.isConnected = true ↔
        c.isConnected = true ∧ call.ends c = false) ∧
      ((∃ u, c.transport? = some u ∧ u.shutdowns =
          if t.dataOnly = false ∧ made = true ∧ c.isConnected = false then 1 else 0) ∧
        ∃ u, dropped.transport? = some u ∧ u.shutdowns =
          if t.dataOnly = false ∧ made = true then 1 else 0) ∧
      (c.isConnected = false → ∀ later,
        (c.run later).2.isConnected = false ∧ (c.run later).2.transport? = c.transport? ∧
          (c.run later).2.tally = c.tally ∧ Refuses (c.run later).2) ∧
      (((c.tally.opened : Int) - c.tally.closed = c.tally.active ∧
          c.tally.active = if c.isConnected then 1 else 0) ∧
        dropped.isConnected = false ∧ dropped.tally.opened = dropped.tally.closed ∧
          dropped.tally.active = 0) := by
  intro first made c dropped
  have hfirst : Balance t.dataOnly made first.2 :=
    balance_ofTransport t.unused protocol config role rfl
  have h : Balance t.dataOnly made c := hfirst.run calls
  have hdropped : Balance t.dataOnly made dropped := h.perform .close
  have hclosed : dropped.isConnected = false := isConnected_close c
  refine ⟨?_, ?_, ⟨h.exists_shutdowns, ?_⟩, ?_, ⟨?_, ?_⟩, hclosed, ?_, ?_⟩
  · exact ofTransport_eq_ok_iff t.unused protocol config role
  · exact fun call => isConnected_perform_iff call c
  · simpa [hclosed] using hdropped.exists_shutdowns
  · intro hnot later
    have hnone : c.engine = none := by simpa [isConnected] using hnot
    have hrest := rests_run later hnone
    exact ⟨by simp [isConnected, hrest.engine_eq'], hrest.transport?_eq, hrest.tally_eq,
      refuses_of_none hrest.engine_eq'⟩
  · have hbalance := h.closed_eq
    rw [h.active_eq]
    omega
  · rw [h.active_eq]
    cases c.isConnected <;> rfl
  · have hbalance := hdropped.closed_eq
    rw [hclosed] at hbalance
    exact hbalance.symm
  · rw [hdropped.active_eq, hclosed]
    rfl

end Connection
end RemoteTerminal
