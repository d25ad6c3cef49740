/-
# What a connection does with the channels of an SSH library

An SSH connection has nothing, a socket, or a socket and a channel of the library that
runs over it (`Holding`).  `Turn` lists what a call can make of this, with what the library
and the judge of host keys are asked; `performOn_handles` says that the list is complete.
So the trail of a connection is that of the offers that were made to it, one after the
other (`Ssh.Custody`), and a socket is left alone until it is shut down.
-/

import RemoteTerminal.Proofs.Connection.Slots
import RemoteTerminal.Proofs.Ssh.Custody

namespace RemoteTerminal

/-- What an engine has for an SSH library to work with. -/
inductive Holding where
  | nothing
  | socket (transport : Transport)
  | channel (transport : Transport) (channel : Ssh.Channel)

namespace Holding

def socket? : Holding → Option Transport
  | nothing => none
  | socket t => some t
  | channel t _ => some t

def channel? : Holding → Option Ssh.Channel
  | channel _ c => some c
  | _ => none

/-- What a call can make of it, with the offer that was taken up and what was asked. -/
inductive Turn : Holding → Option Ssh.Offer → List Ssh.Event → Holding → Prop
  | stay (h : Holding) : Turn h none [] h
  | up (t : Transport) : Turn nothing none [] (socket t)
  | taken (t : Transport) {o : Ssh.Offer} (h : o.trusted = true) :
      Turn (socket t) (some o) [o.question] (channel t o.channel)
  | rejected (t : Transport) {o : Ssh.Offer} (h : o.trusted = false) :
      Turn (socket t) (some o) [o.question, .close] nothing
  | used (t : Transport) {c c' : Ssh.Channel} {events : List Ssh.Event}
      (h : c.Uses events c') : Turn (channel t c) none events (channel t c')
  | down (t : Transport) : Turn (socket t) none [] nothing
  | closed (t : Transport) (c : Ssh.Channel) : Turn (channel t c) none [.close] nothing

variable {h h' : Holding} {offer : Option Ssh.Offer} {events : List Ssh.Event}

/-- **A call keeps the trail in order**, and has added the offer that it took up. -/
theorem Turn.custody {offers : List Ssh.Offer} {trail : List Ssh.Event}
    (ht : Turn h offer events h') (hc : Ssh.Custody offers trail h.channel?) :
    Ssh.Custody (offers ++ offer.toList) (trail ++ events) h'.channel? := by
  cases ht with
  | taken t ht => exact hc.next (.used ht .nil)
  | rejected t ht => exact hc.next (.rejected ht)
  | used t hu => simpa [channel?] using hc.use hu
  | closed t c => simpa [channel?] using hc.close
  | stay | up | down => simpa [channel?] using hc

/-- A socket is kept, or nothing is. -/
theorem Turn.socket?_or {t : Transport} (ht : Turn h offer events h') (hs : h.socket? = some t) :
    h'.socket? = some t ∨ h'.socket? = none := by
  cases ht with
  | stay | taken | used => exact .inl hs
  | up => cases hs
  | rejected | down | closed => exact .inr rfl

end Holding

open Holding (Turn)

/-! ### Engines -/

namespace Engine

def holding : Engine → Holding
  | ssh l none => .socket l.transport
  | ssh l (some a) => .channel l.transport a.channel
  | _ => .nothing

/-- The channel has not been closed. -/
def Open : Engine → Prop
  | ssh _ (some a) => a.closed = false
  | _ => True

theorem transport_of_socket? {e : Engine} {t : Transport} (h : e.holding.socket? = some t) :
    e.line.transport = t := by
  cases e with
  | telnet | rlogin | raw => cases h
  | ssh l a =>
    cases a with
    | none => exact Option.some.inj h
    | some a => exact Option.some.inj h

/-- An engine has at most used its channel. -/
structure Passes (e : Engine) (r : Ssh.Record) (e' : Engine) (r' : Ssh.Record) : Prop where
  turn : ∃ events, r'.trail = r.trail ++ events ∧ Turn e.holding none events e'.holding
  socket?_eq : e'.holding.socket? = e.holding.socket?
  opens : e.Open → e'.Open

theorem Passes.refl (e : Engine) (r : Ssh.Record) : Passes e r e r :=
  ⟨⟨[], (List.append_nil _).symm, .stay _⟩, rfl, id⟩

theorem open_of_nothing {e : Engine} (h : e.holding = .nothing) : e.Open := by
  cases e with
  | telnet | rlogin | raw => trivial
  | ssh l a => cases a <;> cases h

/-- The other protocols have nothing to do with the library. -/
theorem passes_of_nothing {e e' : Engine} (h : e.holding = .nothing) (h' : e'.holding = .nothing)
    (r : Ssh.Record) : Passes e r e' r := by
  refine ⟨⟨[], (List.append_nil _).symm, ?_⟩, by rw [h, h'], fun _ => open_of_nothing h'⟩
  rw [h, h']
  exact .stay _

theorem passes_of_used {a a' : Ssh.Adapter} {r r' : Ssh.Record} (h : a.Used r a' r') (l : Line) :
    Passes (ssh l (some a)) r (ssh l (some a')) r' := by
  obtain ⟨⟨events, htrail, huses⟩, hclosed⟩ := h
  exact ⟨⟨events, htrail, .used l.transport huses⟩, rfl, fun ho => hclosed.trans ho⟩

theorem passes_read (room : Nat) (e : Engine) (r : Ssh.Record) :
    Passes e r (e.read room r).2.1 (e.read room r).2.2 := by
  cases e with
  | telnet | rlogin | raw => exact passes_of_nothing rfl rfl r
  | ssh l a =>
    cases a with
    | none => exact .refl _ r
    | some a => exact passes_of_used (a.read_used room r) l

theorem passes_write (data : Bytes) (e : Engine) (r : Ssh.Record) :
    Passes e r (e.write data r).2.1 (e.write data r).2.2 := by
  cases e with
  | telnet | rlogin | raw => exact passes_of_nothing rfl rfl r
  | ssh l a =>
    cases a with
    | none => exact .refl _ r
    | some a => exact passes_of_used (a.write_used data r) l

theorem passes_resize (lines columns : UInt16) (e : Engine) (r : Ssh.Record) :
    Passes e r (e.resize lines columns r).2.1 (e.resize lines columns r).2.2 := by
  cases e with
  | telnet | rlogin | raw => exact passes_of_nothing rfl rfl r
  | ssh l a =>
    cases a with
    | none => exact .refl _ r
    | some a => exact passes_of_used (a.resize_used lines columns r) l

theorem passes_readUrgent (e : Engine) (r : Ssh.Record) : Passes e r e.readUrgent.2 r := by
  cases e with
  | telnet | rlogin | raw => exact passes_of_nothing rfl rfl r
  | ssh l a => exact .refl _ r

theorem passes_flush (e : Engine) (r : Ssh.Record) : Passes e r e.flush.2 r := by
  cases e with
  | telnet | rlogin | raw => exact passes_of_nothing rfl rfl r
  | ssh l a => exact .refl _ r

theorem turn_shutdown {e : Engine} (ho : e.Open) (r : Ssh.Record) :
    ∃ events, (e.shutdown r).2.trail = r.trail ++ events ∧
      Turn e.holding none events .nothing := by
  cases e with
  | telnet | rlogin | raw => exact ⟨[], (List.append_nil _).symm, .stay _⟩
  | ssh l a =>
    cases a with
    | none => exact ⟨[], (List.append_nil _).symm, .down l.transport⟩
    | some a => exact ⟨[.close], a.trail_close ho r, .closed l.transport a.channel⟩

@[simp] theorem holding_takeNotes (e : Engine) : e.takeNotes.2.holding = e.holding := by
  cases e with
  | telnet | rlogin | raw => rfl
  | ssh l a => cases a <;> rfl

theorem open_takeNotes {e : Engine} (h : e.Open) : e.takeNotes.2.Open := by
  cases e with
  | telnet | rlogin | raw => exact h
  | ssh l a => cases a <;> exact h

/-- An engine begins without a channel. -/
theorem turn_create? {protocol : Protocol} {config : Config} {role : Telnet.Role} {t : Transport}
    {e : Engine} (h : create? protocol config role t = some e) :
    Turn .nothing none [] e.start.2.holding ∧ e.start.2.Open := by
  unfold create? at h
  split at h
  · cases h
    exact ⟨.stay _, trivial⟩
  · cases h
  · cases h
    exact ⟨.stay _, trivial⟩
  · cases h
    exact ⟨.stay _, trivial⟩
  · cases h
    exact ⟨.up t, trivial⟩

end Engine

namespace Connection

/-! ### Calls -/

def holding (c : Connection) : Holding :=
  match c.engine with
  | some e => e.holding
  | none => .nothing

/-- The channel in use has not been closed. -/
def Open (c : Connection) : Prop := ∀ e, c.engine = some e → e.Open

/-- What a call does with the offer that it takes up, with the channel in use and with the
socket, which is shut down when the connection closes. -/
structure Handles (offer : Option Ssh.Offer) (c c' : Connection) : Prop where
  turn : ∃ events, c'.record.trail = c.record.trail ++ events ∧
    Turn c.holding offer events c'.holding
  opens : c.Open → c'.Open
  shut : ∀ t, c.holding.socket? = some t → c'.holding.socket? = none →
    c'.slots = {} ∧ c'.released = some t.shutdown

section Calls

variable {c c' : Connection} {e : Engine}

theorem holding_of_engine (h : c.engine = some e) : c.holding = e.holding := by
  rw [holding, h]

theorem holding_of_none (h : c.engine = none) : c.holding = .nothing := by
  rw [holding, h]

/-- Nothing is done with any of them. -/
theorem Handles.of_eq (htrail : c'.record.trail = c.record.trail) (he : c'.engine = c.engine) :
    Handles none c c' := by
  have hholding : c'.holding = c.holding := by
    rw [holding, holding, he]
  refine ⟨⟨[], by rw [htrail, List.append_nil], hholding ▸ .stay _⟩, ?_, ?_⟩
  · intro ho
    rwa [Open, he]
  · intro t ht hnone
    rw [hholding, ht] at hnone
    cases hnone

theorem handles_refl (c : Connection) : Handles none c c := .of_eq rfl rfl

/-- A call that the engine has answered. -/
theorem handles_settle {e' : Engine} {record : Ssh.Record} (h : c.engine = some e)
    (hp : e.Passes c.record e' record) : Handles none c ({ c with record }.settle e') := by
  have hholding : ({ c with record }.settle e').holding = e'.holding := e'.holding_takeNotes
  obtain ⟨events, htrail, hturn⟩ := hp.turn
  refine ⟨⟨events, htrail, ?_⟩, ?_, ?_⟩
  · rwa [hholding, holding_of_engine h]
  · intro ho e'' he''
    obtain rfl : e'.takeNotes.2 = e'' := Option.some.inj he''
    exact Engine.open_takeNotes (hp.opens (ho e h))
  · intro t ht hnone
    rw [hholding, hp.socket?_eq, ← holding_of_engine h, ht] at hnone
    cases hnone

theorem handles_read (room : Nat) (c : Connection) : Handles none c (c.read room).2 := by
  unfold read
  split
  · exact handles_refl c
  · rename_i e he
    have hsettle := handles_settle he (e.passes_read room c.record)
    exact ⟨hsettle.turn, hsettle.opens, hsettle.shut⟩

theorem handles_readUrgent (c : Connection) : Handles none c c.readUrgent.2 := by
  unfold readUrgent
  split
  · exact handles_refl c
  · rename_i e he
    exact handles_settle he (e.passes_readUrgent c.record)

theorem handles_write (data : Bytes) (c : Connection) : Handles none c (c.write data).2 := by
  unfold write
  split
  · exact handles_refl c
  · rename_i e he
    have hsettle := handles_settle he (e.passes_write data c.record)
    exact ⟨hsettle.turn, hsettle.opens, hsettle.shut⟩

theorem handles_flush (c : Connection) : Handles none c c.flush.2 := by
  unfold flush
  split
  · exact handles_refl c
  · rename_i e he
    exact handles_settle he (e.passes_flush c.record)

theorem handles_resize (lines columns : UInt16) (c : Connection) :
    Handles none c (c.resize lines columns).2 := by
  unfold resize
  dsimp only
  split
  · exact .of_eq rfl rfl
  · rename_i e he
    let remembered := { c with config := { c.config with lines, columns } }.note (.debug "Resize")
    have hsettle := handles_settle (c := remembered) he
      (e.passes_resize lines columns remembered.record)
    exact ⟨hsettle.turn, hsettle.opens, hsettle.shut⟩

theorem handles_sendCommand (command : Telnet.Command) (c : Connection) :
    Handles none c (c.sendCommand command).2 := by
  unfold sendCommand
  split
  · exact handles_refl c
  · rename_i s he
    have hpasses : (Engine.telnet s).Passes c.record (.telnet (s.sendCommand command).2) c.record :=
      Engine.passes_of_nothing rfl rfl c.record
    exact handles_settle he hpasses
  · exact handles_refl c

/-! ### The end -/

theorem trail_stop (c : Connection) :
    c.stopListening.stopPending.record.trail = c.record.trail := by
  have hlistening : c.stopListening.record.trail = c.record.trail := by
    unfold stopListening
    split <;> rfl
  unfold stopPending
  split <;> exact hlistening

/-- Closing closes the channel in use, if there is one, and shuts the socket down. -/
theorem handles_close (ho : c.Open) : Handles none c c.close := by
  let stopped : Connection := { c.stopListening.stopPending with candidates := [] }
  have hengine : stopped.engine = c.engine := (stop_eq c).1
  have htrail : stopped.record.trail = c.record.trail := trail_stop c
  cases he : c.engine with
  | none =>
    have hsame : stopped.disconnect = stopped := by simp only [disconnect, hengine, he]
    refine .of_eq ?_ ?_
    · show stopped.disconnect.record.trail = c.record.trail
      rw [hsame, htrail]
    · show stopped.disconnect.engine = c.engine
      rw [hsame, hengine]
  | some e =>
    obtain ⟨events, hevents, hturn⟩ := e.turn_shutdown (ho e he) stopped.record
    obtain ⟨e', he', hnone, hreleased⟩ := (ended_close he).engine
    obtain rfl : e = e' := Option.some.inj (he.symm.trans he')
    refine ⟨⟨events, ?_, ?_⟩, ?_, ?_⟩
    · show stopped.disconnect.record.trail = c.record.trail ++ events
      simp only [disconnect, hengine, he]
      rw [← htrail]
      exact hevents
    · rwa [holding_of_engine he, holding_of_none hnone]
    · intro _ e' he'
      rw [hnone] at he'
      cases he'
    · intro t ht _
      rw [holding_of_engine he] at ht
      rw [← Engine.transport_of_socket? ht]
      exact ⟨slots_close c, hreleased⟩

/-- So no channel is in use after a drop. -/
theorem custody_close {offers : List Ssh.Offer} (ho : c.Open)
    (hc : Ssh.Custody offers c.record.trail c.holding.channel?) :
    Ssh.Custody offers c.close.record.trail none := by
  obtain ⟨events, htrail, hturn⟩ := (handles_close ho).turn
  rw [holding_of_none (engine_close c)] at hturn
  have hnext := hturn.custody hc
  rw [← htrail] at hnext
  simpa [Holding.channel?] using hnext

/-- The offer that is taken up when a channel is handed over: none, unless there is a
socket without a channel. -/
def takesUp (channel : Ssh.Channel) (trusts : String → Ssh.HostKey → Bool) (c : Connection) :
    Option Ssh.Offer :=
  match c.engine with
  | some (.ssh _ none) => some ⟨c.hostName, channel, trusts⟩
  | _ => none

theorem takesUp_eq_some {channel : Ssh.Channel} {trusts : String → Ssh.HostKey → Bool}
    {o : Ssh.Offer} (h : c.takesUp channel trusts = some o) :
    ∃ l, c.engine = some (.ssh l none) ∧ o = ⟨c.hostName, channel, trusts⟩ := by
  unfold takesUp at h
  split at h
  · rename_i l he
    exact ⟨l, he, (Option.some.inj h).symm⟩
  · cases h

/-- An offer that is not taken up changes nothing. -/
theorem attachSsh_of_refused {channel : Ssh.Channel} {trusts : String → Ssh.HostKey → Bool}
    (h : c.takesUp channel trusts = none) :
    ((c.attachSsh channel trusts).1 = .error .notConnected ∨
        (c.attachSsh channel trusts).1 = .error .alreadyConnected ∨
        (c.attachSsh channel trusts).1 = .error (c.unsupported "ssh sessions")) ∧
      (c.attachSsh channel trusts).2 = c := by
  unfold attachSsh
  split
  · exact ⟨.inl rfl, rfl⟩
  · exact ⟨.inr (.inl rfl), rfl⟩
  · rename_i l he
    simp only [takesUp, he] at h
    cases h
  · exact ⟨.inr (.inr rfl), rfl⟩

/-- One that is taken up is in use if its key is trusted, and if not ends the connection. -/
theorem attachSsh_of_taken {channel : Ssh.Channel} {trusts : String → Ssh.HostKey → Bool}
    {o : Ssh.Offer} (h : c.takesUp channel trusts = some o) :
    let r := c.attachSsh channel trusts
    ∃ t, c.holding = .socket t ∧
      if o.trusted then r.1 = .ok () ∧ r.2.holding = .channel t channel
      else r.1 = .error (.untrustedHost o.host channel.hostKey.fingerprint) ∧
        r.2.slots = {} ∧ r.2.released = some t.shutdown := by
  intro r
  obtain ⟨l, he, rfl⟩ := takesUp_eq_some h
  refine ⟨l.transport, holding_of_engine he, ?_⟩
  dsimp only
  split
  · rename_i ht
    rw [show r = _ from attachSsh_of_trusted he ht]
    exact ⟨rfl, rfl⟩
  · rename_i ht
    rw [show r = _ from attachSsh_of_rejected he (Bool.eq_false_iff.2 ht)]
    obtain ⟨e', he', -, hreleased⟩ := (ended_close_record he _).engine
    obtain rfl : Engine.ssh l none = e' := Option.some.inj (he.symm.trans he')
    exact ⟨rfl, slots_close _, hreleased⟩

section Offered

variable {l : Line} {channel : Ssh.Channel} {trusts : String → Ssh.HostKey → Bool}

theorem handles_of_trusted (he : c.engine = some (.ssh l none))
    (ht : trusts c.hostName channel.hostKey = true) :
    Handles (some ⟨c.hostName, channel, trusts⟩) c (c.attachSsh channel trusts).2 := by
  let o : Ssh.Offer := ⟨c.hostName, channel, trusts⟩
  rw [attachSsh_of_trusted he ht]
  refine ⟨⟨[o.question], ?_, ?_⟩, ?_, ?_⟩
  · rw [o.question_of_answer ht]
    rfl
  · rw [holding_of_engine he]
    exact .taken l.transport ht
  · intro _ e' he'
    obtain rfl := Option.some.inj he'
    rfl
  · intro t _ hnone
    cases hnone

/-- The channel is closed before the connection is, which has no channel to close then. -/
theorem handles_of_rejected (ho : c.Open) (he : c.engine = some (.ssh l none))
    (ht : trusts c.hostName channel.hostKey = false) :
    Handles (some ⟨c.hostName, channel, trusts⟩) c (c.attachSsh channel trusts).2 := by
  let o : Ssh.Offer := ⟨c.hostName, channel, trusts⟩
  let judged : Connection :=
    { c with
      record := ((c.record.add (.trust c.hostName channel.hostKey false)).note
        (.warn "Host key rejected")).add .close }
  have hsocket : c.holding = .socket l.transport := holding_of_engine he
  have hnothing : judged.close.holding = .nothing := holding_of_none (engine_close judged)
  have hclose : Handles none judged judged.close := handles_close ho
  obtain ⟨events, htrail, hturn⟩ := hclose.turn
  rw [show judged.holding = .socket l.transport from hsocket, hnothing] at hturn
  rw [attachSsh_of_rejected he ht]
  cases hturn with
  | down =>
    refine ⟨⟨[o.question, .close], ?_, ?_⟩, hclose.opens, hclose.shut⟩
    · rw [htrail, o.question_of_answer ht, List.append_nil]
      show c.record.trail ++ [_] ++ [_] = _
      rw [List.append_assoc]
      rfl
    · rw [hsocket, hnothing]
      exact .rejected l.transport ht

end Offered

theorem handles_attachSsh (ho : c.Open) (channel : Ssh.Channel)
    (trusts : String → Ssh.HostKey → Bool) :
    Handles (c.takesUp channel trusts) c (c.attachSsh channel trusts).2 := by
  cases htakes : c.takesUp channel trusts with
  | none =>
    rw [(attachSsh_of_refused htakes).2]
    exact handles_refl c
  | some o =>
    obtain ⟨l, he, rfl⟩ := takesUp_eq_some htakes
    cases ht : trusts c.hostName channel.hostKey with
    | true => exact handles_of_trusted he ht
    | false => exact handles_of_rejected ho he ht

/-- The offer that a call takes up. -/
def Call.takesUp (call : Call) (c : Connection) : Option Ssh.Offer :=
  match call with
  | .attachSsh channel trusts => c.takesUp channel trusts
  | _ => none

theorem handles_perform (ho : c.Open) (call : Call) :
    Handles (call.takesUp c) c (c.perform call).2 := by
  cases call with
  | read room => exact handles_read room c
  | readUrgent => exact handles_readUrgent c
  | write data => exact handles_write data c
  | flush => exact handles_flush c
  | resize lines columns => exact handles_resize lines columns c
  | command command => exact handles_sendCommand command c
  | attachSsh channel trusts => exact handles_attachSsh ho channel trusts
  | close => exact handles_close ho

end Calls

/-! ### Sockets -/

section Sockets

variable {c : Connection}

/-- A connection that comes up begins without a channel. -/
theorem handles_establish (h : c.engine = none) (t : Transport) (role : Telnet.Role) :
    Handles none c (c.establish t role).2 := by
  unfold establish
  split
  · exact .of_eq rfl rfl
  · rename_i e he
    obtain ⟨hturn, hopen⟩ := Engine.turn_create? he
    split
    · exact .of_eq rfl rfl
    · rename_i e' hs
      rw [hs] at hturn hopen
      have hnothing := holding_of_none h
      refine ⟨⟨[], (List.append_nil _).symm, ?_⟩, ?_, ?_⟩
      · rw [hnothing]
        show Holding.Turn .nothing none [] e'.takeNotes.2.holding
        rwa [Engine.holding_takeNotes]
      · intro _ e'' he''
        obtain rfl := Option.some.inj he''
        exact Engine.open_takeNotes hopen
      · intro t ht _
        rw [hnothing] at ht
        cases ht

variable {N : Type} [Network N]

/-- Beginning to connect has no part in it.  By induction on the addresses. -/
theorem dialFirst_eq (addresses : List SocketAddress) (last : Option TransportError)
    (c : Connection) (n : N) :
    (dialFirst addresses last c n).2.1.record.trail = c.record.trail ∧
      (dialFirst addresses last c n).2.1.engine = c.engine := by
  induction addresses generalizing last c n with
  | nil => exact ⟨rfl, rfl⟩
  | cons address rest ih =>
    unfold dialFirst
    split
    · exact ⟨rfl, rfl⟩
    · exact ⟨rfl, rfl⟩
    · exact ih _ _ _

theorem handles_connectStart (host : String) (port : UInt16) (c : Connection) (n : N) :
    Handles none c (c.connectStart host port n).2.1 := by
  unfold connectStart
  split
  · split
    · exact handles_refl c
    · exact .of_eq (dialFirst_eq ..).1 (dialFirst_eq ..).2
  · exact handles_refl c

theorem handles_connectNext (c : Connection) (n : N) :
    Handles none c (c.connectNext n).2.1 := by
  unfold connectNext
  split
  · exact .of_eq (dialFirst_eq ..).1 (dialFirst_eq ..).2
  · exact handles_refl c

theorem handles_connectFinish (h : c.slots.Exclusive) (n : N) :
    Handles none c (c.connectFinish n).2.1 := by
  unfold connectFinish
  split
  · exact handles_refl c
  · rename_i socket hp
    have hengine := h.engine_eq_none (.inl (by simp [slots, isPending, hp]))
    split
    · rename_i localAddress n' hf
      have hup := handles_establish
        (c := ({ c with pending := none, localAddress } : Connection).note
          (.debug "Connect complete")) hengine socket .client
      exact ⟨hup.turn, hup.opens, hup.shut⟩
    · exact handles_refl c
    · exact .of_eq rfl rfl

theorem handles_listen (spec : PortSpec) (c : Connection) (n : N) :
    Handles none c (c.listen spec n).2.1 := by
  unfold listen
  split
  · exact handles_refl c
  · split
    · split
      · exact handles_refl c
      · exact .of_eq rfl rfl
    · exact handles_refl c

theorem handles_accept (h : c.slots.Exclusive) (n : N) : Handles none c (c.accept n).2.1 := by
  unfold accept
  split
  · exact handles_refl c
  · rename_i address hl
    have hengine := h.engine_eq_none (.inr (by simp [slots, isListening, hl]))
    split
    · exact handles_refl c
    · exact handles_refl c
    · rename_i arrival n' ha
      have hup := handles_establish (c := { c.note (.debug "Accepted connection") with
        listener := none
        peer := some arrival.peer
        localAddress := arrival.localAddress }) hengine arrival.transport .server
      exact ⟨hup.turn, hup.opens, hup.shut⟩

def SocketCall.takesUp (call : SocketCall) (c : Connection) : Option Ssh.Offer :=
  match call with
  | .call call => call.takesUp c
  | _ => none

/-- **What a call does with offers, the channel in use and the socket**, whatever the
network, the library and the judge of host keys answer. -/
theorem performOn_handles (h : c.slots.Exclusive) (ho : c.Open) (call : SocketCall) (n : N) :
    Handles (call.takesUp c) c (c.performOn call n).2.1 := by
  cases call with
  | connectStart host port => exact handles_connectStart host port c n
  | connectNext => exact handles_connectNext c n
  | connectFinish => exact handles_connectFinish h n
  | listen spec => exact handles_listen spec c n
  | accept => exact handles_accept h n
  | call call =>
    rw [connection_performOn_call]
    exact handles_perform ho call

/-! ### Runs -/

/-- The offers that calls take up, in order. -/
def offers : List SocketCall → Connection → N → List Ssh.Offer
  | [], _, _ => []
  | call :: rest, c, n =>
    let after := c.performOn call n
    (call.takesUp c).toList ++ offers rest after.2.1 after.2.2

/-- Every run keeps the trail in order. -/
theorem custody_runOn (calls : List SocketCall) {c : Connection} (h : c.slots.Exclusive)
    (ho : c.Open) {before : List Ssh.Offer}
    (hc : Ssh.Custody before c.record.trail c.holding.channel?) (n : N) :
    (c.runOn calls n).2.1.Open ∧
      Ssh.Custody (before ++ offers calls c n) (c.runOn calls n).2.1.record.trail
        (c.runOn calls n).2.1.holding.channel? := by
  induction calls generalizing c n before with
  | nil =>
    refine ⟨ho, ?_⟩
    rw [offers, List.append_nil]
    exact hc
  | cons call rest ih =>
    have hcall := performOn_handles h ho call n
    obtain ⟨events, htrail, hturn⟩ := hcall.turn
    have hnext := hturn.custody hc
    rw [← htrail] at hnext
    rw [offers, ← List.append_assoc]
    exact ih (h.step (performOn_step h call n)) (hcall.opens ho) hnext _

/-- A connection at its beginning: with nothing yet, or over a transport that it is given. -/
def beginning (given : Option (Transport × Telnet.Role)) (protocol : Protocol) (config : Config) :
    Connection :=
  match given with
  | none => { protocol, config }
  | some (t, role) => (ofTransport t protocol config role).2

theorem beginning_exclusive (given : Option (Transport × Telnet.Role)) (protocol : Protocol)
    (config : Config) : (beginning given protocol config).slots.Exclusive := by
  cases given with
  | none => simp [Slots.Exclusive, slots, beginning, isConnected, isPending, isListening]
  | some pair =>
    obtain ⟨t, role⟩ := pair
    have hslots := (slots_establish (c := { protocol, config }) rfl t role).1
    show (establish t role { protocol, config }).2.slots.Exclusive
    rw [hslots]
    have := Bool.toNat_le (establish t role { protocol, config }).2.isConnected
    simpa [Slots.Exclusive, slots, isPending, isListening] using this

/-- A beginning is without a channel, and nothing was asked. -/
theorem beginning_custody (given : Option (Transport × Telnet.Role)) (protocol : Protocol)
    (config : Config) :
    let c := beginning given protocol config
    c.Open ∧ Ssh.Custody [] c.record.trail c.holding.channel? := by
  have hopen : Connection.Open { protocol, config } := by
    intro e he
    cases he
  cases given with
  | none => exact ⟨hopen, .nil⟩
  | some pair =>
    obtain ⟨t, role⟩ := pair
    have hup := handles_establish (c := { protocol, config }) rfl t role
    obtain ⟨events, htrail, hturn⟩ := hup.turn
    refine ⟨hup.opens hopen, ?_⟩
    show Ssh.Custody [] (establish t role { protocol, config }).2.record.trail _
    rw [htrail]
    exact hturn.custody .nil

/-- **The custody of channels.**  This is so of every connection from its beginning,
whether over sockets or over a transport that it is given, for all calls in any order and
for all that the network, the library and those who judge host keys may answer; dropping a
connection closes it.

* The trail is that of the offers that were taken up, one after the other: a channel is
  used only once its key was trusted and only until it is closed, and one whose key is
  rejected is closed and not used.
* After the drop every channel that was taken up is closed, and has been closed once.
* A key is judged once for each offer that is taken up, which takes a socket without a
  channel, and no key is judged otherwise.
* A socket stays as it is until the connection is closed, with nothing left, and is shut
  down in that.
* An offer that is not taken up fails and changes nothing.  One that is taken up is in use
  if its key is trusted; if not it fails, and the connection is closed. -/
theorem custody_of_run (given : Option (Transport × Telnet.Role)) (protocol : Protocol)
    (config : Config) (calls : List SocketCall) (n : N) :
    let first := beginning given protocol config
    let c := (first.runOn calls n).2.1
    let n' := (first.runOn calls n).2.2
    let taken := offers calls first n
    Ssh.Custody taken c.record.trail c.holding.channel? ∧
      (Ssh.Custody taken c.close.record.trail none ∧
        (c.close.record.trail.filter Ssh.Event.isClose).length = taken.length) ∧
      (c.record.trail.filter Ssh.Event.isTrust = taken.map Ssh.Offer.question ∧
        c.close.record.trail.filter Ssh.Event.isTrust = taken.map Ssh.Offer.question) ∧
      (∀ call t, c.holding.socket? = some t →
        let c' := (c.performOn call n').2.1
        c'.holding.socket? = some t ∨ c'.slots = {} ∧ c'.released = some t.shutdown) ∧
      ∀ channel trusts,
        let r := c.attachSsh channel trusts
        match c.takesUp channel trusts with
        | none => (r.1 = .error .notConnected ∨ r.1 = .error .alreadyConnected ∨
            r.1 = .error (c.unsupported "ssh sessions")) ∧ r.2 = c
        | some o => ∃ t, c.holding = .socket t ∧
            if o.trusted then r.1 = .ok () ∧ r.2.holding = .channel t channel
            else r.1 = .error (.untrustedHost o.host channel.hostKey.fingerprint) ∧
              r.2.slots = {} ∧ r.2.released = some t.shutdown := by
  intro first c n' taken
  have hfirst := beginning_exclusive given protocol config
  obtain ⟨hbeginning, hunasked⟩ := beginning_custody given protocol config
  have hexclusive : c.slots.Exclusive :=
    (exclusive_and_kept_run calls hfirst true (by simp) n).1
  obtain ⟨hopen, hcustody⟩ := custody_runOn calls hfirst hbeginning hunasked n
  have hdropped := custody_close hopen hcustody
  refine ⟨hcustody, ⟨hdropped, hdropped.length_filter_isClose rfl⟩,
    ⟨hcustody.filter_isTrust, hdropped.filter_isTrust⟩, ?_, ?_⟩
  · intro call t ht
    have hcall := performOn_handles hexclusive hopen call n'
    obtain ⟨events, -, hturn⟩ := hcall.turn
    rcases hturn.socket?_or ht with hkept | hnone
    · exact .inl hkept
    · exact .inr (hcall.shut t ht hnone)
  · intro channel trusts r
    cases htakes : c.takesUp channel trusts with
    | none => exact attachSsh_of_refused htakes
    | some o => exact attachSsh_of_taken htakes

end Sockets

end Connection
end RemoteTerminal
