/-
# What a connection over sockets holds

A connection over sockets has a place for an engine, for a socket whose connect is in
progress and for a listening address, and it remembers the address of its peer and its own.
`Slots` is what can be seen of these.  `Slots.Step` lists all that a call does to them, and
`performOn_step` says that the list is complete, whatever the network answers; from it
follow, by induction over a run, that no two of the three places are taken at a time
(`Slots.Exclusive`) and when the addresses belong to something (`Slots.Kept`).

The one step that does not keep the addresses with what they belong to is a handshake that
fails.  The socket is gone then, but its two ends are remembered, until the connection is
closed or another one is established (`strands`, `stale`).
-/

import RemoteTerminal.Connection.Sockets.Run
import RemoteTerminal.Proofs.Connection.Lifecycle

namespace RemoteTerminal
namespace Connection

/-! ### Places and addresses -/

/-- Which places of a connection are taken, and the addresses that it remembers. -/
structure Slots where
  connected : Bool := false
  pending : Bool := false
  listening : Bool := false
  peer : Option SocketAddress := none
  localAddress : Option SocketAddress := none
  deriving DecidableEq

def slots (c : Connection) : Slots where
  connected := c.isConnected
  pending := c.isPending
  listening := c.isListening
  peer := c.peer
  localAddress := c.localAddress

namespace Slots

/-- No place is taken. -/
def Idle (s : Slots) : Prop := s.connected = false ∧ s.pending = false ∧ s.listening = false

/-- No two places are taken. -/
def Exclusive (s : Slots) : Prop :=
  s.connected.toNat + s.pending.toNat + s.listening.toNat ≤ 1

/-- The addresses belong to something: the peer's to a connection or to an attempt at one,
the own one to a connection or to a listener. -/
structure Kept (s : Slots) : Prop where
  peer : s.peer.isSome = true → s.connected = true ∨ s.pending = true
  localAddress : s.localAddress.isSome = true → s.connected = true ∨ s.listening = true

/-- What a call can do, and whether a handshake failed in it. -/
inductive Step (s : Slots) : Bool → Slots → Prop where
  | stay : Step s false s
  /-- The connection is closed. -/
  | clear : Step s false {}
  | dialled (idle : s.Idle) (peer : SocketAddress) :
      Step s false { s with pending := true, peer := some peer }
  | listening (idle : s.Idle) (address : SocketAddress) :
      Step s false { s with listening := true, localAddress := some address }
  /-- The connect has failed. -/
  | refused (pending : s.pending = true) : Step s false { s with pending := false, peer := none }
  /-- The connect has succeeded; the handshake may fail still. -/
  | finished (pending : s.pending = true) (localAddress : Option SocketAddress) (up : Bool) :
      Step s (!up) { s with connected := up, pending := false, localAddress }
  /-- A peer was taken; the handshake may fail still. -/
  | accepted (listening : s.listening = true) (peer : SocketAddress)
      (localAddress : Option SocketAddress) (up : Bool) :
      Step s (!up) { s with connected := up, listening := false, peer := some peer, localAddress }

variable {s s' : Slots} {failed : Bool}

/-- **No step takes a second place.** -/
theorem Exclusive.step (h : s.Exclusive) (hs : s.Step failed s') : s'.Exclusive := by
  unfold Exclusive at h ⊢
  cases hs with
  | stay => exact h
  | clear => simp
  | dialled idle => simp [idle.1, idle.2.2]
  | listening idle => simp [idle.1, idle.2.1]
  | refused pending =>
    simp only [Bool.toNat_false]
    omega
  | finished pending localAddress up =>
    simp only [pending, Bool.toNat_true] at h
    have := Bool.toNat_le up
    simp only [Bool.toNat_false]
    omega
  | accepted listening peer localAddress up =>
    simp only [listening, Bool.toNat_true] at h
    have := Bool.toNat_le up
    simp only [Bool.toNat_false]
    omega

/-- A place that is taken is the only one. -/
theorem Exclusive.eq_of_pending (h : s.Exclusive) (hp : s.pending = true) :
    s = { pending := true, peer := s.peer, localAddress := s.localAddress } := by
  obtain ⟨connected, pending, listening, peer, localAddress⟩ := s
  obtain rfl : pending = true := hp
  cases connected <;> cases listening <;> simp [Exclusive] at h ⊢

theorem Exclusive.eq_of_listening (h : s.Exclusive) (hl : s.listening = true) :
    s = { listening := true, peer := s.peer, localAddress := s.localAddress } := by
  obtain ⟨connected, pending, listening, peer, localAddress⟩ := s
  obtain rfl : listening = true := hl
  cases connected <;> cases pending <;> simp [Exclusive] at h ⊢

/-- What is connected keeps its addresses. -/
theorem kept_of_connected (h : s.connected = true) : s.Kept := ⟨fun _ => .inl h, fun _ => .inl h⟩

theorem kept_empty : Kept {} := ⟨nofun, nofun⟩

/-- **A step keeps the addresses with what they belong to**, if no handshake fails in it. -/
theorem Kept.step (h : s.Kept) (hs : s.Step failed s') (hf : failed = false) : s'.Kept := by
  cases hs with
  | stay => exact h
  | clear => exact kept_empty
  | dialled idle peer => exact ⟨fun _ => .inr rfl, h.localAddress⟩
  | listening idle address => exact ⟨h.peer, fun _ => .inr rfl⟩
  | refused pending => exact ⟨nofun, h.localAddress⟩
  | finished pending localAddress up => exact kept_of_connected (by simpa using hf)
  | accepted listening peer localAddress up => exact kept_of_connected (by simpa using hf)

/-- What is kept and takes no place is empty. -/
theorem Kept.eq_empty (h : s.Kept) (hs : s.Idle) : s = {} := by
  obtain ⟨connected, pending, listening, peer, localAddress⟩ := s
  obtain ⟨rfl, rfl, rfl⟩ := hs
  have hpeer : peer = none := by simpa using h.peer
  have hlocal : localAddress = none := by simpa using h.localAddress
  rw [hpeer, hlocal]

end Slots

/-! ### What a call does to them -/

section Calls

variable {c : Connection}

/-- A connection whose engine was used holds what it held. -/
theorem slots_settle {e : Engine} (h : c.engine = some e) (e' : Engine) (record : Ssh.Record) :
    ({ c with record }.settle e').slots = c.slots := by
  simp [slots, settle, isConnected, isPending, isListening, h]

theorem slots_stopListening (c : Connection) :
    c.stopListening.slots = { c.slots with listening := false } := by
  unfold stopListening
  split
  · rfl
  · rename_i hnone
    have hlistening : c.isListening = false := Bool.eq_false_iff.2 hnone
    simp only [slots, hlistening]

theorem slots_stopPending (c : Connection) :
    c.stopPending.slots = { c.slots with pending := false } := by
  unfold stopPending
  split
  · rfl
  · rename_i hnone
    have hpending : c.isPending = false := Bool.eq_false_iff.2 hnone
    simp only [slots, hpending]

theorem slots_disconnect (c : Connection) :
    c.disconnect.slots = { c.slots with connected := false } := by
  unfold disconnect
  split
  · rename_i hnone
    simp [slots, isConnected, hnone]
  · rfl

theorem slots_close (c : Connection) : c.close.slots = {} := by
  have hdisconnected :
      ({ c.stopListening.stopPending with candidates := [] } : Connection).disconnect.slots =
        { c.slots with connected := false, pending := false, listening := false } := by
    rw [slots_disconnect]
    show ({ c.stopListening.stopPending.slots with connected := false } : Slots) = _
    rw [slots_stopPending, slots_stopListening]
  show ({ ({ c.stopListening.stopPending with candidates := [] } : Connection).disconnect.slots
    with peer := none, localAddress := none } : Slots) = {}
  rw [hdisconnected]

theorem slots_read (room : Nat) (c : Connection) : (c.read room).2.slots = c.slots := by
  unfold read
  split
  · rfl
  · rename_i e he
    exact slots_settle he _ (e.read room c.record).2.2

theorem slots_readUrgent (c : Connection) : c.readUrgent.2.slots = c.slots := by
  unfold readUrgent
  split
  · rfl
  · rename_i e he
    exact slots_settle he _ c.record

theorem slots_write (data : Bytes) (c : Connection) : (c.write data).2.slots = c.slots := by
  unfold write
  split
  · rfl
  · rename_i e he
    exact slots_settle he _ (e.write data c.record).2.2

theorem slots_flush (c : Connection) : c.flush.2.slots = c.slots := by
  unfold flush
  split
  · rfl
  · rename_i e he
    exact slots_settle he _ c.record

theorem slots_resize (lines columns : UInt16) (c : Connection) :
    (c.resize lines columns).2.slots = c.slots := by
  unfold resize
  dsimp only
  split
  · rfl
  · rename_i e he
    exact slots_settle (c := { c with config := { c.config with lines, columns } }) he _ _

theorem slots_sendCommand (command : Telnet.Command) (c : Connection) :
    (c.sendCommand command).2.slots = c.slots := by
  unfold sendCommand
  split
  · rfl
  · rename_i s he
    exact slots_settle he _ c.record
  · rfl

/-- A channel that is handed over takes no place of its own, or the connection is closed. -/
theorem slots_attachSsh (channel : Ssh.Channel) (trusts : String → Ssh.HostKey → Bool)
    (c : Connection) :
    (c.attachSsh channel trusts).2.slots = c.slots ∨ (c.attachSsh channel trusts).2.slots = {} := by
  unfold attachSsh
  split
  · exact .inl rfl
  · exact .inl rfl
  · rename_i l he
    split
    · left
      simp [slots, isConnected, isPending, isListening, he]
    · exact .inr (slots_close _)
  · exact .inl rfl

/-- A call of a connection, whatever it is, leaves it as it is or closes it. -/
theorem slots_perform (call : Call) (c : Connection) :
    (c.perform call).2.slots = c.slots ∨ (c.perform call).2.slots = {} := by
  cases call with
  | read room => exact .inl (slots_read room c)
  | readUrgent => exact .inl (slots_readUrgent c)
  | write data => exact .inl (slots_write data c)
  | flush => exact .inl (slots_flush c)
  | resize lines columns => exact .inl (slots_resize lines columns c)
  | command command => exact .inl (slots_sendCommand command c)
  | attachSsh channel trusts => exact slots_attachSsh channel trusts c
  | close => exact .inr (slots_close c)

theorem Slots.Exclusive.engine_eq_none (h : c.slots.Exclusive)
    (hs : c.slots.pending = true ∨ c.slots.listening = true) : c.engine = none := by
  have hconnected : c.slots.connected = false := by
    rcases hs with hs | hs
    · rw [h.eq_of_pending hs]
    · rw [h.eq_of_listening hs]
  simpa [slots, isConnected] using hconnected

theorem idle_of_isIdle (h : c.isIdle = true) : c.slots.Idle := by
  simpa [isIdle, hasSocket, Slots.Idle, slots, and_assoc] using h

/-- A handshake is all that stands between a socket and a connection. -/
theorem slots_establish (h : c.engine = none) (t : Transport) (role : Telnet.Role) :
    (c.establish t role).2.slots =
        { c.slots with connected := (c.establish t role).2.isConnected } ∧
      ((c.establish t role).1 = .ok () ↔ (c.establish t role).2.isConnected = true) := by
  unfold establish
  split
  · exact ⟨rfl, by simp [isConnected, h]⟩
  · split
    · exact ⟨rfl, by simp [isConnected, abandon, h]⟩
    · exact ⟨rfl, by simp [isConnected, settle, note]⟩

variable {N : Type} [Network N]

/-- The network has a part in closing, but none in what becomes of the connection. -/
theorem connection_performOn_call (call : Call) (c : Connection) (n : N) :
    (c.performOn (.call call) n).2.1 = (c.perform call).2 := by
  cases call <;> rfl

/-- By induction on the addresses: the first at which it is possible is connected to. -/
theorem slots_dialFirst (addresses : List SocketAddress) (last : Option TransportError)
    (c : Connection) (n : N) :
    (dialFirst addresses last c n).2.1.slots = c.slots ∨
      ∃ address, (dialFirst addresses last c n).2.1.slots =
        { c.slots with pending := true, peer := some address } := by
  induction addresses generalizing last c n with
  | nil => exact .inl rfl
  | cons address rest ih =>
    unfold dialFirst
    split
    · exact .inr ⟨address, rfl⟩
    · exact .inl rfl
    · exact ih _ _ _

/-- The two ends of the socket that a call gets, if it gets one: from a connect that has
succeeded, or from a peer that was waiting. -/
def ends (call : SocketCall) (c : Connection) (n : N) :
    Option (Option SocketAddress × Option SocketAddress) :=
  match call with
  | .connectFinish =>
    match c.pending with
    | none => none
    | some socket =>
      match (Network.finish socket n).1 with
      | .ok localAddress => some (c.peer, localAddress)
      | .error _ => none
  | .accept =>
    match c.listener with
    | none => none
    | some address =>
      match (Network.accept address n).1 with
      | .ok (some arrival) => some (some arrival.peer, arrival.localAddress)
      | _ => none
  | _ => none

/-- Whether a call gets a socket on which the protocol then does not come up. -/
def strands (call : SocketCall) (c : Connection) (n : N) : Bool :=
  (ends call c n).isSome && !(c.performOn call n).2.1.isConnected

theorem map_eq_ok_iff {ε α : Type} {r : Except ε Unit} {a : α} :
    (r.map fun _ => a) = .ok a ↔ r = .ok () := by
  cases r <;> simp [Except.map]

theorem connectFinish_of_ok {socket : Transport} {localAddress : Option SocketAddress} {n n' : N}
    (hp : c.pending = some socket) (hf : Network.finish socket n = (.ok localAddress, n')) :
    let found := ({ c with pending := none, localAddress } : Connection).note
      (.debug "Connect complete")
    c.connectFinish n =
      ((found.establish socket .client).1, (found.establish socket .client).2, n') := by
  simp only [connectFinish, hp, hf]

theorem accept_of_ok {address : SocketAddress} {arrival : Arrival} {n n' : N}
    (hl : c.listener = some address)
    (ha : Network.accept address n = (.ok (some arrival), n')) :
    let found := { c.note (.debug "Accepted connection") with
      listener := none
      peer := some arrival.peer
      localAddress := arrival.localAddress }
    c.accept n =
      ((found.establish arrival.transport .server).1.map fun _ => some arrival.peer,
        (found.establish arrival.transport .server).2, Network.release address n') := by
  simp only [accept, hl, ha]

/-- Finishing a connect leaves the connection as it is, gives the connect up, or has a
socket. -/
theorem connectFinish_cases (h : c.slots.Exclusive) (n : N) :
    let r := c.connectFinish n
    (ends .connectFinish c n = none ∧ (r.2.1 = c ∨ c.slots.pending = true ∧
        r.2.1.slots = { c.slots with pending := false, peer := none })) ∨
      (c.slots.pending = true ∧ ∃ localAddress,
        ends .connectFinish c n = some (c.peer, localAddress) ∧
        r.2.1.slots = { c.slots with
          connected := r.2.1.isConnected, pending := false, localAddress } ∧
        (r.1 = .ok () ↔ r.2.1.isConnected = true)) := by
  cases hp : c.pending with
  | none => exact .inl ⟨by simp [ends, hp], .inl (by simp [connectFinish, hp])⟩
  | some socket =>
    have hpending : c.slots.pending = true := by simp [slots, isPending, hp]
    rcases hf : Network.finish socket n with ⟨result, n'⟩
    cases result with
    | ok localAddress =>
      have hengine := h.engine_eq_none (.inl hpending)
      rw [connectFinish_of_ok hp hf]
      obtain ⟨hslots, hup⟩ := slots_establish
        (c := ({ c with pending := none, localAddress } : Connection).note
          (.debug "Connect complete")) hengine socket .client
      exact .inr ⟨hpending, localAddress, by simp [ends, hp, hf], hslots, hup⟩
    | error e =>
      refine .inl ⟨by simp [ends, hp, hf], ?_⟩
      cases e with
      | wouldBlock => exact .inl (by simp [connectFinish, hp, hf])
      | _ =>
        refine .inr ⟨hpending, ?_⟩
        simp only [connectFinish, hp, hf]
        rfl

/-- Accepting leaves the connection as it is, or has a socket. -/
theorem accept_cases (h : c.slots.Exclusive) (n : N) :
    let r := c.accept n
    (ends .accept c n = none ∧ r.2.1 = c) ∨
      (c.slots.listening = true ∧ ∃ peer localAddress,
        ends .accept c n = some (some peer, localAddress) ∧
        r.2.1.slots = { c.slots with
          connected := r.2.1.isConnected, listening := false, peer := some peer, localAddress } ∧
        (r.1 = .ok (some peer) ↔ r.2.1.isConnected = true)) := by
  cases hl : c.listener with
  | none => exact .inl ⟨by simp [ends, hl], by simp [accept, hl]⟩
  | some address =>
    have hlistening : c.slots.listening = true := by simp [slots, isListening, hl]
    rcases ha : Network.accept address n with ⟨result, n'⟩
    match result with
    | .error e => exact .inl ⟨by simp [ends, hl, ha], by simp [accept, hl, ha]⟩
    | .ok none => exact .inl ⟨by simp [ends, hl, ha], by simp [accept, hl, ha]⟩
    | .ok (some arrival) =>
      have hengine := h.engine_eq_none (.inr hlistening)
      rw [accept_of_ok hl ha]
      obtain ⟨hslots, hup⟩ := slots_establish
        (c := { c.note (.debug "Accepted connection") with
          listener := none
          peer := some arrival.peer
          localAddress := arrival.localAddress }) hengine arrival.transport .server
      refine .inr ⟨hlistening, arrival.peer, arrival.localAddress, by simp [ends, hl, ha],
        hslots, ?_⟩
      rw [← hup, map_eq_ok_iff]

/-- Only what may get a socket can fail to bring the protocol up on it. -/
theorem strands_of_ends_eq_none {call : SocketCall} {n : N} (h : ends call c n = none) :
    strands call c n = false := by
  rw [strands, h]
  rfl

theorem strands_of_ends_eq_some {call : SocketCall} {n : N}
    {e : Option SocketAddress × Option SocketAddress} (h : ends call c n = some e) :
    strands call c n = !(c.performOn call n).2.1.isConnected := by
  rw [strands, h]
  rfl

/-! One step for each call. -/

theorem connectStart_step (host : String) (port : UInt16) (c : Connection) (n : N) :
    c.slots.Step false (c.connectStart host port n).2.1.slots := by
  unfold connectStart
  split
  · rename_i hidle
    split
    · exact .stay
    · rename_i ips n' hips
      rcases slots_dialFirst (ips.map fun ip => ⟨ip, port⟩) none
        { (c.note (.debug "Resolved host")).note (.debug "Resolved addresses") with host } n'
        with hslots | ⟨address, hslots⟩
      · rw [hslots]
        exact .stay
      · rw [hslots]
        exact .dialled (idle_of_isIdle hidle) address
  · exact .stay

theorem connectNext_step (c : Connection) (n : N) :
    c.slots.Step false (c.connectNext n).2.1.slots := by
  unfold connectNext
  split
  · rename_i hidle
    rcases slots_dialFirst c.candidates none c n with hslots | ⟨address, hslots⟩
    · rw [hslots]
      exact .stay
    · rw [hslots]
      exact .dialled (idle_of_isIdle hidle) address
  · exact .stay

theorem connectFinish_step (h : c.slots.Exclusive) (n : N) :
    c.slots.Step (strands .connectFinish c n) (c.connectFinish n).2.1.slots := by
  rcases connectFinish_cases h n with
    ⟨hends, hsame | ⟨hpending, hslots⟩⟩ | ⟨hpending, localAddress, hends, hslots, -⟩
  · rw [strands_of_ends_eq_none hends, hsame]
    exact .stay
  · rw [strands_of_ends_eq_none hends, hslots]
    exact .refused hpending
  · rw [strands_of_ends_eq_some hends, hslots]
    exact .finished hpending localAddress _

theorem listen_step (spec : PortSpec) (c : Connection) (n : N) :
    c.slots.Step false (c.listen spec n).2.1.slots := by
  unfold listen
  split
  · exact .stay
  · split
    · rename_i hidle
      split
      · exact .stay
      · rename_i address n' hl
        exact .listening (idle_of_isIdle hidle) address
    · exact .stay

theorem accept_step (h : c.slots.Exclusive) (n : N) :
    c.slots.Step (strands .accept c n) (c.accept n).2.1.slots := by
  rcases accept_cases h n with
    ⟨hends, hsame⟩ | ⟨hlistening, peer, localAddress, hends, hslots, -⟩
  · rw [strands_of_ends_eq_none hends, hsame]
    exact .stay
  · rw [strands_of_ends_eq_some hends, hslots]
    exact .accepted hlistening peer localAddress _

theorem perform_step (call : Call) (c : Connection) :
    c.slots.Step false (c.perform call).2.slots := by
  rcases slots_perform call c with hslots | hslots
  · rw [hslots]
    exact .stay
  · rw [hslots]
    exact .clear

/-- **What a call does to the places and addresses**, whatever the network answers. -/
theorem performOn_step (h : c.slots.Exclusive) (call : SocketCall) (n : N) :
    c.slots.Step (strands call c n) (c.performOn call n).2.1.slots := by
  cases call with
  | connectStart host port => exact connectStart_step host port c n
  | connectNext => exact connectNext_step c n
  | connectFinish => exact connectFinish_step h n
  | listen spec => exact listen_step spec c n
  | accept => exact accept_step h n
  | call call =>
    rw [connection_performOn_call]
    exact perform_step call c

end Calls

/-! ### Runs -/

/-- Whether a call is made to close the connection. -/
def SocketCall.closes : SocketCall → Bool
  | .call .close => true
  | _ => false

section Runs

variable {N : Type} [Network N]

/-- Whether the ends of a stranded socket are remembered after calls: it was the last to be
had, and the connection was not closed since. -/
def stale : Bool → List SocketCall → Connection → N → Bool
  | was, [], _, _ => was
  | was, call :: rest, c, n =>
    let after := c.performOn call n
    stale (strands call c n || was && !(after.2.1.isConnected || call.closes)) rest
      after.2.1 after.2.2

/-- Unless a handshake fails, the addresses are kept if they were, and if they were not they
are from the next connection or close on. -/
theorem kept_performOn {c : Connection} (h : c.slots.Exclusive) {was : Bool}
    (hk : was = false → c.slots.Kept) (call : SocketCall) (n : N)
    (hs : (strands call c n ||
      was && !((c.performOn call n).2.1.isConnected || call.closes)) = false) :
    (c.performOn call n).2.1.slots.Kept := by
  obtain ⟨hup, hrest⟩ := Bool.or_eq_false_iff.1 hs
  by_cases hwas : was = false
  · exact (hk hwas).step (performOn_step h call n) hup
  · cases hconnected : (c.performOn call n).2.1.isConnected with
    | true => exact Slots.kept_of_connected hconnected
    | false =>
      have hcloses : call.closes = true := by simpa [hwas, hconnected] using hrest
      unfold SocketCall.closes at hcloses
      split at hcloses
      · rw [connection_performOn_call, show (c.perform .close).2 = c.close from rfl, slots_close]
        exact Slots.kept_empty
      · cases hcloses

theorem exclusive_and_kept_run (calls : List SocketCall) {c : Connection}
    (h : c.slots.Exclusive) (was : Bool) (hk : was = false → c.slots.Kept) (n : N) :
    (c.runOn calls n).2.1.slots.Exclusive ∧
      (stale was calls c n = false → (c.runOn calls n).2.1.slots.Kept) := by
  induction calls generalizing c n was with
  | nil => exact ⟨h, hk⟩
  | cons call rest ih =>
    exact ih (h.step (performOn_step h call n)) _ (kept_performOn h hk call n) _

/-- **What a connection over sockets holds.**  This is so of every connection from its
beginning, for every network, whatever it answers, and over all calls in any order.

* No two of an engine, a pending socket and a listener are there at a time.
* The peer's address is remembered only while a connection is established or pending, and
  the own one only while one is established or waited for; but for the ends of a socket on
  which a handshake failed, which are remembered until the next connection or close.
* Finishing a connect and accepting fail in three ways: nothing has changed; or the
  connection is idle and remembers no peer, nor any address that it did not remember
  before; or there was a socket, the handshake failed on it, and the connection is idle and
  remembers its two ends. -/
theorem slots_of_run (protocol : Protocol) (config : Config) (calls : List SocketCall) (n : N) :
    let first : Connection := { protocol, config }
    let c := (first.runOn calls n).2.1
    let n' := (first.runOn calls n).2.2
    c.slots.Exclusive ∧
      (stale false calls first n = false → c.slots.Kept) ∧
      (∀ e, (c.connectFinish n').1 = .error e →
        let c' := (c.connectFinish n').2.1
        c' = c ∨ (c'.slots = { localAddress := c.localAddress } ∧
            (stale false calls first n = false → c'.slots = {})) ∨
          ∃ localAddress, ends .connectFinish c n' = some (c.peer, localAddress) ∧
            c'.slots = { peer := c.peer, localAddress }) ∧
      (∀ e, (c.accept n').1 = .error e →
        let c' := (c.accept n').2.1
        c' = c ∨ ∃ peer localAddress, ends .accept c n' = some (some peer, localAddress) ∧
          c'.slots = { peer := some peer, localAddress }) := by
  intro first c n'
  obtain ⟨hexclusive, hkept⟩ := exclusive_and_kept_run calls (c := first)
    (by simp [Slots.Exclusive, slots, first, isConnected, isPending, isListening]) false
    (fun _ => Slots.kept_empty) n
  refine ⟨hexclusive, hkept, fun e he => ?_, fun e he => ?_⟩
  · rcases connectFinish_cases hexclusive n' with
      ⟨hends, hsame | ⟨hpending, hslots⟩⟩ | ⟨hpending, localAddress, hends, hslots, hup⟩
    · exact .inl hsame
    · refine .inr (.inl ?_)
      have hplaces := hexclusive.eq_of_pending hpending
      have hidle : (c.connectFinish n').2.1.slots = { localAddress := c.localAddress } := by
        rw [hslots, hplaces]
        rfl
      refine ⟨hidle, fun hfresh => ?_⟩
      have hstep := performOn_step hexclusive .connectFinish n'
      rw [strands_of_ends_eq_none hends] at hstep
      exact ((hkept hfresh).step hstep rfl).eq_empty (hidle ▸ ⟨rfl, rfl, rfl⟩)
    · refine .inr (.inr ⟨localAddress, hends, ?_⟩)
      have hdown : (c.connectFinish n').2.1.isConnected = false := by
        rw [← Bool.not_eq_true, ← hup, he]
        intro hok
        cases hok
      rw [hslots, hdown, hexclusive.eq_of_pending hpending]
      rfl
  · rcases accept_cases hexclusive n' with
      ⟨-, hsame⟩ | ⟨hlistening, peer, localAddress, hends, hslots, hup⟩
    · exact .inl hsame
    · refine .inr ⟨peer, localAddress, hends, ?_⟩
      have hdown : (c.accept n').2.1.isConnected = false := by
        rw [← Bool.not_eq_true, ← hup, he]
        intro hok
        cases hok
      rw [hslots, hdown, hexclusive.eq_of_listening hlistening]

end Runs

/-- A network on which a peer is waiting that has hung up already. -/
structure HangingUp where

/-- The first write to such a peer finds the connection reset. -/
instance : Network HangingUp where
  resolve _ n := (.ok [.loopback], n)
  dial _ _ n := (.ok {}, n)
  finish _ n := (.ok none, n)
  listen address n := (.ok address, n)
  accept address n :=
    (.ok (some {
      transport := { outgoing := [.fail .connectionReset 0] }
      peer := ⟨.loopback, 49152⟩
      localAddress := some ⟨.loopback, address.port⟩ }), n)
  release _ n := n

/-- A peer hangs up before it is taken.  Nothing is established, pending or waited for then,
and the addresses of both ends are remembered. -/
theorem accept_stranded :
    let first : Connection := { protocol := .telnet }
    let c := (first.runOn [.listen (.specific 2323)] HangingUp.mk).2.1
    let r := c.accept HangingUp.mk
    r.1 = .error (.transport (.io .connectionReset)) ∧ r.2.1.isConnected = false ∧
      r.2.1.isPending = false ∧ r.2.1.isListening = false ∧
      r.2.1.peer = some ⟨.loopback, 49152⟩ ∧ r.2.1.localAddress = some ⟨.loopback, 2323⟩ := by
  refine ⟨?_, ?_, ?_, ?_, ?_, ?_⟩ <;> rfl

end Connection
end RemoteTerminal
