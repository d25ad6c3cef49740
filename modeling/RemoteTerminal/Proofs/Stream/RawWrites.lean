/-
# The raw writes of a call

To send is to offer the transport what is pending, again and again, until one raw write
puts an end to it.  `Line.Offers` is the way from one state of a line to a later one by raw
writes alone, each of which uses up one answer.

* A flush goes on after a write that moved bytes or was interrupted (`Exchange.GoesOn`), and
  any other ends it.  `Ends` says which result goes with which ending.
* Of the writes that do not end it each moved a byte at least or failed for the moment, so
  the bytes that moved and the moments bound their number (`Rounds`).
* A write of data first sends what was pending and then pours the data; `Attempt` is what it
  comes to.  If it answers for any data then there was a raw write after that, and the
  last one of the call tells why no more were accepted (`Pours`).
-/

import RemoteTerminal.Proofs.Stream.Faults
import RemoteTerminal.Proofs.Stream.Outbox

namespace RemoteTerminal

/-- Whether an answer puts a write off and no more: the call may be made again. -/
def WriteAnswer.isPutOff : WriteAnswer → Bool
  | accept _ => false
  | fail f _ => f.isTransient

namespace Exchange

/-- Whether the call is a raw write. -/
def isWrite : Exchange → Bool
  | write .. => true
  | _ => false

/-- Whether the call is a raw write that failed for the moment. -/
def isPutOff : Exchange → Bool
  | write _ (.error f) => f.isTransient
  | _ => false

/-- The call is a raw write after which a flush goes on. -/
def GoesOn : Exchange → Prop
  | write offered (.ok count) => offered.take count ≠ []
  | write _ (.error f) => f.isInterrupted = true
  | _ => False

/-- What a flush goes on after is an interruption, if it is a fault at all. -/
theorem GoesOn.isInterrupted {e : Exchange} {f : Fault} (h : e.GoesOn) (hf : e.fault? = some f) :
    f.isInterrupted = true := by
  match e with
  | write offered (.ok 0) => exact absurd rfl h
  | write offered (.ok (count + 1)) => cases hf
  | write offered (.error f') =>
    obtain rfl : f' = f := Option.some.inj hf
    exact h

/-- It is no hard fault. -/
theorem GoesOn.isTransient {e : Exchange} {f : Fault} (h : e.GoesOn) (hf : e.fault? = some f) :
    f.isTransient = true := by
  simp [Fault.isTransient, h.isInterrupted hf]

end Exchange

/-! ### A line that is written to -/

/-- A write that fails for the moment uses up an answer of that kind, and no other does. -/
theorem Transport.putOff_write (offered : Bytes) (t : Transport) :
    (t.write offered).2.outgoing.countP WriteAnswer.isPutOff +
        [Exchange.write offered (t.write offered).1].countP Exchange.isPutOff =
      t.outgoing.countP WriteAnswer.isPutOff := by
  unfold write
  split
  · rename_i h
    simp [h, record, Exchange.isPutOff]
  · rename_i limit rest h
    simp [h, record, WriteAnswer.isPutOff, Exchange.isPutOff]
  · rename_i f idle rest h
    rw [h]
    simp only [record, List.countP_cons, List.countP_nil, Nat.zero_add]
    rfl

/-- From one line to another by raw writes.  Each uses up an answer, and one that fails for
the moment uses up an answer of that kind. -/
structure Line.Offers (l : Line) (calls : List Exchange) (l' : Line) : Prop where
  history_eq : l'.transport.history = l.transport.history ++ calls
  outgoing_eq : l'.transport.outgoing = l.transport.outgoing.drop calls.length
  putOff_eq : l'.transport.outgoing.countP WriteAnswer.isPutOff +
    calls.countP Exchange.isPutOff = l.transport.outgoing.countP WriteAnswer.isPutOff

namespace Line.Offers

variable {l l' l'' : Line} {calls more : List Exchange}

theorem refl (l : Line) : l.Offers [] l := ⟨(List.append_nil _).symm, rfl, rfl⟩

theorem trans (h : l.Offers calls l') (h' : l'.Offers more l'') : l.Offers (calls ++ more) l'' := by
  refine ⟨?_, ?_, ?_⟩
  · rw [h'.history_eq, h.history_eq, List.append_assoc]
  · rw [h'.outgoing_eq, h.outgoing_eq, List.drop_drop, List.length_append]
  · rw [List.countP_append, ← h.putOff_eq, ← h'.putOff_eq]
    omega

/-- The journal has no part in it. -/
theorem log (h : l.Offers calls l') (notes : List Note) : l.Offers calls (l'.log notes) :=
  ⟨h.history_eq, h.outgoing_eq, h.putOff_eq⟩

theorem of_write {offered : Bytes} {answer : Except Fault Nat}
    (h : l.write offered = (answer, l')) : l.Offers [.write offered answer] l' := by
  obtain rfl : (l.write offered).2 = l' := congrArg Prod.snd h
  obtain rfl : (l.transport.write offered).1 = answer := congrArg Prod.fst h
  exact ⟨Transport.history_write offered l.transport,
    (Transport.outgoing_write offered l.transport).trans List.drop_one.symm,
    Transport.putOff_write offered l.transport⟩

/-- What the raw writes sent is accepted. -/
theorem accepted_eq (h : l.Offers calls l') :
    l'.transport.accepted = l.transport.accepted ++ calls.flatMap Exchange.sent := by
  rw [Transport.accepted, h.history_eq, List.flatMap_append]
  rfl

end Line.Offers

/-- The calls of the transport that were made from one state of a line to a later one. -/
def Line.since (l l' : Line) : List Exchange :=
  l'.transport.history.drop l.transport.history.length

namespace Line.Offers

variable {l l' : Line} {calls : List Exchange}

theorem since_eq (h : l.Offers calls l') : l.since l' = calls := by
  rw [since, h.history_eq, List.drop_left]

/-- There are none from a later state to an earlier one. -/
theorem since_eq_nil (h : l.Offers calls l') : l'.since l = [] := by
  rw [since, h.history_eq, List.length_append]
  exact List.drop_eq_nil_of_le (Nat.le_add_right ..)

end Line.Offers

/-! ### How many there are -/

/-- Raw writes of which all but `stops` moved a byte or failed for the moment. -/
structure Rounds (stops : Nat) (calls : List Exchange) : Prop where
  writes : ∀ e ∈ calls, e.isWrite = true
  length_le : calls.length ≤
    (calls.flatMap Exchange.sent).length + calls.countP Exchange.isPutOff + stops

namespace Rounds

variable {stops more : Nat} {calls calls' : List Exchange}

theorem nil (stops : Nat) : Rounds stops [] := ⟨nofun, Nat.zero_le _⟩

theorem append (h : Rounds stops calls) (h' : Rounds more calls') :
    Rounds (stops + more) (calls ++ calls') := by
  obtain ⟨hwrites, hlength⟩ := h
  obtain ⟨hwrites', hlength'⟩ := h'
  refine ⟨fun e he => (List.mem_append.1 he).elim (hwrites e) (hwrites' e), ?_⟩
  rw [List.length_append, List.flatMap_append, List.length_append, List.countP_append]
  omega

theorem mono (h : Rounds stops calls) (hle : stops ≤ more) : Rounds more calls :=
  ⟨h.writes, Nat.le_trans h.length_le (Nat.add_le_add_left hle _)⟩

/-- Any write is one that there is. -/
theorem single (offered : Bytes) (answer : Except Fault Nat) :
    Rounds 1 [.write offered answer] :=
  ⟨by simp [Exchange.isWrite], Nat.le_add_left ..⟩

/-- A write that failed for the moment is counted as such. -/
theorem putOff (offered : Bytes) {f : Fault} (h : f.isTransient = true) :
    Rounds 0 [.write offered (.error f)] :=
  ⟨by simp [Exchange.isWrite], by simp [Exchange.isPutOff, Exchange.sent, h]⟩

/-- A write that moved bytes is counted with them. -/
theorem moved {offered : Bytes} {count : Nat} (h : offered.take count ≠ []) :
    Rounds 0 [.write offered (.ok count)] := by
  refine ⟨by simp [Exchange.isWrite], ?_⟩
  have hpos := List.length_pos_iff.2 h
  simp only [List.flatMap_singleton, Exchange.sent, List.length_singleton]
  omega

theorem of_goesOn (h : ∀ e ∈ calls, e.GoesOn) : Rounds 0 calls := by
  induction calls with
  | nil => exact .nil 0
  | cons e rest ih =>
    obtain ⟨he, hrest⟩ := List.forall_mem_cons.1 h
    have hone : Rounds 0 [e] := by
      match e with
      | .write offered (.ok count) => exact .moved he
      | .write offered (.error f) =>
        have hi : f.isInterrupted = true := he
        exact .putOff offered (by simp [Fault.isTransient, hi])
    exact hone.append (ih hrest)

end Rounds

/-- Raw writes that are `owed` bytes at most bound their own number: there are as many as
bytes, moments and `stops`. -/
theorem Line.Offers.length_le {l l' : Line} {calls : List Exchange} {stops owed : Nat}
    (h : l.Offers calls l') (hr : Rounds stops calls)
    (howed : l'.transport.accepted.length ≤ l.transport.accepted.length + owed) :
    calls.length ≤ owed + stops + l.transport.outgoing.countP WriteAnswer.isPutOff := by
  have hlength := hr.length_le
  have hputOff := h.putOff_eq
  rw [h.accepted_eq, List.length_append] at howed
  omega

/-! ### How sending ends -/

/-- One of some calls shows a hard fault. -/
def Struck (calls : List Exchange) (f : Fault) : Prop :=
  f.isTransient = false ∧ ∃ e ∈ calls, e.fault? = some f

namespace Struck

variable {calls : List Exchange} {f : Fault}

theorem append_left (front : List Exchange) (h : Struck calls f) : Struck (front ++ calls) f := by
  obtain ⟨hhard, e, he, hf⟩ := h
  exact ⟨hhard, e, List.mem_append_right front he, hf⟩

theorem concat {e : Exchange} (calls : List Exchange) (hhard : f.isTransient = false)
    (hf : e.fault? = some f) : Struck (calls ++ [e]) f :=
  ⟨hhard, e, by simp, hf⟩

/-- A hard fault comes of the last call if sending went on after the others. -/
theorem fault?_eq {e : Exchange} (h : Struck (calls ++ [e]) f) (hgoes : ∀ e ∈ calls, e.GoesOn) :
    e.fault? = some f := by
  obtain ⟨hhard, e', he', hf⟩ := h
  rcases List.mem_append.1 he' with he' | he'
  · have htransient := (hgoes e' he').isTransient hf
    rw [hhard] at htransient
    cases htransient
  · rwa [← List.mem_singleton.1 he']

end Struck

/-- With which raw writes sending has come to a result, `pending` being what is left. -/
inductive Ends (pending : Bytes) : Except TransportError Flushed → List Exchange → Prop where
  /-- All of it is out. -/
  | complete {calls : List Exchange} (h : ∀ e ∈ calls, e.GoesOn) (hp : pending = []) :
      Ends pending (.ok .complete) calls
  /-- The last write would have blocked. -/
  | stalled {calls : List Exchange} (h : ∀ e ∈ calls, e.GoesOn) (hp : pending ≠ []) :
      Ends pending (.ok .stalled) (calls ++ [.write pending (.error .wouldBlock)])
  /-- The last write failed for good. -/
  | failed {calls : List Exchange} {answer : Except Fault Nat} {f : Fault}
      (h : ∀ e ∈ calls, e.GoesOn) (hp : pending ≠ [])
      (hf : (Exchange.write pending answer).fault? = some f) (hhard : f.isTransient = false) :
      Ends pending (.error (.io f)) (calls ++ [.write pending answer])

namespace Ends

variable {pending : Bytes} {result : Except TransportError Flushed} {calls : List Exchange}

/-- More writes to begin with, after which sending went on. -/
theorem append_left {front : List Exchange} (hfront : ∀ e ∈ front, e.GoesOn)
    (h : Ends pending result calls) : Ends pending result (front ++ calls) := by
  have hall {rest : List Exchange} (hrest : ∀ e ∈ rest, e.GoesOn) :
      ∀ e ∈ front ++ rest, e.GoesOn :=
    fun e he => (List.mem_append.1 he).elim (hfront e) (hrest e)
  cases h with
  | complete h hp => exact .complete (hall h) hp
  | stalled h hp => exact List.append_assoc front _ _ ▸ .stalled (hall h) hp
  | failed h hp hf hhard => exact List.append_assoc front _ _ ▸ .failed (hall h) hp hf hhard

theorem rounds (h : Ends pending result calls) : Rounds 1 calls := by
  cases h with
  | complete h hp => exact (Rounds.of_goesOn h).mono (Nat.zero_le 1)
  | stalled h hp => exact (Rounds.of_goesOn h).append (.single ..)
  | failed h hp hf hhard => exact (Rounds.of_goesOn h).append (.single ..)

/-- Sending fails with the hard fault that it meets, and with nothing else. -/
theorem struck_iff (h : Ends pending result calls) (f : Fault) :
    Struck calls f ↔ result = .error (.io f) := by
  cases h with
  | complete h hp =>
    refine iff_of_false ?_ (by simp)
    rintro ⟨hhard, e, he, hf⟩
    have htransient := (h e he).isTransient hf
    rw [hhard] at htransient
    cases htransient
  | stalled h hp =>
    refine iff_of_false (fun hstruck => ?_) (by simp)
    obtain rfl := Option.some.inj (hstruck.fault?_eq h)
    cases hstruck.1
  | @failed _ answer f' h hp hf hhard =>
    constructor
    · intro hstruck
      have hf' := hstruck.fault?_eq h
      rw [hf] at hf'
      rw [Option.some.inj hf']
    · intro he
      obtain rfl := TransportError.io.inj (Except.error.inj he)
      exact .concat _ hhard hf

/-- Sending fails with nothing but a fault. -/
theorem exists_fault {e : TransportError} (h : Ends pending (.error e) calls) :
    ∃ f, e = .io f := by
  cases h with
  | failed h hp hf hhard => exact ⟨_, rfl⟩

/-- What is left was offered last, in vain. -/
theorem exists_stop (h : Ends pending result calls) (hr : result ≠ .ok .complete) :
    pending ≠ [] ∧ ∃ front answer f, calls = front ++ [.write pending answer] ∧
      (Exchange.write pending answer).fault? = some f ∧ f.isInterrupted = false := by
  cases h with
  | complete h hp => exact absurd rfl hr
  | stalled h hp => exact ⟨hp, _, _, .wouldBlock, rfl, rfl, rfl⟩
  | @failed _ _ f h hp hf hhard =>
    refine ⟨hp, _, _, _, rfl, hf, ?_⟩
    simp only [Fault.isTransient, Bool.or_eq_false_iff] at hhard
    exact hhard.2

end Ends

namespace Outbox

/-- **How a flush ends**, by induction on its raw writes. -/
theorem flush_ends (o : Outbox) (l : Line) :
    ∃ calls, l.Offers calls (o.flush l).2.2 ∧
      Ends (o.flush l).2.1.pending (o.flush l).1 calls := by
  have hbefore : ∀ e ∈ ([] : List Exchange), e.GoesOn := nofun
  have hflushes := flush_flushesBy o l
  generalize o.flush l = result at hflushes ⊢
  induction hflushes with
  | complete hp => exact ⟨[], .refl _, .complete hbefore hp⟩
  | took hp hcount hw hmore ih =>
    obtain ⟨calls, hoffers, hends⟩ := ih
    refine ⟨_, (Line.Offers.of_write hw).trans hoffers, hends.append_left ?_⟩
    intro e he
    rw [List.mem_singleton.1 he, Exchange.GoesOn, Ne, List.take_eq_nil_iff]
    exact not_or.2 ⟨hcount, hp⟩
  | interrupted hw hi hmore ih =>
    obtain ⟨calls, hoffers, hends⟩ := ih
    refine ⟨_, (Line.Offers.of_write hw).trans hoffers, hends.append_left ?_⟩
    intro e he
    rw [List.mem_singleton.1 he]
    exact hi
  | stalled hp hw => exact ⟨_, .of_write hw, .stalled hbefore hp⟩
  | refused hp hw => exact ⟨_, .of_write hw, .failed hbefore hp rfl rfl⟩
  | failed hp hw hi hb =>
    refine ⟨_, .of_write hw, .failed hbefore hp rfl ?_⟩
    simp [Fault.isTransient, hi, hb]

end Outbox

/-! ### Sending with retries -/

/-- What sending with retries comes to: it stops at most once for good, and fails only with
the hard fault that its last raw write shows. -/
structure Persists {α : Type} (result : Except TransportError α) (calls : List Exchange) :
    Prop where
  rounds : Rounds 1 calls
  struck : ∀ e, result = .error e → ∃ f, e = .io f ∧ Struck calls f

namespace Persists

variable {α β : Type} {calls : List Exchange}

theorem ok (a : α) (h : Rounds 1 calls) : Persists (.ok a) calls := ⟨h, nofun⟩

/-- A write more to begin with, after which sending went on. -/
theorem append_left {front : List Exchange} {result : Except TransportError α}
    (hfront : Rounds 0 front) (h : Persists result calls) : Persists result (front ++ calls) := by
  refine ⟨(hfront.append h.rounds).mono (Nat.le_of_eq (Nat.zero_add 1)), fun e he => ?_⟩
  obtain ⟨f, rfl, hf⟩ := h.struck e he
  exact ⟨f, rfl, hf.append_left front⟩

theorem map {result : Except TransportError α} (h : Persists result calls) (g : α → β) :
    Persists (result.map g) calls := by
  cases result with
  | error e => exact ⟨h.rounds, fun e' he => h.struck e' (congrArg Except.error (Except.error.inj he))⟩
  | ok a => exact .ok (g a) h.rounds

end Persists

/-- By induction on the raw writes of the send. -/
theorem SendsBy.persists {timeout start sent : Nat} {rest : Bytes} {l : Line}
    {result : Except TransportError Nat × Line} (h : SendsBy timeout start sent rest l result) :
    ∃ calls, l.Offers calls result.2 ∧ Persists result.1 calls := by
  induction h with
  | complete sent l => exact ⟨[], .refl l, .ok sent (.nil 1)⟩
  | took hrest hcount hw hmore ih =>
    obtain ⟨calls, hoffers, hpersists⟩ := ih
    refine ⟨_, (Line.Offers.of_write hw).trans hoffers, hpersists.append_left (.moved ?_)⟩
    rw [Ne, List.take_eq_nil_iff]
    exact not_or.2 ⟨hcount, hrest⟩
  | satOut hw hf hmore ih =>
    obtain ⟨calls, hoffers, hpersists⟩ := ih
    refine ⟨_, (Line.Offers.of_write hw).trans hoffers, hpersists.append_left (.putOff _ ?_)⟩
    rcases hf with hf | hf <;> simp [Fault.isTransient, hf]
  | late hw => exact ⟨_, (Line.Offers.of_write hw).log _, .ok _ (.single ..)⟩
  | refused hw =>
    refine ⟨_, .of_write hw, .single .., fun e he => ?_⟩
    exact ⟨.writeZero, (Except.error.inj he).symm, Struck.concat [] rfl rfl⟩
  | stopped hsent hw => exact ⟨_, .of_write hw, .ok _ (.single ..)⟩
  | @failed _ _ _ f hw hi hb =>
    refine ⟨_, .of_write hw, .single .., fun e he => ?_⟩
    refine ⟨f, (Except.error.inj he).symm, Struck.concat [] ?_ rfl⟩
    simp [Fault.isTransient, hi, hb]
  | cutOff hsent hw => exact ⟨_, (Line.Offers.of_write hw).log _, .ok _ (.single ..)⟩

namespace Outbox

theorem flushRetry_persists (timeout : Nat) (o : Outbox) (l : Line) :
    ∃ calls, l.Offers calls (o.flushRetry timeout l).2.2 ∧
      Persists (o.flushRetry timeout l).1 calls := by
  have hretries := flushRetry_retriesBy timeout o l
  generalize o.flushRetry timeout l = result at hretries ⊢
  cases hretries with
  | sent hs => exact hs.persists
  | failed hs => exact hs.persists

end Outbox

/-! ### Pouring data -/

/-- What pouring some data comes to: `used` bytes of it were accepted, at least one, and all
of them if all of what was queued could be sent. -/
structure Pours (data : Bytes) (used : Nat) (pending : Bytes)
    (ending : Except TransportError Flushed) (calls : List Exchange) : Prop where
  ends : Ends pending ending calls
  pos : 1 ≤ used
  le : used ≤ data.length
  all : ending = .ok .complete → used = data.length

/-- A round that the transport has stopped is the last. -/
theorem Pours.stop {data pending : Bytes} {used : Nat} {ending : Except TransportError Flushed}
    {calls : List Exchange} (hends : Ends pending ending calls) (hpos : 1 ≤ used)
    (hle : used ≤ data.length) (h : ending ≠ .ok .complete) :
    Pours data used pending ending calls :=
  ⟨hends, hpos, hle, fun he => absurd he h⟩

/-- One more round before others, all of whose bytes were sent. -/
theorem Pours.round {data pending : Bytes} {count used : Nat}
    {ending : Except TransportError Flushed} {front calls : List Exchange}
    (hfront : ∀ e ∈ front, e.GoesOn) (hcount : count ≤ data.length)
    (h : Pours (data.drop count) used pending ending calls) :
    Pours data (count + used) pending ending (front ++ calls) := by
  obtain ⟨hends, hpos, hle, hall⟩ := h
  rw [List.length_drop] at hle hall
  refine ⟨hends.append_left hfront, by omega, by omega, fun he => ?_⟩
  have := hall he
  omega

/-- What a write of some data comes to, with the raw writes it made, of which at most `stops`
ended something else before. -/
inductive Attempt (data : Bytes) (stops : Nat) (pending : Bytes) :
    Except TransportError Nat → List Exchange → Prop where
  /-- What was pending before could not be sent. -/
  | blocked {calls : List Exchange} (h : Rounds (stops + 1) calls) :
      Attempt data stops pending (.error .wouldBlock) calls
  /-- A hard fault struck before any data was accepted. -/
  | failed {calls : List Exchange} {f : Fault} (h : Rounds (stops + 1) calls)
      (hf : Struck calls f) : Attempt data stops pending (.error (.io f)) calls
  /-- Data was accepted. -/
  | poured {front back : List Exchange} {used : Nat} {ending : Except TransportError Flushed}
      (h : Rounds stops front) (hp : Pours data used pending ending back) :
      Attempt data stops pending (.ok used) (front ++ back)

/-- A write that fails to send what was pending comes to nothing more. -/
theorem Ends.attempt {pending : Bytes} {e : TransportError} {calls : List Exchange} (data : Bytes)
    (h : Ends pending (.error e) calls) : Attempt data 0 pending (.error e) calls := by
  have hrounds := h.rounds
  cases h with
  | failed h hp hf hhard => exact .failed hrounds (.concat _ hhard hf)

namespace Attempt

variable {data pending : Bytes} {stops : Nat} {result : Except TransportError Nat}
  {calls : List Exchange}

theorem rounds (h : Attempt data stops pending result calls) : Rounds (stops + 1) calls := by
  cases h with
  | blocked h => exact h
  | failed h hf => exact h
  | poured h hp => exact h.append hp.ends.rounds

/-- Something else was sent first. -/
theorem append_left {front : List Exchange} (hfront : Rounds 1 front)
    (h : Attempt data stops pending result calls) :
    Attempt data (1 + stops) pending result (front ++ calls) := by
  cases h with
  | blocked h => exact .blocked (hfront.append h)
  | failed h hf => exact .failed (hfront.append h) (hf.append_left front)
  | poured h hp => exact List.append_assoc front _ _ ▸ .poured (hfront.append h) hp

/-- A write answers for one byte at least and for no more than there are. -/
theorem count_bounds {count : Nat} (h : Attempt data stops pending (.ok count) calls) :
    1 ≤ count ∧ count ≤ data.length := by
  cases h with
  | poured h hp => exact ⟨hp.pos, hp.le⟩

/-- If it does not answer for all, the last raw write offered what is pending, in vain. -/
theorem exists_stop {count : Nat} (h : Attempt data stops pending (.ok count) calls)
    (hcount : count < data.length) :
    pending ≠ [] ∧ ∃ front answer f, calls = front ++ [.write pending answer] ∧
      (Exchange.write pending answer).fault? = some f ∧ f.isInterrupted = false := by
  cases h with
  | @poured front back _ ending h hp =>
    obtain ⟨hpending, front', answer, f, rfl, hf⟩ :=
      hp.ends.exists_stop fun he => Nat.ne_of_lt hcount (hp.all he)
    exact ⟨hpending, front ++ front', answer, f, (List.append_assoc ..).symm, hf⟩

/-- A write that fails would block, or has met a hard fault. -/
theorem struck {e : TransportError} (h : Attempt data stops pending (.error e) calls)
    (he : e ≠ .wouldBlock) : ∃ f, e = .io f ∧ Struck calls f := by
  cases h with
  | blocked h => exact absurd rfl he
  | failed h hf => exact ⟨_, rfl, hf⟩

end Attempt

namespace Outbox

theorem pour_nil (o : Outbox) (l : Line) : o.pour [] l = (0, o, l) := by
  rw [pour]
  simp

/-- The loop of `write`, by induction on the data that is left: a queue with room for a byte
and nothing pending takes data. -/
theorem pour_pours (data : Bytes) (o : Outbox) (l : Line) (hcapacity : 0 < o.capacity)
    (hp : o.pending = []) (hdata : data ≠ []) :
    ∃ calls ending, l.Offers calls (o.pour data l).2.2 ∧
      Pours data (o.pour data l).1 (o.pour data l).2.1.pending ending calls := by
  fun_induction pour data o l with
  | case1 data o l count hnone =>
    have hpos : 0 < count := by
      have := List.length_pos_iff.2 hdata
      simp only [count, room, hp, List.length_nil]
      omega
    omega
  | case2 data o l count hsome o' l' hf more o'' l'' hmore ih =>
    obtain ⟨calls, hoffers, hends⟩ := flush_ends (o.extend (data.take count)) l
    have hkept := (flush_conserves (o.extend (data.take count)) l).capacity_eq
    rw [hf] at hoffers hends hkept
    have hle : count ≤ data.length := Nat.min_le_right ..
    obtain ⟨hgoes, hempty⟩ := hends
    by_cases hrest : data.drop count = []
    · rw [hrest, pour_nil] at hmore
      obtain ⟨rfl, rfl, rfl⟩ : 0 = more ∧ o' = o'' ∧ l' = l'' := by simpa using hmore
      have hall : data.length ≤ count := List.drop_eq_nil_iff.1 hrest
      exact ⟨calls, _, hoffers, .complete hgoes hempty, by omega, by omega, by omega⟩
    · obtain ⟨calls', ending, hoffers', hpours⟩ := ih (hkept ▸ hcapacity) hempty hrest
      rw [hmore] at hoffers' hpours
      exact ⟨calls ++ calls', ending, hoffers.trans hoffers', hpours.round hgoes hle⟩
  | case3 data o l count hsome o' l' hf =>
    obtain ⟨calls, hoffers, hends⟩ := flush_ends (o.extend (data.take count)) l
    rw [hf] at hoffers hends
    exact ⟨calls, _, hoffers,
      .stop hends (Nat.pos_of_ne_zero hsome) (Nat.min_le_right ..) (by simp)⟩
  | case4 data o l count hsome e o' l' hf =>
    obtain ⟨calls, hoffers, hends⟩ := flush_ends (o.extend (data.take count)) l
    rw [hf] at hoffers hends
    exact ⟨calls, _, hoffers.log _,
      .stop hends (Nat.pos_of_ne_zero hsome) (Nat.min_le_right ..) (by simp)⟩

/-- **What a write comes to.** -/
theorem write_attempt {data : Bytes} {o : Outbox} (l : Line) (hcapacity : 0 < o.capacity)
    (hdata : data ≠ []) :
    ∃ calls, l.Offers calls (o.write data l).2.2 ∧
      Attempt data 0 (o.write data l).2.1.pending (o.write data l).1 calls := by
  obtain ⟨calls, hoffers, hends⟩ := flush_ends o l
  have hkept := (flush_conserves o l).capacity_eq
  have hwrites := write_writesBy data o l
  generalize o.write data l = result at hwrites ⊢
  cases hwrites with
  | nothing hnone => exact absurd hnone hdata
  | unsent _ hf =>
    rw [hf] at hends
    exact ⟨_, hoffers, hends.attempt data⟩
  | stalled _ hf => exact ⟨_, hoffers, .blocked hends.rounds⟩
  | poured _ hf =>
    rw [hf] at hends
    obtain ⟨hgoes, hempty⟩ := hends
    obtain ⟨calls', ending, hoffers', hpours⟩ :=
      pour_pours data _ _ (hkept ▸ hcapacity) hempty hdata
    exact ⟨_, hoffers.trans hoffers', .poured (.of_goesOn hgoes) hpours⟩

end Outbox
end RemoteTerminal
