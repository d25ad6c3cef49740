/-
# Errors that are held back

A telnet write that accepted some data and met a hard fault in sending it answers for the
data.  The error is the answer to the next write.

The raw writes that are made once what was pending before is out are those of `pouring`, and
each of them offers bytes of the data.  A write holds back an error exactly if a hard fault
struck among them (`deferred_write_iff`), and no other call touches what is held back
(`deferred_run`).  So of an error that is held back it is known which write met it
(`held_or_exists_write`), and `deferred_once` follows: the next write reports it and does
nothing else, and a write fails with nothing but that and what strikes in its own course.
-/

import RemoteTerminal.Proofs.Telnet.RawWrites

namespace RemoteTerminal

/-- Nothing strikes where there is no call. -/
theorem not_struck_nil (f : Fault) : ¬Struck [] f := by
  rintro ⟨-, e, he, -⟩
  cases he

namespace Telnet

/-- Whether a call is a write. -/
def Call.isWrite : Call → Bool
  | write _ => true
  | _ => false

theorem Call.eq_write_of_isWrite {call : Call} (h : call.isWrite = true) :
    ∃ data, call = .write data := by
  cases call with
  | write data => exact ⟨data, rfl⟩
  | start | read | flush | resize | command => cases h

/-- A write adds to the output the framed form of the data that it answers for. -/
theorem View.Writes.output_eq {data : Bytes} {v v' : View} {result : Except TransportError Nat}
    (h : Writes data v result v') (hs : Settled v) (hdata : data ≠ []) :
    v'.output = v.start.output ++ v.start.codec.encode (Outbox.counted data result) := by
  have hnone : v.start.codec.encode [] = [] := by simp [Codec.encode, encode]
  cases h with
  | reported e h =>
    rw [start_of_isStarted (hs.begun (by rw [h]; rfl))] at hnone ⊢
    rw [Outbox.counted, hnone, List.append_nil]
  | nothing h hempty => exact absurd hempty hdata
  | unsent h hdata e => rw [Outbox.counted, hnone, List.append_nil]
  | framed h hdata count hcount deferred => rfl

namespace Session

/-- The raw writes that a write of some data makes once the requests of the beginning and
what was pending are out. -/
def pouring (data : Bytes) (s : Session) : List Exchange :=
  s.start.2.flush.2.line.since (s.write data).2.line

/-- A write gets to send some of the data, or holds nothing back. -/
theorem pouring_nil_or_pours (data : Bytes) {s : Session} (hcapacity : 2 ≤ s.outbox.capacity) :
    s.pouring data = [] ∧ (s.write data).2.deferred = none ∨
      ∃ used ending, (s.write data).1 = .ok used ∧
        Pours data used (s.write data).2.outbox.pending ending (s.pouring data) ∧
        (s.write data).2.deferred = errorOf ending := by
  obtain ⟨calls, hoffers, -⟩ := start_persists s
  obtain ⟨calls', hoffers', -⟩ := flush_ends s.start.2
  have hgoes := write_goes data s
  unfold pouring
  generalize s.write data = w at hgoes ⊢
  cases hgoes with
  | reported e h => exact .inl ⟨(hoffers.trans hoffers').since_eq_nil, rfl⟩
  | nothing h hdata => exact .inl ⟨(hoffers.trans hoffers').since_eq_nil, h⟩
  | unstarted h hdata hs => exact .inl ⟨hoffers'.since_eq_nil, (deferred_start s).trans h⟩
  | unsent h hdata hf =>
    exact .inl ⟨(Line.Offers.refl _).since_eq_nil, (deferred_start s).trans h⟩
  | stalled h hdata hf =>
    exact .inl ⟨(Line.Offers.refl _).since_eq_nil, (deferred_start s).trans h⟩
  | poured h hdata hf =>
    obtain ⟨calls'', ending, hoffers'', hpours, hdeferred⟩ := poured_pours hcapacity h hdata hf
    exact .inr ⟨_, ending, rfl, hoffers''.since_eq.symm ▸ hpours, hdeferred⟩

/-- **What a write holds back** is the hard fault that struck in sending the data, if one did. -/
theorem deferred_write_iff (data : Bytes) {s : Session} (hcapacity : 2 ≤ s.outbox.capacity)
    (e : TransportError) :
    (s.write data).2.deferred = some e ↔ ∃ f, e = .io f ∧ Struck (s.pouring data) f := by
  rcases pouring_nil_or_pours data hcapacity with
    ⟨hnone, hdeferred⟩ | ⟨used, ending, -, hpours, hdeferred⟩
  · rw [hnone, hdeferred]
    refine iff_of_false nofun ?_
    rintro ⟨f, -, hstruck⟩
    exact not_struck_nil f hstruck
  · rw [hdeferred]
    constructor
    · intro he
      obtain rfl := eq_error_of_errorOf he
      obtain ⟨f, rfl⟩ := hpours.ends.exists_fault
      exact ⟨f, rfl, (hpours.ends.struck_iff f).2 rfl⟩
    · rintro ⟨f, rfl, hstruck⟩
      rw [(hpours.ends.struck_iff f).1 hstruck]
      rfl

/-- A write in which a hard fault strikes then has accepted some of the data, and says so. -/
theorem exists_count_of_struck {data : Bytes} {s : Session} (hcapacity : 2 ≤ s.outbox.capacity)
    {f : Fault} (h : Struck (s.pouring data) f) :
    ∃ count, (s.write data).1 = .ok count ∧ 1 ≤ count ∧ count ≤ data.length := by
  rcases pouring_nil_or_pours data hcapacity with ⟨hnone, -⟩ | ⟨used, ending, hok, hpours, -⟩
  · rw [hnone] at h
    exact absurd h (not_struck_nil f)
  · exact ⟨used, hok, hpours.pos, hpours.le⟩

/-- An error that is held back is reported, and nothing else is done. -/
theorem write_of_deferred {s : Session} {e : TransportError} (h : s.deferred = some e)
    (data : Bytes) :
    s.write data =
      (.error e, { s with deferred := none }.log [.debug "Reporting deferred write error"]) := by
  rw [write, h]

/-! ### Other calls -/

/-- Only a write touches what is held back. -/
theorem deferred_perform {call : Call} (h : call.isWrite = false) (s : Session) :
    (s.perform call).2.deferred = s.deferred := by
  cases call with
  | start => exact deferred_start s
  | read room => exact deferred_read room s
  | write data => cases h
  | flush => rfl
  | resize window => exact deferred_resize window s
  | command c => exact congrArg View.deferred (view_sendCommand c s)

theorem deferred_run {calls : List Call} (h : ∀ call ∈ calls, call.isWrite = false) (s : Session) :
    (s.run calls).2.deferred = s.deferred := by
  induction calls generalizing s with
  | nil => rfl
  | cons call rest ih =>
    obtain ⟨hcall, hrest⟩ := List.forall_mem_cons.1 h
    exact (ih hrest _).trans (deferred_perform hcall s)

/-- **Where an error comes from that is held back**: it was held back before and there was no
write, or a hard fault struck in the last write, after that had accepted data. -/
theorem held_or_exists_write (calls : List Call) {s : Session} (hcapacity : 2 ≤ s.outbox.capacity)
    {e : TransportError} (he : (s.run calls).2.deferred = some e) :
    s.deferred = some e ∧ (∀ call ∈ calls, call.isWrite = false) ∨
      ∃ before data between f, calls = before ++ .write data :: between ∧
        (∀ call ∈ between, call.isWrite = false) ∧ e = .io f ∧
        Struck ((s.run before).2.pouring data) f := by
  induction calls generalizing s with
  | nil => exact .inl ⟨he, nofun⟩
  | cons call rest ih =>
    have hkept : (s.perform call).2.outbox.capacity = s.outbox.capacity := capacity_perform call s
    rcases ih (hkept ▸ hcapacity) he with ⟨hheld, hrest⟩ | ⟨before, data, between, f, rfl, hlast⟩
    · by_cases hcall : call.isWrite = true
      · obtain ⟨data, rfl⟩ := Call.eq_write_of_isWrite hcall
        obtain ⟨f, hf, hstruck⟩ := (deferred_write_iff data hcapacity e).1 hheld
        exact .inr ⟨[], data, rest, f, rfl, hrest, hf, hstruck⟩
      · rw [Bool.not_eq_true] at hcall
        exact .inl ⟨(deferred_perform hcall s).symm.trans hheld,
          List.forall_mem_cons.2 ⟨hcall, hrest⟩⟩
    · exact .inr ⟨call :: before, data, between, f, rfl, hlast⟩

/-- **An error that is held back is reported once.**  This is so of every session from its
beginning, after any calls in any order, and for all that a transport may answer.

* A write accepts the data that it answers for, and none if it fails: what is output then is
  what was output before and the framed form of it.
* If a hard fault strikes in sending the data, the write answers for some of it.  The next
  write fails with that fault, whatever its data is and whatever other calls lie between, and
  does nothing but say so in the journal.
* If a write fails and does not block, then a hard fault has struck in its own course; or one
  has struck in sending the data of the write just before it. -/
theorem deferred_once (role : Role) (terminal : Terminal) (size timeout : Nat) (t : Transport)
    (calls : List Call) (data : Bytes) :
    let first := fresh role terminal size timeout t
    let s := (first.run calls).2
    let s' := (s.write data).2
    (data ≠ [] → s'.line.transport.accepted ++ s'.outbox.pending =
        s.start.2.line.transport.accepted ++ s.start.2.outbox.pending ++
          s.start.2.codec.encode (Outbox.counted data (s.write data).1)) ∧
      (∀ f, Struck (s.pouring data) f →
        (∃ count, (s.write data).1 = .ok count ∧ 1 ≤ count ∧ count ≤ data.length) ∧
        ∀ between, (∀ call ∈ between, call.isWrite = false) → ∀ next,
          let after := (s'.run between).2
          after.write next = (.error (.io f),
            { after with deferred := none }.log [.debug "Reporting deferred write error"])) ∧
      (∀ e, (s.write data).1 = .error e → e ≠ .wouldBlock → ∃ f, e = .io f ∧
        (Struck (s.line.since s'.line) f ∨
          ∃ before earlier between, calls = before ++ .write earlier :: between ∧
            (∀ call ∈ between, call.isWrite = false) ∧
            Struck ((first.run before).2.pouring earlier) f)) := by
  intro first s s'
  have hfirst : 2 ≤ first.outbox.capacity := Capacity.least_le_granted size
  have hcapacity : 2 ≤ s.outbox.capacity := (capacity_run calls first).symm ▸ hfirst
  refine ⟨?_, ?_, ?_⟩
  · intro hdata
    have hlog : View.Matches { codec := { role, terminal } } first.view := ⟨rfl, rfl, rfl⟩
    obtain ⟨hsettled, -⟩ := matches_run calls hlog (.fresh role terminal size timeout t)
    have houtput := (write_writes data s).output_eq hsettled hdata
    rw [← view_start] at houtput
    exact houtput
  · intro f hstruck
    refine ⟨exists_count_of_struck hcapacity hstruck, fun between hbetween next => ?_⟩
    have hheld : s'.deferred = some (.io f) :=
      (deferred_write_iff data hcapacity (.io f)).2 ⟨f, rfl, hstruck⟩
    exact write_of_deferred ((deferred_run hbetween s').trans hheld) next
  · intro e he hblock
    cases hd : s.deferred with
    | none =>
      have hdata : data ≠ [] := by
        rintro rfl
        rw [write, hd, if_pos rfl] at he
        cases he
      obtain ⟨made, hoffers, hattempt⟩ := write_attempt hcapacity hd hdata
      rw [he] at hattempt
      obtain ⟨f, hf, hstruck⟩ := hattempt.struck hblock
      exact ⟨f, hf, .inl (hoffers.since_eq.symm ▸ hstruck)⟩
    | some held =>
      rw [write_of_deferred hd] at he
      obtain rfl := Except.error.inj he
      rcases held_or_exists_write calls hfirst hd with ⟨hnone, -⟩ | hlast
      · cases hnone
      · obtain ⟨before, earlier, between, f, hcalls, hbetween, hf, hstruck⟩ := hlast
        exact ⟨f, hf, .inr ⟨before, earlier, between, hcalls, hbetween, hstruck⟩⟩

/-- A byte is accepted before the connection is reset.  The flush meets the fault again by
itself; a write of nothing reports it, and the one after has nothing to report. -/
example :
    let s := fresh .client {} 16 0
      { outgoing := [.accept 21, .fail .connectionReset 0, .fail .connectionReset 0] }
    (s.run [.write [0x78], .flush, .write [], .write []]).1.map Outcome.error? =
      [none, some (.io .connectionReset), some (.io .connectionReset), none] := by
  decide +kernel

end Session
end Telnet
end RemoteTerminal
