/-
# Two ways to flush

`flush` takes the bytes of each write off the queue as they go, and stops where the transport
would block.  `flushRetry` goes through the same bytes with a count, takes the count off the
queue at its end, and sits out would-blocks.  Without any time to sit out, it stops where
`flush` does: a write that fails takes time, so the first would-block is too late already.

| the last raw write | `flush` | `flushRetry 0` |
| --- | --- | --- |
| took what there was | `complete` | the number of all bytes |
| would block | `stalled` | the number of those that went out |
| failed hard or took nothing | that fault | that number, or the fault if it is zero |

The two loops make the same raw writes (`sendRetrying_eq_flushWith`), so they leave the same
transport and the same queue, and what the one answers is a function of what the other does
and of how much went out (`answerFor`).  `flushes_agree` reads the table off that.
-/

import RemoteTerminal.Proofs.Stream.RawWrites

namespace RemoteTerminal

/-! ### One write -/

section OneWrite

variable {offered : Bytes} {l l' : Line}

/-- A write takes no more than it is offered. -/
theorem Line.count_le_of_write {count : Nat} (h : l.write offered = (.ok count, l')) :
    count ≤ offered.length := by
  have hanswer : (l.transport.write offered).1 = .ok count := congrArg Prod.fst h
  unfold Transport.write at hanswer
  split at hanswer
  · exact Nat.le_of_eq (Except.ok.inj hanswer).symm
  · obtain rfl := Except.ok.inj hanswer
    exact Nat.min_le_right ..
  · cases hanswer

/-- It takes no time, unless it fails. -/
theorem Line.clock_of_write {count : Nat} (h : l.write offered = (.ok count, l')) :
    l'.transport.clock = l.transport.clock := by
  have hanswer : (l.transport.write offered).1 = .ok count := congrArg Prod.fst h
  obtain rfl : (l.write offered).2 = l' := congrArg Prod.snd h
  show (l.transport.write offered).2.clock = _
  unfold Transport.write at hanswer ⊢
  split
  · rfl
  · rfl
  · rename_i hfail
    rw [hfail] at hanswer
    cases hanswer

theorem Line.clock_lt_of_failed_write {f : Fault} (h : l.write offered = (.error f, l')) :
    l.transport.clock < l'.transport.clock := by
  have hanswer : (l.transport.write offered).1 = .error f := congrArg Prod.fst h
  obtain rfl : (l.write offered).2 = l' := congrArg Prod.snd h
  show _ < (l.transport.write offered).2.clock
  unfold Transport.write at hanswer ⊢
  split
  · rename_i hnone
    rw [hnone] at hanswer
    cases hanswer
  · rename_i haccept
    rw [haccept] at hanswer
    cases hanswer
  · exact Nat.lt_succ_of_le (Nat.le_add_right ..)

end OneWrite

namespace Outbox

/-! ### The two loops -/

/-- The answer in numbers that goes with how a flush came out, `sent` bytes having gone out: a
fault counts only if none did. -/
def answerFor (sent : Nat) : Except TransportError Flushed → Except TransportError Nat
  | .ok _ => .ok sent
  | .error e => if sent = 0 then .error e else .ok sent

/-- **The two loops make the same raw writes**, by induction on the answers that the transport
has left.  The retrying loop has `sent` bytes behind it and began at `start`; what it finds
before it is what is pending. -/
theorem sendRetrying_eq_flushWith (start sent : Nat) (answers : List WriteAnswer) (o : Outbox)
    (l : Line) (hanswers : l.transport.outgoing = answers) (hstart : start ≤ l.transport.clock) :
    ∃ more, more ≤ o.pending.length ∧
      (flushWith answers o l).2.1 = { o with pending := o.pending.drop more } ∧
      (sendRetrying 0 start answers sent o.pending l).1 =
        answerFor (sent + more) (flushWith answers o l).1 ∧
      (sendRetrying 0 start answers sent o.pending l).2.transport =
        (flushWith answers o l).2.2.transport := by
  induction answers generalizing sent o l with
  | nil =>
    unfold flushWith sendRetrying
    by_cases hp : o.pending = []
    · rw [if_pos hp, if_pos hp]
      exact ⟨0, Nat.zero_le _, rfl, rfl, rfl⟩
    · rw [if_neg hp, if_neg hp]
      refine ⟨o.pending.length, Nat.le_refl _, ?_, rfl, rfl⟩
      rw [List.drop_length]
      rfl
  | cons answer answers ih =>
    unfold flushWith sendRetrying
    by_cases hp : o.pending = []
    · rw [if_pos hp, if_pos hp]
      exact ⟨0, Nat.zero_le _, rfl, rfl, rfl⟩
    rw [if_neg hp, if_neg hp]
    split
    · -- Nothing was taken: a fault if it is the first write to end.
      exact ⟨0, Nat.zero_le _, rfl, rfl, rfl⟩
    · rename_i count l' hcount hw
      have hleft : l'.transport.outgoing = answers := by
        rw [Line.outgoing_of_write hw, hanswers]
        rfl
      have hle := Line.count_le_of_write hw
      obtain ⟨more, hmore, hqueue, hanswer, htransport⟩ :=
        ih (sent + count) { o with pending := o.pending.drop count } l' hleft
          (Line.clock_of_write hw ▸ hstart)
      rw [List.length_drop] at hmore
      refine ⟨count + more, by omega, ?_, ?_, htransport⟩
      · rw [hqueue, List.drop_drop]
      · rw [hanswer, Nat.add_assoc]
    · rename_i f l' hw
      have hleft : l'.transport.outgoing = answers := by
        rw [Line.outgoing_of_write hw, hanswers]
        rfl
      have hlater := Line.clock_lt_of_failed_write hw
      by_cases hi : f.isInterrupted = true
      · rw [if_pos hi, if_pos hi]
        exact ih sent o l' hleft (by omega)
      rw [if_neg hi, if_neg hi]
      by_cases hb : f.isWouldBlock = true
      · -- The write has moved the clock, so there is no time left to sit it out.
        have hlate : 0 < l'.transport.clock - start := by omega
        rw [if_pos hb, if_pos hb, if_pos hlate]
        exact ⟨0, Nat.zero_le _, rfl, rfl, rfl⟩
      rw [if_neg hb, if_neg hb]
      refine ⟨0, Nat.zero_le _, rfl, ?_, ?_⟩
      · by_cases hs : sent = 0
        · simp [answerFor, hs]
        · simp [answerFor, hs]
      · by_cases hs : sent = 0
        · rw [if_pos hs]
        · rw [if_neg hs]
          rfl

theorem eq_of_answerFor_ok {sent count : Nat} {result : Except TransportError Flushed}
    (h : answerFor sent result = .ok count) : count = sent := by
  cases result with
  | ok flushed => exact (Except.ok.inj h).symm
  | error e =>
    by_cases hs : sent = 0
    · simp [answerFor, hs] at h
    · simpa [answerFor, hs] using h.symm

/-- It fails only if nothing went out. -/
theorem eq_zero_of_answerFor_error {sent : Nat} {result : Except TransportError Flushed}
    {e : TransportError} (h : answerFor sent result = .error e) : sent = 0 := by
  cases result with
  | ok flushed => cases h
  | error e' =>
    by_cases hs : sent = 0
    · exact hs
    · simp [answerFor, hs] at h

/-- **The retrying flush does what the other does**, and answers for it in numbers: the count
that it takes off the queue at the end is what went out, also after a fault. -/
theorem flushRetry_eq_flush (o : Outbox) (l : Line) :
    ∃ sent, sent ≤ o.pending.length ∧ (o.flush l).2.1 = { o with pending := o.pending.drop sent } ∧
      (o.flushRetry 0 l).1 = answerFor sent (o.flush l).1 ∧
      (o.flushRetry 0 l).2.1 = (o.flush l).2.1 ∧
      (o.flushRetry 0 l).2.2.transport = (o.flush l).2.2.transport := by
  obtain ⟨sent, hle, hqueue, hanswer, htransport⟩ :=
    sendRetrying_eq_flushWith l.transport.clock 0 l.transport.outgoing o l rfl (Nat.le_refl _)
  rw [Nat.zero_add] at hanswer
  have hflush : o.flush l = flushWith l.transport.outgoing o l := rfl
  refine ⟨sent, hle, hqueue, ?_⟩
  unfold flushRetry Line.sendRetrying
  rw [hflush, hqueue]
  split
  · rename_i count l' hs
    rw [hs] at hanswer htransport
    exact ⟨hanswer, by rw [eq_of_answerFor_ok hanswer.symm], htransport⟩
  · rename_i e l' hs
    rw [hs] at hanswer htransport
    refine ⟨hanswer, ?_, htransport⟩
    rw [eq_zero_of_answerFor_error hanswer.symm, List.drop_zero]

end Outbox

/-! ### What stopped them -/

/-- The fault that the last of some raw writes showed, if it showed one. -/
def stopOf (calls : List Exchange) : Option Fault := calls.getLast?.bind Exchange.fault?

theorem stopOf_concat (front : List Exchange) (e : Exchange) :
    stopOf (front ++ [e]) = e.fault? := by
  simp [stopOf]

namespace Ends

variable {pending : Bytes} {result : Except TransportError Flushed} {calls : List Exchange}

/-- After writes that went on, all that there may be at last is an interruption. -/
theorem stopOf_of_goesOn {f : Fault} (h : ∀ e ∈ calls, e.GoesOn) (hf : stopOf calls = some f) :
    f.isInterrupted = true := by
  obtain ⟨e, he, hf⟩ := Option.bind_eq_some_iff.1 hf
  exact (h e (List.mem_of_getLast? he)).isInterrupted hf

theorem complete_iff (h : Ends pending result calls) :
    result = .ok .complete ↔ pending = [] := by
  cases h with
  | complete h hp => exact ⟨fun _ => hp, fun _ => rfl⟩
  | stalled h hp => exact iff_of_false (by simp) hp
  | failed h hp hf hhard => exact iff_of_false (by simp) hp

theorem stalled_iff (h : Ends pending result calls) :
    result = .ok .stalled ↔ stopOf calls = some .wouldBlock := by
  cases h with
  | complete h hp =>
    refine iff_of_false (by simp) fun hf => ?_
    cases stopOf_of_goesOn h hf
  | stalled h hp => exact iff_of_true rfl (stopOf_concat ..)
  | failed h hp hf hhard =>
    refine iff_of_false (by simp) fun hstop => ?_
    rw [stopOf_concat, hf] at hstop
    rw [Option.some.inj hstop] at hhard
    cases hhard

theorem failed_iff (h : Ends pending result calls) (e : TransportError) :
    result = .error e ↔ ∃ f, e = .io f ∧ f.isTransient = false ∧ stopOf calls = some f := by
  cases h with
  | complete h hp =>
    refine iff_of_false (by simp) ?_
    rintro ⟨f, -, hhard, hf⟩
    have hi := stopOf_of_goesOn h hf
    simp [Fault.isTransient, hi] at hhard
  | stalled h hp =>
    refine iff_of_false (by simp) ?_
    rintro ⟨f, -, hhard, hf⟩
    rw [stopOf_concat] at hf
    rw [← Option.some.inj hf] at hhard
    cases hhard
  | @failed _ answer f h hp hf hhard =>
    rw [stopOf_concat, hf]
    constructor
    · intro he
      exact ⟨f, (Except.error.inj he).symm, hhard, rfl⟩
    · rintro ⟨f', rfl, -, hf'⟩
      rw [Option.some.inj hf']

end Ends

namespace Outbox

/-- **The two ways to flush agree**, whatever is pending and whatever the transport answers, if
the second is given no time.  They leave the same transport, so the same bytes were accepted
and the same answers are left, and the same queue.  Of what was pending, `sent` bytes went out.

* One completes exactly if the other counts all bytes and has none left.
* One stalls exactly if the last raw write would have blocked; the other counts what went out.
* One fails exactly if the last raw write failed hard or took nothing, and with that; so does
  the other if nothing went out, and else it counts what did. -/
theorem flushes_agree (o : Outbox) (l : Line) :
    let flushed := o.flush l
    let retried := o.flushRetry 0 l
    let sent := o.pending.length - flushed.2.1.pending.length
    let stop := stopOf (l.since flushed.2.2)
    (retried.2.2.transport = flushed.2.2.transport ∧ retried.2.1 = flushed.2.1 ∧
      flushed.2.2.transport.accepted = l.transport.accepted ++ o.pending.take sent ∧
      flushed.2.1.pending = o.pending.drop sent) ∧
    (flushed.1 = .ok .complete ↔
      retried.1 = .ok o.pending.length ∧ retried.2.1.pending = []) ∧
    ((flushed.1 = .ok .stalled ↔ stop = some .wouldBlock) ∧
      (flushed.1 = .ok .stalled → retried.1 = .ok sent)) ∧
    ∀ e, (flushed.1 = .error e ↔ ∃ f, e = .io f ∧ f.isTransient = false ∧ stop = some f) ∧
      (flushed.1 = .error e → retried.1 = if sent = 0 then .error e else .ok sent) := by
  intro flushed retried sent stop
  obtain ⟨count, hle, hqueue, hanswer, hsame, htransport⟩ := flushRetry_eq_flush o l
  obtain ⟨calls, hoffers, hends⟩ := flush_ends o l
  have hpending : flushed.2.1.pending = o.pending.drop count := congrArg pending hqueue
  have hsent : sent = count := by
    show o.pending.length - flushed.2.1.pending.length = count
    rw [hpending, List.length_drop]
    omega
  have hstop : stop = stopOf calls := congrArg stopOf hoffers.since_eq
  have haccepted : flushed.2.2.transport.accepted =
      l.transport.accepted ++ o.pending.take count := by
    have hout : flushed.2.2.transport.accepted ++ flushed.2.1.pending =
        l.transport.accepted ++ o.pending := (flush_conserves o l).output_eq
    rw [hpending] at hout
    refine List.append_cancel_right (hout.trans ?_)
    rw [List.append_assoc, List.take_append_drop]
  rw [hsent, hstop]
  refine ⟨⟨htransport, hsame, haccepted, hpending⟩, ?_, ⟨hends.stalled_iff, ?_⟩, fun e =>
    ⟨hends.failed_iff e, ?_⟩⟩
  · constructor
    · intro hcomplete
      have hnone : flushed.2.1.pending = [] := hends.complete_iff.1 hcomplete
      have hall : o.pending.length ≤ count := List.drop_eq_nil_iff.1 (hpending ▸ hnone)
      refine ⟨?_, (congrArg pending hsame).trans hnone⟩
      rw [hanswer, hcomplete, Nat.le_antisymm hle hall]
      rfl
    · rintro ⟨-, hnone⟩
      exact hends.complete_iff.2 ((congrArg pending hsame).symm.trans hnone)
  · intro hstalled
    rw [hanswer, hstalled]
    rfl
  · intro hfailed
    rw [hanswer, hfailed]
    rfl

end Outbox
end RemoteTerminal
