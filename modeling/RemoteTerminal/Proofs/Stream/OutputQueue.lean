/-
# The output queue

An outbox is given bytes in two ways, by `extend` and by `write`, and sends them in
three, which differ in what they do about a fault: `flush` reports it, `flushRetry`
reports it only if nothing went out, and `write` counts what it queued instead.  None of
this shows in the output.  What the transport accepted, followed by what is pending, is
what was queued, in the order of the calls (`output_perform`, `output_run`).

Two things follow from `Conserves` and from the history of the transport, which only
grows (`exists_sent`): a call that queues nothing moves the front of what was
pending, and a queue that is filled by writes alone keeps to its capacity
(`pending_write_le`).  `lossless_queue` puts them together.
-/

import RemoteTerminal.Proofs.Stream.Outbox
import RemoteTerminal.Proofs.Stream.Service
import RemoteTerminal.Stream.Run

namespace RemoteTerminal
namespace Outbox

/-! ### What a call queues -/

namespace Call

/-- A call that gives nothing up and sends nothing past the queue. -/
def Keeps : Call → Prop
  | clear | send .. => False
  | extend _ | flush | write _ | flushRetry _ => True

instance (call : Call) : Decidable call.Keeps := by
  unfold Keeps
  split <;> infer_instance

/-- The bytes that a call with such an outcome has put into the queue: all that it was
given, or as many as it answers for. -/
def queued : Call → Outcome TransportError → Bytes
  | extend data, _ => data
  | write data, .count result => counted data result
  | _, _ => []

end Call

/-- A call adds to the output what it queued. -/
theorem output_perform {call : Call} (hcall : call.Keeps) (o : Outbox) (l : Line) :
    (o.perform call l).2.1.output (o.perform call l).2.2 =
      o.output l ++ call.queued (o.perform call l).1 := by
  cases call with
  | extend data => exact output_extend o l data
  | clear => exact hcall.elim
  | flush => exact (flush_conserves o l).output_eq.trans (List.append_nil _).symm
  | write data => exact (write_conserves data o l).output_eq.trans (output_extend ..)
  | flushRetry timeout =>
    exact (flushRetry_conserves timeout o l).output_eq.trans (List.append_nil _).symm
  | send data timeout => exact hcall.elim

/-- **So do runs**, one call after the other. -/
theorem output_run (calls : List Call) (hcalls : ∀ call ∈ calls, call.Keeps) (o : Outbox)
    (l : Line) :
    (o.run calls l).2.1.output (o.run calls l).2.2 =
      o.output l ++ (List.zipWith Call.queued calls (o.run calls l).1).flatten := by
  induction calls generalizing o l with
  | nil => simp [run]
  | cons call rest ih =>
    obtain ⟨hcall, hrest⟩ := List.forall_mem_cons.1 hcalls
    rw [run, ih hrest, output_perform hcall, List.append_assoc]
    rfl

/-! ### What a call moves -/

variable {o o' : Outbox} {l l' : Line}

/-- If the output stays as it is, the front of what was pending is sent and the rest is
pending still. -/
theorem Conserves.exists_sent (h : Conserves o l o' l') (hl : l.Serves l') :
    ∃ sent, l'.transport.accepted = l.transport.accepted ++ o.pending.take sent ∧
      o'.pending = o.pending.drop sent := by
  obtain ⟨sent, hsent⟩ := Transport.Serves.accepted_grows hl
  have hparts : sent ++ o'.pending = o.pending := by
    have hout := h.output_eq
    rw [output, output, ← hsent, List.append_assoc] at hout
    exact List.append_cancel_left hout
  refine ⟨sent.length, ?_, ?_⟩
  · rw [← hparts, List.take_left, hsent]
  · rw [← hparts, List.drop_left]

/-- Sending makes no more pending than there was. -/
theorem Conserves.length_le (h : Conserves o l o' l') (hl : l.Serves l') :
    o'.pending.length ≤ o.pending.length := by
  obtain ⟨sent, -, hpending⟩ := h.exists_sent hl
  rw [hpending, List.length_drop]
  exact Nat.sub_le ..

/-- A write that fails has queued nothing. -/
theorem write_conserves_of_error {data : Bytes} {e : TransportError}
    (h : (o.write data l).1 = .error e) :
    Conserves o l (o.write data l).2.1 (o.write data l).2.2 := by
  have hwrite := write_conserves data o l
  rwa [h, counted, extend_nil] at hwrite

/-- A retrying flush that fails has moved nothing. -/
theorem flushRetry_of_error {timeout : Nat} {e : TransportError}
    (h : (o.flushRetry timeout l).1 = .error e) :
    (o.flushRetry timeout l).2.1 = o ∧
      (o.flushRetry timeout l).2.2.transport.accepted = l.transport.accepted := by
  have hout := (flushRetry_conserves timeout o l).output_eq
  have hkept : (o.flushRetry timeout l).2.1 = o := by
    unfold flushRetry at h ⊢
    split at h
    · cases h
    · rfl
  rw [output, output, hkept] at hout
  exact ⟨hkept, List.append_cancel_right hout⟩

/-! ### The capacity -/

/-- What is queued fits into the room there is, and what is sent leaves more of it. -/
theorem pending_flush_extend_le (h : o.pending.length ≤ o.capacity) (data : Bytes) :
    ((o.extend (data.take (min o.room data.length))).flush l).2.1.pending.length ≤ o.capacity := by
  refine Nat.le_trans ((flush_conserves _ l).length_le (flush_serves _ l)) ?_
  simp only [extend, room, List.length_append, List.length_take]
  omega

/-- The loop of `write`, by induction on the data that is left. -/
theorem pending_pour_le (data : Bytes) (o : Outbox) (l : Line)
    (h : o.pending.length ≤ o.capacity) :
    (o.pour data l).2.1.pending.length ≤ o.capacity := by
  fun_induction pour data o l with
  | case1 => exact h
  | case2 data o l count hsome o' l' hf more o'' l'' hmore ih =>
    have hfirst := pending_flush_extend_le (l := l) h data
    have hcapacity := (flush_conserves (o.extend (data.take count)) l).capacity_eq
    rw [hf] at hfirst hcapacity
    rw [hmore] at ih
    exact Nat.le_trans (ih (Nat.le_trans hfirst (Nat.le_of_eq hcapacity.symm)))
      (Nat.le_of_eq hcapacity)
  | case3 data o l count hsome o' l' hf =>
    have hfirst := pending_flush_extend_le (l := l) h data
    rwa [hf] at hfirst
  | case4 data o l count hsome e o' l' hf =>
    have hfirst := pending_flush_extend_le (l := l) h data
    rwa [hf] at hfirst

theorem pending_write_le (data : Bytes) (h : o.pending.length ≤ o.capacity) :
    (o.write data l).2.1.pending.length ≤ o.capacity := by
  have hlength := Nat.le_trans ((flush_conserves o l).length_le (flush_serves o l)) h
  have hcapacity := (flush_conserves o l).capacity_eq
  have hwrites := write_writesBy data o l
  generalize o.write data l = result at hwrites ⊢
  cases hwrites with
  | nothing hdata => exact h
  | unsent hdata hf => exact hlength
  | stalled hdata hf => exact hlength
  | poured hdata hf =>
    have hfits := Nat.le_trans hlength (Nat.le_of_eq hcapacity.symm)
    exact Nat.le_trans (pending_pour_le data _ _ hfits) (Nat.le_of_eq hcapacity)

theorem capacity_perform {call : Call} (hcall : call.Keeps) (o : Outbox) (l : Line) :
    (o.perform call l).2.1.capacity = o.capacity := by
  cases call with
  | extend data => rfl
  | clear => exact hcall.elim
  | flush => exact (flush_conserves o l).capacity_eq
  | write data => exact (write_conserves data o l).capacity_eq
  | flushRetry timeout => exact (flushRetry_conserves timeout o l).capacity_eq
  | send data timeout => exact hcall.elim

/-- A queue that nothing is appended to behind its back keeps to its capacity. -/
theorem pending_perform_le {call : Call} (hcall : call.Keeps)
    (hwrites : ∀ data, call ≠ .extend data) (h : o.pending.length ≤ o.capacity) :
    (o.perform call l).2.1.pending.length ≤ o.capacity := by
  cases call with
  | extend data => exact absurd rfl (hwrites data)
  | clear => exact hcall.elim
  | flush => exact Nat.le_trans ((flush_conserves o l).length_le (flush_serves o l)) h
  | write data => exact pending_write_le data h
  | flushRetry timeout =>
    exact Nat.le_trans
      ((flushRetry_conserves timeout o l).length_le (flushRetry_serves timeout o l)) h
  | send data timeout => exact hcall.elim

theorem capacity_run (calls : List Call) (hcalls : ∀ call ∈ calls, call.Keeps) (o : Outbox)
    (l : Line) : (o.run calls l).2.1.capacity = o.capacity := by
  induction calls generalizing o l with
  | nil => rfl
  | cons call rest ih =>
    obtain ⟨hcall, hrest⟩ := List.forall_mem_cons.1 hcalls
    exact (ih hrest ..).trans (capacity_perform hcall o l)

theorem pending_run_le (calls : List Call) (hcalls : ∀ call ∈ calls, call.Keeps)
    (hwrites : ∀ call ∈ calls, ∀ data, call ≠ .extend data) (o : Outbox) (l : Line)
    (h : o.pending.length ≤ o.capacity) :
    (o.run calls l).2.1.pending.length ≤ o.capacity := by
  induction calls generalizing o l with
  | nil => exact h
  | cons call rest ih =>
    obtain ⟨hcall, hrest⟩ := List.forall_mem_cons.1 hcalls
    obtain ⟨hwrite, hmore⟩ := List.forall_mem_cons.1 hwrites
    have hcapacity := capacity_perform hcall o l
    have hfirst := pending_perform_le (l := l) hcall hwrite h
    exact Nat.le_trans (ih hrest hmore _ _ (hcapacity.symm ▸ hfirst)) (Nat.le_of_eq hcapacity)

/-- **An outbox is a queue that loses nothing.**  This is so for every capacity asked for,
over all calls in any order that neither give the pending bytes up nor send past them, and
for all that a transport may answer.

* What the transport accepted, followed by what is pending, is what the calls queued: the
  data that was appended, and of the data of each write as much as the write answers for,
  which is never more than there is.
* A write that fails moved the front of what was pending, and nothing of its data.
* A retrying flush that fails moved nothing.
* If the calls append nothing, what is pending keeps to the capacity. -/
theorem lossless_queue (requested : Nat) (t : Transport) (calls : List Call)
    (hcalls : ∀ call ∈ calls, call.Keeps) :
    let first := ofCapacity requested
    let line : Line := { transport := t.unused }
    let outcomes := (first.run calls line).1
    let o := (first.run calls line).2.1
    let l := (first.run calls line).2.2
    l.transport.accepted ++ o.pending = (List.zipWith Call.queued calls outcomes).flatten ∧
      (∀ data count, (o.write data l).1 = .ok count → count ≤ data.length) ∧
      (∀ data e, (o.write data l).1 = .error e → ∃ sent,
        (o.write data l).2.2.transport.accepted =
            l.transport.accepted ++ o.pending.take sent ∧
          (o.write data l).2.1.pending = o.pending.drop sent) ∧
      (∀ timeout e, (o.flushRetry timeout l).1 = .error e →
        (o.flushRetry timeout l).2.2.transport.accepted = l.transport.accepted ∧
          (o.flushRetry timeout l).2.1.pending = o.pending) ∧
      (o.capacity = Capacity.granted requested ∧
        ((∀ call ∈ calls, ∀ data, call ≠ .extend data) → o.pending.length ≤ o.capacity)) := by
  intro first line outcomes o l
  have hout : o.output l = first.output line ++ (List.zipWith Call.queued calls outcomes).flatten :=
    output_run calls hcalls first line
  have hcapacity : o.capacity = first.capacity := capacity_run calls hcalls first line
  refine ⟨hout, ?_, ?_, ?_, hcapacity, ?_⟩
  · exact fun data count hok => write_le hok
  · intro data e herror
    exact (write_conserves_of_error herror).exists_sent (write_serves data o l)
  · intro timeout e herror
    obtain ⟨hkept, haccepted⟩ := flushRetry_of_error herror
    exact ⟨haccepted, congrArg pending hkept⟩
  · intro hwrites
    have hle := pending_run_le calls hcalls hwrites first line (Nat.zero_le _)
    exact hcapacity.symm ▸ hle

/-- A transport that takes little at a time and fails in between in every way there is. -/
def faulty : Transport :=
  { outgoing := [.accept 1, .fail .interrupted 0, .accept 2, .fail .wouldBlock 0, .accept 2,
      .accept 0, .fail .connectionReset 0, .accept 1, .fail .brokenPipe 0] }

/-- Every way of queueing and of sending. -/
def mixed : List Call :=
  [.write [1, 2, 3], .extend [4, 5], .flush, .write [6, 7], .write [8], .flushRetry 10]

/-- Six bytes are out and the seventh is owed; the eighth was refused. -/
theorem lossless_queue_mixed :
    let after := (ofCapacity 4).run mixed { transport := faulty.unused }
    (∀ call ∈ mixed, call.Keeps) ∧
      after.2.2.transport.accepted ++ after.2.1.pending = [1, 2, 3, 4, 5, 6, 7] ∧
      after.2.1.pending = [7] := by
  intro after
  have hkeeps : ∀ call ∈ mixed, call.Keeps := by decide
  refine ⟨hkeeps, (lossless_queue 4 faulty mixed hkeeps).1.trans ?_, ?_⟩
  · decide +kernel
  · decide +kernel

end Outbox
end RemoteTerminal
