/-
# What a stream fails with

Two faults of a transport pass by themselves: a call that would block and one that was
interrupted (`Fault.isTransient`).  A stream makes such a call again or reports that it
would block.  All that it fails with besides is a hard fault which the transport has shown;
a write that takes nothing shows one as well (`Transport.Warrants`).

A history only grows, so what it warrants it warrants for good (`Warrants.serves`): a fault
that is held back is still warranted when it is reported.  Each place that looks at the
faults of a transport has a lemma here: `Intake.fill`, and the loops of `Outbox.flush` and
of `Line.sendRetrying`.
-/

import RemoteTerminal.Proofs.Stream.Service
import RemoteTerminal.Stream.Outcome

namespace RemoteTerminal

/-- Whether a fault passes by itself. -/
def Fault.isTransient (f : Fault) : Bool := f.isWouldBlock || f.isInterrupted

/-- The fault that a call of a transport shows.  A write that takes nothing of what it is
offered is as good as one that fails. -/
def Exchange.fault? : Exchange → Option Fault
  | read _ (.error f) | urgent _ (.error f) | write _ (.error f) => some f
  | write _ (.ok 0) => some .writeZero
  | _ => none

/-- The error of a result, if it failed. -/
def errorOf {ε α : Type} : Except ε α → Option ε
  | .error e => some e
  | .ok _ => none

theorem eq_error_of_errorOf {ε α : Type} {r : Except ε α} {e : ε} (h : errorOf r = some e) :
    r = .error e := by
  cases r with
  | error e' => exact congrArg Except.error (Option.some.inj h)
  | ok a => cases h

/-- The error of a call, if it failed. -/
def Outcome.error? {ε : Type} : Outcome ε → Option ε
  | done r => errorOf r
  | data r => errorOf r
  | count r => errorOf r
  | flushed r => errorOf r
  | nothing | taken _ | due _ => none

namespace Transport

/-- A transport has shown a fault. -/
def Shows (t : Transport) (f : Fault) : Prop := ∃ e ∈ t.history, e.fault? = some f

/-- What there is to fail with over a transport: to block, and the hard faults that it has
shown. -/
inductive Warrants (t : Transport) : TransportError → Prop where
  | wouldBlock : Warrants t .wouldBlock
  | hard {f : Fault} (hard : f.isTransient = false) (shown : t.Shows f) : Warrants t (.io f)

theorem Shows.serves {t t' : Transport} {f : Fault} (h : t.Shows f) (hs : t.Serves t') :
    t'.Shows f := by
  obtain ⟨e, he, hf⟩ := h
  obtain ⟨calls, hcalls, -⟩ := hs.grewTo
  exact ⟨e, hcalls ▸ List.mem_append_left calls he, hf⟩

/-- What is warranted once is warranted for good. -/
theorem Warrants.serves {t t' : Transport} {e : TransportError} (h : t.Warrants e)
    (hs : t.Serves t') : t'.Warrants e := by
  rcases h with _ | ⟨hhard, hshown⟩
  · exact .wouldBlock
  · exact .hard hhard (hshown.serves hs)

/-- What is warranted is to block or hard, so no transient fault is. -/
theorem Warrants.isTransient_eq_false {t : Transport} {f : Fault} (h : t.Warrants (.io f)) :
    f.isTransient = false := by
  rcases h with _ | ⟨hhard, -⟩
  exact hhard

end Transport

namespace Line

variable {l l' : Line} {f : Fault}

theorem shows_of_read {room : Nat} (h : l.read room = (.error f, l')) : l'.transport.Shows f := by
  obtain rfl : (l.read room).2 = l' := congrArg Prod.snd h
  have hanswer : (l.transport.read room).1 = .error f := congrArg Prod.fst h
  refine ⟨.read room (.error f), ?_, rfl⟩
  rw [transport_read, Transport.history_read, hanswer]
  exact List.mem_append_right _ (List.mem_singleton_self _)

theorem shows_of_write {offered : Bytes} {answer : Except Fault Nat}
    (h : l.write offered = (answer, l')) (hf : (Exchange.write offered answer).fault? = some f) :
    l'.transport.Shows f := by
  obtain rfl : (l.write offered).2 = l' := congrArg Prod.snd h
  obtain rfl : (l.transport.write offered).1 = answer := congrArg Prod.fst h
  refine ⟨_, ?_, hf⟩
  have hhistory : (l.write offered).2.transport.history = _ :=
    Transport.history_write offered l.transport
  rw [hhistory]
  exact List.mem_append_right _ (List.mem_singleton_self _)

theorem shows_of_urgent {room : Nat} (h : (l.urgent room).1 = .error f)
    (hf : f ≠ .wouldBlock) : (l.urgent room).2.transport.Shows f := by
  by_cases hkind : l.transport.dataOnly = true
  -- A transport without urgent data answers nothing but that it would block.
  · have hanswer : (l.transport.urgent room).1 = .error f := h
    rw [Transport.urgent_of_dataOnly room hkind] at hanswer
    exact absurd (Except.error.inj hanswer).symm hf
  · refine ⟨.urgent room (.error f), ?_, rfl⟩
    have hanswer : (l.transport.urgent room).1 = .error f := h
    have hhistory : (l.urgent room).2.transport.history = _ :=
      Transport.history_urgent room hkind
    rw [hhistory, hanswer]
    exact List.mem_append_right _ (List.mem_singleton_self _)

/-- A line backs a result: no error, or one that its transport warrants. -/
def Backs {α : Type} (l : Line) (r : Except TransportError α) : Prop :=
  ∀ e, r = .error e → l.transport.Warrants e

section Backs

variable {α β : Type} {e : TransportError} {r : Except TransportError α}

theorem backs_ok (l : Line) (a : α) : l.Backs (.ok a : Except TransportError α) :=
  fun _ h => nomatch h

theorem backs_error (h : l.transport.Warrants e) : l.Backs (.error e : Except TransportError α) :=
  fun _ he => Except.error.inj he ▸ h

theorem backs_wouldBlock (l : Line) : l.Backs (.error .wouldBlock : Except TransportError α) :=
  backs_error .wouldBlock

theorem Backs.warrants (h : l.Backs (.error e : Except TransportError α)) :
    l.transport.Warrants e := h e rfl

/-- An error is the same one in the result of another call. -/
theorem Backs.of_error (h : l.Backs (.error e : Except TransportError α)) :
    l.Backs (.error e : Except TransportError β) := backs_error h.warrants

theorem Backs.map (h : l.Backs r) (g : α → β) : l.Backs (r.map g) := by
  rcases r with e | a
  · exact h.of_error
  · exact backs_ok l (g a)

end Backs

/-- A write that takes nothing is a fault to report. -/
theorem backs_writeZero {α : Type} {offered : Bytes} (h : l.write offered = (.ok 0, l')) :
    l'.Backs (.error (.io .writeZero) : Except TransportError α) :=
  backs_error (.hard rfl (shows_of_write h rfl))

/-- So is a write that fails, unless the fault passes. -/
theorem backs_of_write {α : Type} {offered : Bytes} (h : l.write offered = (.error f, l'))
    (hi : ¬ f.isInterrupted = true) (hb : ¬ f.isWouldBlock = true) :
    l'.Backs (.error (.io f) : Except TransportError α) :=
  backs_error (.hard (by simp [Fault.isTransient, hi, hb]) (shows_of_write h rfl))

end Line

/-! ### The input side -/

namespace Intake

theorem fill_backs (limit : Nat) (i : Intake) (l : Line) :
    (i.fill limit l).2.2.Backs (i.fill limit l).1 := by
  unfold fill
  dsimp only
  split
  · exact Line.backs_ok l ()
  · split
    · exact Line.backs_ok l ()
    · split
      · exact Line.backs_ok _ ()
      · exact Line.backs_ok _ ()
      · rename_i f l' hr
        split
        · split
          · exact Line.backs_wouldBlock l'
          · exact Line.backs_ok l' ()
        · rename_i hhard
          split
          · exact Line.backs_error (.hard (Bool.eq_false_iff.2 hhard) (Line.shows_of_read hr))
          · exact Line.backs_ok _ ()

theorem read_backs (room : Nat) (i : Intake) (l : Line) :
    (i.read room l).2.2.Backs (i.read room l).1 := by
  unfold read
  split
  · exact Line.backs_ok l []
  · split
    · exact Line.backs_ok _ _
    · exact Line.backs_ok l []
    · rename_i i' hp
      have hfill := fill_backs room i' l
      split
      · rename_i e i'' l' hf
        rw [hf] at hfill
        exact hfill.of_error
      · rename_i i'' l' hf
        dsimp only
        split
        · exact Line.backs_wouldBlock l'
        · exact Line.backs_ok l' _

end Intake

/-! ### The output side -/

namespace SendsBy

variable {timeout start sent : Nat} {rest : Bytes} {l : Line}
  {result : Except TransportError Nat × Line}

/-- By induction on the raw writes of the send. -/
theorem backs (h : SendsBy timeout start sent rest l result) : result.2.Backs result.1 := by
  induction h with
  | complete sent l => exact Line.backs_ok l sent
  | took hrest hcount hw hmore ih => exact ih
  | satOut hw hf hmore ih => exact ih
  | late hw => exact Line.backs_ok _ _
  | refused hw => exact Line.backs_writeZero hw
  | stopped hsent hw => exact Line.backs_ok _ _
  | failed hw hi hb => exact Line.backs_of_write hw hi hb
  | cutOff hsent hw => exact Line.backs_ok _ _

/-- A retrying send never blocks: it gives up with what it has sent. -/
theorem ne_wouldBlock (h : SendsBy timeout start sent rest l result) :
    result.1 ≠ .error .wouldBlock := by
  induction h with
  | took hrest hcount hw hmore ih => exact ih
  | satOut hw hf hmore ih => exact ih
  | complete | late | refused | stopped | failed | cutOff => exact nofun

end SendsBy

namespace Outbox

/-- By induction on the raw writes of the flush. -/
theorem flush_backs (o : Outbox) (l : Line) : (o.flush l).2.2.Backs (o.flush l).1 := by
  have hflushes := flush_flushesBy o l
  generalize o.flush l = result at hflushes ⊢
  induction hflushes with
  | complete hp => exact Line.backs_ok _ _
  | took hp hcount hw hmore ih => exact ih
  | interrupted hw hi hmore ih => exact ih
  | stalled hp hw => exact Line.backs_ok _ _
  | refused hp hw => exact Line.backs_writeZero hw
  | failed hp hw hi hb => exact Line.backs_of_write hw hi hb

theorem flushRetry_backs (timeout : Nat) (o : Outbox) (l : Line) :
    (o.flushRetry timeout l).2.2.Backs (o.flushRetry timeout l).1 := by
  have hretries := flushRetry_retriesBy timeout o l
  generalize o.flushRetry timeout l = result at hretries ⊢
  cases hretries with
  | sent hs => exact Line.backs_ok _ _
  | failed hs => exact hs.backs

theorem flushRetry_ne_wouldBlock (timeout : Nat) (o : Outbox) (l : Line) :
    (o.flushRetry timeout l).1 ≠ .error .wouldBlock := by
  have hretries := flushRetry_retriesBy timeout o l
  generalize o.flushRetry timeout l = result at hretries ⊢
  cases hretries with
  | sent hs => exact nofun
  | failed hs => exact hs.ne_wouldBlock

/-- A write fails only in sending what was pending before. -/
theorem write_backs (data : Bytes) (o : Outbox) (l : Line) :
    (o.write data l).2.2.Backs (o.write data l).1 := by
  have hwrites := write_writesBy data o l
  generalize o.write data l = result at hwrites ⊢
  cases hwrites with
  | nothing hdata => exact Line.backs_ok l 0
  | unsent hdata hf =>
    have hflush := flush_backs o l
    rw [hf] at hflush
    exact hflush.of_error
  | stalled hdata hf => exact Line.backs_wouldBlock _
  | poured hdata hf => exact Line.backs_ok _ _

end Outbox
end RemoteTerminal
