/-
# An outbox loses nothing

What the transport has accepted, followed by what is pending, is the whole output of
a session so far.  Sending moves bytes over the line between the two and touches
neither side (`Conserves`): this is so of both ways of sending, `flush` and
`flushRetry`, whatever the transport answers and wherever they stop
(`flush_conserves`, `flushRetry_conserves`).  A write adds to the output the beginning
of the data that it answers for, and nothing if it fails (`write_conserves`).
-/

import RemoteTerminal.Proofs.Stream.Steps

namespace RemoteTerminal
namespace Outbox

/-- All output so far: what was accepted, then what is pending. -/
def output (o : Outbox) (l : Line) : Bytes := l.transport.accepted ++ o.pending

/-- Going from one outbox and line to others moved bytes of the output, at most: none
is lost, doubled or out of its order, and nothing was read. -/
structure Conserves (o : Outbox) (l : Line) (o' : Outbox) (l' : Line) : Prop where
  output_eq : o'.output l' = o.output l
  readAnswers_eq : l'.transport.readAnswers = l.transport.readAnswers
  capacity_eq : o'.capacity = o.capacity

namespace Conserves

theorem refl (o : Outbox) (l : Line) : Conserves o l o l := ⟨rfl, rfl, rfl⟩

theorem trans {o o' o'' : Outbox} {l l' l'' : Line} (h : Conserves o l o' l')
    (h' : Conserves o' l' o'' l'') : Conserves o l o'' l'' :=
  ⟨h'.output_eq.trans h.output_eq, h'.readAnswers_eq.trans h.readAnswers_eq,
    h'.capacity_eq.trans h.capacity_eq⟩

end Conserves

@[simp] theorem output_log (o : Outbox) (l : Line) (notes : List Note) :
    o.output (l.log notes) = o.output l := rfl

/-- Queued bytes are the newest of the output. -/
theorem output_extend (o : Outbox) (l : Line) (data : Bytes) :
    (o.extend data).output l = o.output l ++ data := by
  simp [output, extend, List.append_assoc]

section OneWrite

variable {o : Outbox} {l l' : Line}

/-- One write of what is pending, after which the bytes that it took are pending no
longer. -/
theorem conserves_of_write {count : Nat} (hw : l.write o.pending = (.ok count, l')) :
    Conserves o l { o with pending := o.pending.drop count } l' := by
  refine ⟨?_, Line.readAnswers_of_write hw, rfl⟩
  rw [output, Line.accepted_of_write hw, List.append_assoc, List.take_append_drop]
  rfl

/-- A write that fails takes nothing. -/
theorem conserves_of_failed_write {f : Fault} (hw : l.write o.pending = (.error f, l')) :
    Conserves o l o l' := by
  refine ⟨?_, Line.readAnswers_of_write hw, rfl⟩
  rw [output, Line.accepted_of_failed_write hw]
  rfl

end OneWrite

/-! ### Sending until something stops it -/

/-- **Flushing loses nothing**, whether it completes, stalls or fails; by induction on its
raw writes. -/
theorem flush_conserves (o : Outbox) (l : Line) :
    Conserves o l (o.flush l).2.1 (o.flush l).2.2 := by
  have hflushes := flush_flushesBy o l
  generalize o.flush l = result at hflushes ⊢
  induction hflushes with
  | complete hp => exact .refl _ _
  | took hp hcount hw hmore ih => exact (conserves_of_write hw).trans ih
  | interrupted hw hi hmore ih => exact (conserves_of_failed_write hw).trans ih
  | stalled hp hw => exact conserves_of_failed_write hw
  | refused hp hw => exact conserves_of_write hw
  | failed hp hw hi hb => exact conserves_of_failed_write hw

/-! ### Sending with retries -/

/-- What a retrying send comes to: it took `more` bytes off the front of `rest`, it
counts them to the `sent` bytes before, and it failed only if there is nothing to
count. -/
structure Sent (sent more : Nat) (rest : Bytes) (l : Line) (result : Except TransportError Nat)
    (l' : Line) : Prop where
  accepted_eq : l'.transport.accepted = l.transport.accepted ++ rest.take more
  readAnswers_eq : l'.transport.readAnswers = l.transport.readAnswers
  count_eq : ∀ count, result = .ok count → count = sent + more
  nothing : ∀ e, result = .error e → sent + more = 0

namespace Sent

variable {sent count more : Nat} {rest : Bytes} {l l' l'' : Line}
  {result : Except TransportError Nat}

/-- What one more write adds to what a send comes to. -/
theorem step (hw : l.write rest = (.ok count, l'))
    (h : Sent (sent + count) more (rest.drop count) l' result l'') :
    Sent sent (count + more) rest l result l'' := by
  refine ⟨?_, h.readAnswers_eq.trans (Line.readAnswers_of_write hw), fun n hn => ?_, fun e he => ?_⟩
  · rw [h.accepted_eq, Line.accepted_of_write hw, List.append_assoc, List.take_add]
  · rw [h.count_eq n hn, Nat.add_assoc]
  · rw [← Nat.add_assoc, h.nothing e he]

/-- A write that fails adds nothing. -/
theorem failed {f : Fault} (hw : l.write rest = (.error f, l'))
    (h : Sent sent more rest l' result l'') : Sent sent more rest l result l'' := by
  refine ⟨?_, h.readAnswers_eq.trans (Line.readAnswers_of_write hw), h.count_eq, h.nothing⟩
  rw [h.accepted_eq, Line.accepted_of_failed_write hw]

/-- A send that stops here answers with what was sent before. -/
theorem done (h : l'.transport = l.transport) : Sent sent 0 rest l (.ok sent) l' :=
  ⟨by simp [h], by rw [h], fun _ hn => (Except.ok.inj hn).symm, fun _ he => nomatch he⟩

/-- A send that fails before its first byte has sent nothing. -/
theorem fault (h : sent = 0) (e : TransportError) : Sent sent 0 rest l (.error e) l :=
  ⟨by simp, rfl, fun _ hn => (nomatch hn), fun _ _ => h⟩

end Sent

/-- By induction on the raw writes of the send. -/
theorem exists_sent {timeout start sent : Nat} {rest : Bytes} {l : Line}
    {result : Except TransportError Nat × Line} (h : SendsBy timeout start sent rest l result) :
    ∃ more, Sent sent more rest l result.1 result.2 := by
  induction h with
  | complete sent l => exact ⟨0, .done rfl⟩
  | took hrest hcount hw hmore ih =>
    obtain ⟨more, hsent⟩ := ih
    exact ⟨_, .step hw hsent⟩
  | satOut hw hf hmore ih =>
    obtain ⟨more, hsent⟩ := ih
    exact ⟨more, .failed hw hsent⟩
  | late hw => exact ⟨0, .failed hw (.done rfl)⟩
  | refused hw => exact ⟨_, .step hw (.fault rfl _)⟩
  | stopped hsent hw => exact ⟨_, .step hw (.done rfl)⟩
  | failed hw hi hb => exact ⟨0, .failed hw (.fault rfl _)⟩
  | cutOff hsent hw => exact ⟨0, .failed hw (.done rfl)⟩

/-- **A retrying flush loses nothing**, whether it sends all, runs out of time or
fails. -/
theorem flushRetry_conserves (timeout : Nat) (o : Outbox) (l : Line) :
    Conserves o l (o.flushRetry timeout l).2.1 (o.flushRetry timeout l).2.2 := by
  have hretries := flushRetry_retriesBy timeout o l
  generalize o.flushRetry timeout l = result at hretries ⊢
  cases hretries with
  | @sent count l' hs =>
    obtain ⟨more, h⟩ := exists_sent hs
    have hsent := h.count_eq count rfl
    refine ⟨?_, h.readAnswers_eq, rfl⟩
    rw [output, h.accepted_eq, show count = more by omega, List.append_assoc,
      List.take_append_drop]
    rfl
  | @failed e l' hs =>
    obtain ⟨more, h⟩ := exists_sent hs
    have hnone := h.nothing e rfl
    refine ⟨?_, h.readAnswers_eq, rfl⟩
    rw [output, h.accepted_eq, show more = 0 by omega, List.take_zero, List.append_nil]
    rfl

/-! ### A caller's bytes -/

/-- What was sent before may as well have been sent before more was queued. -/
theorem Conserves.extend {o o' : Outbox} {l l' : Line} (h : Conserves o l o' l') (data : Bytes) :
    Conserves (o.extend data) l (o'.extend data) l' :=
  ⟨by rw [output_extend, output_extend, h.output_eq], h.readAnswers_eq, h.capacity_eq⟩

/-- Data that is queued in two parts is queued. -/
theorem extend_extend (o : Outbox) (data more : Bytes) :
    (o.extend data).extend more = o.extend (data ++ more) := by
  simp [extend, List.append_assoc]

@[simp] theorem extend_nil (o : Outbox) : o.extend [] = o := by simp [extend]

/-- The data that a count of accepted bytes answers for. -/
def counted {ε : Type} (data : Bytes) : Except ε Nat → Bytes
  | .ok count => data.take count
  | .error _ => []

/-- The loop of `write`, by induction on the data that is left: it queues the bytes that
it counts, and sends some of the output. -/
theorem pour_conserves (data : Bytes) (o : Outbox) (l : Line) :
    (o.pour data l).1 ≤ data.length ∧
      Conserves (o.extend (data.take (o.pour data l).1)) l (o.pour data l).2.1
        (o.pour data l).2.2 := by
  fun_induction pour data o l with
  | case1 data o l count hnone => exact ⟨Nat.zero_le _, by simpa using Conserves.refl o l⟩
  | case2 data o l count hsome o' l' hf more o'' l'' hmore ih =>
    have hfirst := flush_conserves (o.extend (data.take count)) l
    rw [hf] at hfirst
    rw [hmore, List.length_drop] at ih
    obtain ⟨hle, hrest⟩ := ih
    have hcount : count ≤ data.length := Nat.min_le_right ..
    refine ⟨by omega, ?_⟩
    rw [List.take_add, ← extend_extend]
    exact (hfirst.extend _).trans hrest
  | case3 data o l count hsome o' l' hf =>
    have hfirst := flush_conserves (o.extend (data.take count)) l
    rw [hf] at hfirst
    exact ⟨Nat.min_le_right .., hfirst⟩
  | case4 data o l count hsome e o' l' hf =>
    have hfirst := flush_conserves (o.extend (data.take count)) l
    rw [hf] at hfirst
    exact ⟨Nat.min_le_right .., hfirst.output_eq, hfirst.readAnswers_eq, hfirst.capacity_eq⟩

/-- **A write loses nothing.**  It adds to the output the beginning of the data that it
answers for, and nothing if it fails. -/
theorem write_conserves (data : Bytes) (o : Outbox) (l : Line) :
    Conserves (o.extend (counted data (o.write data l).1)) l (o.write data l).2.1
      (o.write data l).2.2 := by
  have hfirst := flush_conserves o l
  have hwrites := write_writesBy data o l
  generalize o.write data l = result at hwrites ⊢
  cases hwrites with
  | nothing hdata =>
    rw [counted, List.take_zero, extend_nil]
    exact .refl o l
  | unsent hdata hf => rwa [counted, extend_nil]
  | stalled hdata hf => rwa [counted, extend_nil]
  | poured hdata hf => exact (hfirst.extend _).trans (pour_conserves data _ _).2

/-- A write answers for no more than it was given. -/
theorem write_le {data : Bytes} {o : Outbox} {l : Line} {count : Nat}
    (h : (o.write data l).1 = .ok count) : count ≤ data.length := by
  have hwrites := write_writesBy data o l
  generalize o.write data l = result at h hwrites
  cases hwrites with
  | nothing hdata => exact Except.ok.inj h ▸ Nat.zero_le _
  | unsent hdata hf => cases h
  | stalled hdata hf => cases h
  | poured hdata hf => exact Except.ok.inj h ▸ (pour_conserves ..).1

end Outbox
end RemoteTerminal
