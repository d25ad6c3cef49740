/-
# What a session does with its transport

As long as a session is in use it reads, writes and asks for urgent bytes, and nothing
else: `Transport.Serves` is the way from one state of a transport to a later one by such
calls.  The history only grows on that way (`GrewTo`), so nothing of what was accepted is
taken back (`Serves.accepted_grows`), and the transport is not shut down
(`Serves.shutdowns_eq`).

Both stream buffers keep to it, in whatever way a call of theirs ends.
-/

import RemoteTerminal.Proofs.Stream.Steps
import RemoteTerminal.Stream.Intake

namespace RemoteTerminal

namespace Transport

/-- From one state of a transport to a later one by reads, writes and urgent reads. -/
inductive Serves : Transport → Transport → Prop where
  | refl (t : Transport) : Serves t t
  | read {t t' : Transport} (h : Serves t t') (room : Nat) : Serves t (t'.read room).2
  | urgent {t t' : Transport} (h : Serves t t') (room : Nat) : Serves t (t'.urgent room).2
  | write {t t' : Transport} (h : Serves t t') (offered : Bytes) : Serves t (t'.write offered).2

/-- A read is one more call in the history. -/
theorem history_read (room : Nat) (t : Transport) :
    (t.read room).2.history = t.history ++ [.read room (t.read room).1] := by
  unfold read
  split <;> rfl

theorem history_write (offered : Bytes) (t : Transport) :
    (t.write offered).2.history = t.history ++ [.write offered (t.write offered).1] := by
  unfold write
  split <;> rfl

/-- A transport that has no urgent data is not asked for any. -/
theorem urgent_of_dataOnly (room : Nat) {t : Transport} (h : t.dataOnly = true) :
    t.urgent room = (.error .wouldBlock, t) := by
  rw [urgent, if_pos h]

theorem history_urgent (room : Nat) {t : Transport} (h : ¬ t.dataOnly = true) :
    (t.urgent room).2.history = t.history ++ [.urgent room (t.urgent room).1] := by
  rw [urgent, if_neg h]
  split
  · rfl
  · split <;> rfl

/-- The history of a transport grew, and by no shutdown. -/
def GrewTo (t t' : Transport) : Prop :=
  ∃ calls : List Exchange, t'.history = t.history ++ calls ∧ ∀ e ∈ calls, e.isShutdown = false

/-- One more call is in the history. -/
theorem GrewTo.snoc {t t' t'' : Transport} {e : Exchange} (h : GrewTo t t')
    (hmore : t''.history = t'.history ++ [e]) (he : e.isShutdown = false) : GrewTo t t'' := by
  obtain ⟨calls, hcalls, hnone⟩ := h
  refine ⟨calls ++ [e], by rw [hmore, hcalls, List.append_assoc], fun e' he' => ?_⟩
  rcases List.mem_append.1 he' with he' | he'
  · exact hnone e' he'
  · rwa [List.mem_singleton.1 he']

/-! ### The kind of a transport -/

@[simp] theorem dataOnly_read (room : Nat) (t : Transport) :
    (t.read room).2.dataOnly = t.dataOnly := by
  unfold read
  split <;> rfl

@[simp] theorem dataOnly_write (offered : Bytes) (t : Transport) :
    (t.write offered).2.dataOnly = t.dataOnly := by
  unfold write
  split <;> rfl

@[simp] theorem dataOnly_urgent (room : Nat) (t : Transport) :
    (t.urgent room).2.dataOnly = t.dataOnly := by
  unfold urgent
  split
  · rfl
  · split
    · rfl
    · split <;> rfl

namespace Serves

variable {t t' t'' : Transport}

theorem trans (h : Serves t t') (h' : Serves t' t'') : Serves t t'' := by
  induction h' with
  | refl => exact h
  | read _ room ih => exact ih.read room
  | urgent _ room ih => exact ih.urgent room
  | write _ offered ih => exact ih.write offered

theorem dataOnly_eq (h : Serves t t') : t'.dataOnly = t.dataOnly := by
  induction h with
  | refl => rfl
  | read _ room ih => exact (dataOnly_read ..).trans ih
  | urgent _ room ih => exact (dataOnly_urgent ..).trans ih
  | write _ offered ih => exact (dataOnly_write ..).trans ih

/-- The history only grows, and by no shutdown. -/
theorem grewTo (h : Serves t t') : GrewTo t t' := by
  induction h with
  | refl => exact ⟨[], (List.append_nil _).symm, fun e he => absurd he List.not_mem_nil⟩
  | @read u _ room ih => exact ih.snoc (history_read room u) rfl
  | @urgent u _ room ih =>
    by_cases hkind : u.dataOnly = true
    · rwa [urgent_of_dataOnly room hkind]
    · exact ih.snoc (history_urgent room hkind) rfl
  | @write u _ offered ih => exact ih.snoc (history_write offered u) rfl

/-- A session in use does not shut its transport down. -/
theorem shutdowns_eq (h : Serves t t') : t'.shutdowns = t.shutdowns := by
  obtain ⟨calls, hcalls, hnone⟩ := h.grewTo
  have hzero : calls.countP Exchange.isShutdown = 0 :=
    List.countP_eq_zero.2 fun e he => by simp [hnone e he]
  rw [shutdowns, shutdowns, hcalls, List.countP_append, hzero, Nat.add_zero]

/-- What was accepted stays accepted. -/
theorem accepted_grows (h : Serves t t') : t.accepted <+: t'.accepted := by
  obtain ⟨calls, hcalls, -⟩ := h.grewTo
  rw [accepted, accepted, hcalls, List.flatMap_append]
  exact List.prefix_append ..

end Serves
end Transport

/-- A line after calls of its session. -/
def Line.Serves (l l' : Line) : Prop := l.transport.Serves l'.transport

namespace Line.Serves

variable {l l' l'' : Line}

theorem refl (l : Line) : l.Serves l := Transport.Serves.refl _

theorem trans (h : l.Serves l') (h' : l'.Serves l'') : l.Serves l'' := Transport.Serves.trans h h'

/-- The journal has no part in it. -/
theorem log (h : l.Serves l') (notes : List Note) : l.Serves (l'.log notes) := h

theorem of_read {room : Nat} {answer : Except Fault Bytes} (h : l.read room = (answer, l')) :
    l.Serves l' := by
  obtain rfl : (l.read room).2 = l' := congrArg Prod.snd h
  exact (Transport.Serves.refl _).read room

theorem of_write {offered : Bytes} {answer : Except Fault Nat}
    (h : l.write offered = (answer, l')) : l.Serves l' := by
  obtain rfl : (l.write offered).2 = l' := congrArg Prod.snd h
  exact (Transport.Serves.refl _).write offered

end Line.Serves

/-! ### The input side -/

namespace Intake

theorem fill_serves (limit : Nat) (i : Intake) (l : Line) : l.Serves (i.fill limit l).2.2 := by
  unfold fill
  dsimp only
  split
  · exact .refl l
  · split
    · exact .refl l
    · split
      · rename_i l' hr
        exact (Line.Serves.of_read hr).log _
      · rename_i l' hne hr
        exact .of_read hr
      · rename_i f l' hr
        have hserves := Line.Serves.of_read hr
        split
        · exact hserves
        · split
          · exact hserves
          · exact hserves.log _

theorem read_serves (room : Nat) (i : Intake) (l : Line) : l.Serves (i.read room l).2.2 := by
  unfold read
  split
  · exact .refl l
  · split
    · exact (Line.Serves.refl l).log _
    · exact .refl l
    · rename_i i' hp
      have hfill := fill_serves room i' l
      split
      · rename_i e i'' l' hf
        rwa [hf] at hfill
      · rename_i i'' l' hf
        rwa [hf] at hfill

end Intake

/-! ### The output side -/

/-- By induction on the raw writes of the send. -/
theorem SendsBy.serves {timeout start sent : Nat} {rest : Bytes} {l : Line}
    {result : Except TransportError Nat × Line} (h : SendsBy timeout start sent rest l result) :
    l.Serves result.2 := by
  induction h with
  | complete sent l => exact .refl l
  | took hrest hcount hw hmore ih => exact (Line.Serves.of_write hw).trans ih
  | satOut hw hf hmore ih => exact (Line.Serves.of_write hw).trans ih
  | late hw => exact (Line.Serves.of_write hw).log _
  | refused hw => exact .of_write hw
  | stopped hsent hw => exact .of_write hw
  | failed hw hi hb => exact .of_write hw
  | cutOff hsent hw => exact (Line.Serves.of_write hw).log _

namespace Outbox

/-- By induction on the raw writes of the flush. -/
theorem flush_serves (o : Outbox) (l : Line) : l.Serves (o.flush l).2.2 := by
  have hflushes := flush_flushesBy o l
  generalize o.flush l = result at hflushes ⊢
  induction hflushes with
  | complete hp => exact .refl _
  | took hp hcount hw hmore ih => exact (Line.Serves.of_write hw).trans ih
  | interrupted hw hi hmore ih => exact (Line.Serves.of_write hw).trans ih
  | stalled hp hw => exact .of_write hw
  | refused hp hw => exact .of_write hw
  | failed hp hw hi hb => exact .of_write hw

theorem flushRetry_serves (timeout : Nat) (o : Outbox) (l : Line) :
    l.Serves (o.flushRetry timeout l).2.2 := by
  have hretries := flushRetry_retriesBy timeout o l
  generalize o.flushRetry timeout l = result at hretries ⊢
  cases hretries with
  | sent hs => exact hs.serves
  | failed hs => exact hs.serves

/-- The loop of `write`, by induction on the data that is left. -/
theorem pour_serves (data : Bytes) (o : Outbox) (l : Line) : l.Serves (o.pour data l).2.2 := by
  fun_induction pour data o l with
  | case1 => exact .refl _
  | case2 data o l count hsome o' l' hf more o'' l'' hmore ih =>
    have hfirst := flush_serves (o.extend (data.take count)) l
    rw [hf] at hfirst
    rw [hmore] at ih
    exact hfirst.trans ih
  | case3 data o l count hsome o' l' hf =>
    have hfirst := flush_serves (o.extend (data.take count)) l
    rwa [hf] at hfirst
  | case4 data o l count hsome e o' l' hf =>
    have hfirst := flush_serves (o.extend (data.take count)) l
    rw [hf] at hfirst
    exact hfirst.log _

theorem write_serves (data : Bytes) (o : Outbox) (l : Line) : l.Serves (o.write data l).2.2 := by
  have hfirst := flush_serves o l
  have hwrites := write_writesBy data o l
  generalize o.write data l = result at hwrites ⊢
  cases hwrites with
  | nothing hdata => exact .refl l
  | unsent hdata hf => exact hfirst
  | stalled hdata hf => exact hfirst
  | poured hdata hf => exact hfirst.trans (pour_serves data _ _)

end Outbox
end RemoteTerminal
