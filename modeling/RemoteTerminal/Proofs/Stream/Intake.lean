/-
# What an intake has told its reader

Between two calls of a session the intake holds nothing (`Intake.Drained`): what a
read of the line brought was used at once.  So what is due to the reader depends on
the phase alone (`Intake.poll_of_flowing` and its companions), and a fill makes one
read of the line and ends in one of three ways (`Intake.Filled`, `Intake.fill_filled`).

The phase keeps the account of the close notice.  `Phase.told` is the part of it that
is out; each piece adds to it what the piece is (`Phase.told_after`), and no piece is
empty before the last one is out (`Farewell.piece_ne_nil`).
-/

import RemoteTerminal.Proofs.Transport
import RemoteTerminal.Stream.Intake

namespace RemoteTerminal

/-! ### The notice -/

/-- The part of the close notice that is out. -/
def Phase.told : Phase → Bytes
  | flowing | ended => []
  | notice sent => closeNotice.take sent
  | closed => closeNotice

/-- What is out is the beginning of the notice. -/
theorem Phase.exists_told_eq_take (p : Phase) :
    ∃ count ≤ closeNotice.length, p.told = closeNotice.take count := by
  cases p with
  | flowing | ended => exact ⟨0, Nat.zero_le _, rfl⟩
  | notice sent => exact ⟨min sent closeNotice.length, Nat.min_le_right .., by simp [told]⟩
  | closed => exact ⟨closeNotice.length, Nat.le_refl _, by simp [told]⟩

namespace Farewell

/-- As long as the notice is not complete, there is something to say of it. -/
theorem piece_ne_nil {sent room : Nat} (hs : sent < closeNotice.length) (hr : room ≠ 0) :
    piece sent room ≠ [] := by
  have := piece_length sent room
  intro h
  rw [h, List.length_nil] at this
  omega

/-- The notice is under way only as long as it is not complete. -/
theorem lt_of_after_eq_notice {sent room sent' : Nat} (h : after sent room = .notice sent') :
    sent' < closeNotice.length := by
  unfold after completes at h
  split at h
  · cases h
  · obtain rfl := Phase.notice.inj h
    simp_all

theorem after_ne_flowing (sent room : Nat) : after sent room ≠ .flowing := by
  unfold after
  split <;> simp

theorem after_ne_ended (sent room : Nat) : after sent room ≠ .ended := by
  unfold after
  split <;> simp

end Farewell

/-- A piece is out once it was handed out. -/
theorem Phase.told_after (sent room : Nat) :
    (Farewell.after sent room).told = closeNotice.take sent ++ Farewell.piece sent room := by
  rw [Farewell.take_append_piece]
  unfold Farewell.after Farewell.completes
  split
  · rename_i h
    rw [told, List.take_of_length_le (by simpa using h)]
  · rfl

namespace Intake

/-- Nothing is held, and there is room. -/
structure Drained (i : Intake) : Prop where
  buffer_eq : i.buffer = []
  capacity_pos : 0 < i.capacity

theorem drained_ofCapacity (requested : Nat) : (ofCapacity requested).Drained :=
  ⟨rfl, Nat.lt_of_lt_of_le (by decide) (Capacity.least_le_granted requested)⟩

/-- The phase has no part in what is held. -/
theorem Drained.phase {i : Intake} (h : i.Drained) (p : Phase) : { i with phase := p }.Drained :=
  ⟨h.buffer_eq, h.capacity_pos⟩

/-- Nothing is lost with the buffer of a drained intake. -/
theorem Drained.forget {i : Intake} (h : i.Drained) : { i with buffer := [] } = i := by
  rw [← h.buffer_eq]

/-! ### What is due -/

theorem poll_of_flowing {i : Intake} (h : i.phase = .flowing) : i.poll = (.payload, i) := by
  unfold poll
  split
  · rfl
  · rw [h]

theorem poll_of_ended {i : Intake} (hi : i.Drained) (h : i.phase = .ended) :
    i.poll = (.notice, { i with phase := .notice 0 }) := by
  simp [poll, hi.buffer_eq, h]

theorem poll_of_notice {i : Intake} (hi : i.Drained) {sent : Nat} (h : i.phase = .notice sent) :
    i.poll = (.notice, i) := by
  simp [poll, hi.buffer_eq, h]

theorem poll_of_closed {i : Intake} (hi : i.Drained) (h : i.phase = .closed) :
    i.poll = (.nothing, i) := by
  simp [poll, hi.buffer_eq, h]

/-- If a drained intake has payload to bring, the stream is flowing. -/
theorem Drained.of_payload_due {i : Intake} (hi : i.Drained) (h : i.poll.1 = .payload) :
    i.phase = .flowing ∧ i.poll.2 = i := by
  cases hphase : i.phase with
  | flowing => exact ⟨rfl, by rw [poll_of_flowing hphase]⟩
  | ended => cases (congrArg Prod.fst (poll_of_ended hi hphase)).symm.trans h
  | notice sent => cases (congrArg Prod.fst (poll_of_notice hi hphase)).symm.trans h
  | closed => cases (congrArg Prod.fst (poll_of_closed hi hphase)).symm.trans h

/-- If it has the notice to bring, the stream has ended, and some of the notice may be out. -/
theorem Drained.of_notice_due {i : Intake} (hi : i.Drained) (h : i.poll.1 = .notice) :
    ∃ sent, (i.phase = .notice sent ∨ i.phase = .ended ∧ sent = 0) ∧
      i.poll.2 = { i with phase := .notice sent } := by
  cases hphase : i.phase with
  | flowing => cases (congrArg Prod.fst (poll_of_flowing hphase)).symm.trans h
  | ended => exact ⟨0, .inr ⟨rfl, rfl⟩, by rw [poll_of_ended hi hphase]⟩
  | notice sent => exact ⟨sent, .inl rfl, by rw [poll_of_notice hi hphase, ← hphase]⟩
  | closed => cases (congrArg Prod.fst (poll_of_closed hi hphase)).symm.trans h

/-- If it has nothing to bring, the whole notice is out. -/
theorem Drained.of_nothing_due {i : Intake} (hi : i.Drained) (h : i.poll.1 = .nothing) :
    i.phase = .closed ∧ i.poll.2 = i := by
  cases hphase : i.phase with
  | flowing => cases (congrArg Prod.fst (poll_of_flowing hphase)).symm.trans h
  | ended => cases (congrArg Prod.fst (poll_of_ended hi hphase)).symm.trans h
  | notice sent => cases (congrArg Prod.fst (poll_of_notice hi hphase)).symm.trans h
  | closed => exact ⟨rfl, by rw [poll_of_closed hi hphase]⟩

theorem readNotice_of_notice {i : Intake} {sent : Nat} (h : i.phase = .notice sent) (room : Nat) :
    i.readNotice room =
      (Farewell.piece sent room,
        if Farewell.completes sent room then [.debug "Close notice delivered"] else [],
        { i with phase := Farewell.after sent room }) := by
  rw [readNotice, h]

/-! ### One fill -/

/-- What a fill of an empty intake comes to, with the answer of the line to the one
read that it makes. -/
inductive Filled (i : Intake) :
    Except Fault Bytes → Except TransportError Unit → Intake → Prop where
  /-- The read failed, and so does the fill. -/
  | failed (f : Fault) (e : TransportError) : Filled i (.error f) (.error e) i
  /-- The stream has ended. -/
  | ended : Filled i (.ok []) (.ok ()) { i with phase := .ended }
  /-- There are bytes to use. -/
  | taken (data : Bytes) (h : data ≠ []) : Filled i (.ok data) (.ok ()) { i with buffer := data }

/-- A fill reads the line once, and writes nothing. -/
theorem fill_filled {i : Intake} {limit : Nat} (hi : i.Drained) (hp : i.phase = .flowing)
    (hl : limit ≠ 0) (l : Line) :
    ∃ answer, Filled i answer (i.fill limit l).1 (i.fill limit l).2.1 ∧
      (i.fill limit l).2.2.transport.readAnswers = l.transport.readAnswers ++ [answer] ∧
      (i.fill limit l).2.2.transport.accepted = l.transport.accepted := by
  obtain ⟨buffer, capacity, phase⟩ := i
  obtain ⟨hbuffer, hcapacity⟩ := hi
  dsimp only at hbuffer hcapacity hp
  subst hbuffer hp
  have hroom : min (capacity - ([] : Bytes).length) limit ≠ 0 := by
    rw [List.length_nil]
    omega
  refine ⟨(l.read (min (capacity - ([] : Bytes).length) limit)).1, ?_⟩
  have hread := Transport.readAnswers_read (min (capacity - ([] : Bytes).length) limit) l.transport
  have haccepted := Transport.accepted_read (min (capacity - ([] : Bytes).length) limit) l.transport
  rw [← Line.read_fst, ← Line.transport_read] at hread
  rw [← Line.transport_read] at haccepted
  unfold fill
  rw [if_neg (by simp [isEof]), if_neg hroom]
  revert hread haccepted
  generalize l.read (min (capacity - ([] : Bytes).length) limit) = result
  obtain ⟨answer | data, l'⟩ := result
  · intro hread haccepted
    dsimp only
    split
    · exact ⟨.failed _ _, hread, haccepted⟩
    · exact ⟨.failed _ _, hread, haccepted⟩
  · intro hread haccepted
    cases data with
    | nil => exact ⟨.ended, hread, haccepted⟩
    | cons byte rest => exact ⟨.taken _ (by simp), hread, haccepted⟩

/-! ### Nothing is written -/

/-- A fill puts nothing out. -/
theorem accepted_fill (limit : Nat) (i : Intake) (l : Line) :
    (i.fill limit l).2.2.transport.accepted = l.transport.accepted := by
  have haccepted (room : Nat) : (l.read room).2.transport.accepted = l.transport.accepted :=
    Transport.accepted_read room l.transport
  unfold fill
  dsimp only
  split
  · rfl
  · split
    · rfl
    · split
      · rename_i l' hr
        exact (congrArg (·.2.transport.accepted) hr).symm.trans (haccepted _)
      · rename_i l' hne hr
        exact (congrArg (·.2.transport.accepted) hr).symm.trans (haccepted _)
      · rename_i f l' hr
        have hl := (congrArg (·.2.transport.accepted) hr).symm.trans (haccepted _)
        split
        · exact hl
        · split
          · exact hl
          · exact hl

/-- Nor does a read, wherever it takes its bytes from. -/
theorem accepted_read (room : Nat) (i : Intake) (l : Line) :
    (i.read room l).2.2.transport.accepted = l.transport.accepted := by
  unfold read
  split
  · rfl
  · split
    · rfl
    · rfl
    · rename_i i' hp
      have hfill := accepted_fill room i' l
      split
      · rename_i e i'' l' hf
        rwa [hf] at hfill
      · rename_i i'' l' hf
        rwa [hf] at hfill

end Intake
end RemoteTerminal
