/-
# How much payload a session carries over

A byte makes two bytes of payload at most, for a return that was held back can come out with it
(`Codec.length_decode_le`), and a chain of returns does make two of each.  So what one read of
the line brings makes at most twice as many bytes as the intake has room for.

What a reader has not asked for yet is carried over, and as long as there is any of it no call
reads the line (`Session.answers_perform`).  So chunks never add up: what is carried over is
what is left of one (`Session.Carries`).
-/

import RemoteTerminal.Proofs.Stream.InputQueue
import RemoteTerminal.Proofs.Telnet.ReadStream

namespace RemoteTerminal

namespace Intake

/-- Being asked what is due changes the phase alone. -/
theorem poll_keeps (i : Intake) : i.poll.2.buffer = i.buffer ∧ i.poll.2.capacity = i.capacity := by
  unfold poll
  split
  · exact ⟨rfl, rfl⟩
  · split <;> exact ⟨rfl, rfl⟩

/-- So does handing out a piece of the notice. -/
theorem readNotice_keeps (room : Nat) (i : Intake) :
    (i.readNotice room).2.2.buffer = i.buffer ∧ (i.readNotice room).2.2.capacity = i.capacity := by
  unfold readNotice
  split <;> exact ⟨rfl, rfl⟩

/-- What an empty intake holds after a fill that did not fail: no more than there is room for,
and nothing if the stream has ended. -/
theorem Fills.bounds {i i' : Intake} {l l' : Line} {result : Except TransportError Unit}
    (h : Fills i l result i' l') (hempty : i.buffer = []) (hpos : 0 < i.capacity) :
    i'.capacity = i.capacity ∧ i'.buffer.length + i'.isEof.toNat ≤ i.capacity ∧
      ∀ e, result = .error e → i' = i := by
  have hnone : i.buffer.length + i.isEof.toNat ≤ i.capacity := by
    have hone : i.isEof.toNat ≤ 1 := Bool.toNat_le _
    rw [hempty, List.length_nil]
    omega
  cases h with
  | idle => exact ⟨rfl, hnone, fun _ _ => rfl⟩
  | failed f result l' hp hanswer => exact ⟨rfl, hnone, fun _ _ => rfl⟩
  | ended l' hp hanswer =>
    refine ⟨rfl, ?_, fun _ he => nomatch he⟩
    show i.buffer.length + 1 ≤ i.capacity
    rw [hempty, List.length_nil]
    omega
  | taken data l' hp hdata hroom hanswer =>
    refine ⟨rfl, ?_, fun _ he => nomatch he⟩
    have hflowing : ({ i with buffer := i.buffer ++ data } : Intake).isEof = false := by
      simp [isEof, hp]
    rw [hflowing, List.length_append]
    exact hroom

end Intake

namespace Telnet

/-! ### What bytes make -/

namespace Codec

/-- **Payload is at most twice what came in**, whatever the codec had begun. -/
theorem length_decode_le (data : Bytes) (c : Codec) :
    (c.decode data).1.payload.length ≤ 2 * data.length := by
  induction data generalizing c with
  | nil => exact Nat.zero_le _
  | cons byte rest ih =>
    have hfirst := length_payload_step_le byte c
    have hheld : c.pendingCr.toNat ≤ 1 := Bool.toNat_le _
    have hrest := ih (c.step byte).2
    have hboth : (c.decode (byte :: rest)).1.payload =
        (c.step byte).1.payload ++ ((c.step byte).2.decode rest).1.payload := rfl
    rw [hboth, List.length_append, List.length_cons]
    omega

/-- It can be that much: of returns after a return, each one makes two bytes. -/
theorem length_decode_returns (count : Nat) :
    (({ pendingCr := true } : Codec).decode (List.replicate count Code.cr)).1.payload.length =
      2 * count := by
  have hstep : ({ pendingCr := true } : Codec).step Code.cr =
      ({ payload := [Code.cr, Code.nul] }, { pendingCr := true }) := rfl
  induction count with
  | zero => rfl
  | succ count ih =>
    rw [List.replicate_succ, decode, hstep]
    show ([Code.cr, Code.nul] ++
      (({ pendingCr := true } : Codec).decode (List.replicate count Code.cr)).1.payload).length = _
    rw [List.length_append, ih, List.length_cons, List.length_singleton]
    omega

end Codec

/-! ### What a session carries over -/

namespace Session

variable {capacity : Nat} {s : Session}

/-- What is carried over is less than twice the capacity of the intake, which holds nothing. -/
structure Carries (capacity : Nat) (s : Session) : Prop where
  capacity_eq : s.intake.capacity = capacity
  buffer_eq : s.intake.buffer = []
  length_lt : s.payload.length < 2 * capacity

/-- Nothing but these two has to do with it. -/
theorem Carries.of_eq (h : s.Carries capacity) {s' : Session} (hintake : s'.intake = s.intake)
    (hpayload : s'.payload = s.payload) : s'.Carries capacity :=
  ⟨hintake ▸ h.capacity_eq, hintake ▸ h.buffer_eq, hpayload ▸ h.length_lt⟩

/-- Payload that is handed out is carried over no longer. -/
theorem Carries.deliver (h : s.Carries capacity) (room : Nat) :
    (s.deliver room).2.Carries capacity := by
  refine ⟨h.capacity_eq, h.buffer_eq, ?_⟩
  show (s.payload.drop room).length < 2 * capacity
  have hlt := h.length_lt
  rw [List.length_drop]
  omega

/-- Decoding what the intake holds adds twice as much, and a return at the end of the stream. -/
theorem length_absorb_le (s : Session) :
    s.absorb.payload.length ≤
      s.payload.length + 2 * s.intake.buffer.length + s.intake.isEof.toNat := by
  have hdecoded := s.codec.length_decode_le s.intake.buffer
  have hrelease (pending : Bool) : (Return.release pending).length ≤ 1 := by
    cases pending <;> decide
  have hreleased (c : Codec) :
      (if s.intake.isEof then c.releaseCr else ([], c)).1.length ≤ s.intake.isEof.toNat := by
    cases s.intake.isEof with
    | true => exact hrelease c.pendingCr
    | false => exact Nat.le_refl 0
  have hpayload : s.absorb.payload = s.payload ++ (s.codec.decode s.intake.buffer).1.payload ++
      (if s.intake.isEof then (s.codec.decode s.intake.buffer).2.releaseCr
        else ([], (s.codec.decode s.intake.buffer).2)).1 := rfl
  have hend := hreleased (s.codec.decode s.intake.buffer).2
  rw [hpayload, List.length_append, List.length_append]
  omega

/-- A read of the line when nothing is carried over: of what comes of it some is handed out, if
there is any. -/
theorem Carries.refill (h : s.Carries capacity) (hpos : 0 < capacity) (hnone : s.payload = [])
    {room : Nat} (hroom : room ≠ 0) : (s.refill room).2.Carries capacity := by
  have hfills := Intake.fill_fills s.intake.capacity s.intake s.line
  obtain ⟨hcapacity, hheld, hfailed⟩ := hfills.bounds h.buffer_eq (h.capacity_eq.symm ▸ hpos)
  have hrefills := refill_refillsBy room s
  generalize s.refill room = result at hrefills ⊢
  cases hrefills with
  | @failed e hf => exact h.of_eq (hfailed e hf) rfl
  | absorbed hf =>
    have hview := (respondAndDeliver_gives room s.filled.absorb).2
    have hintake := congrArg View.intake hview
    have hlength : (s.filled.absorb.respondAndDeliver room).2.payload.length =
        (s.filled.absorb.payload.drop room).length :=
      congrArg List.length (congrArg View.payload hview)
    refine ⟨?_, ?_, ?_⟩
    · exact (congrArg Intake.capacity hintake).trans (hcapacity.trans h.capacity_eq)
    · exact congrArg Intake.buffer hintake
    · have habsorb : s.filled.absorb.payload.length ≤
          s.payload.length + 2 * s.filled.intake.buffer.length + s.filled.intake.isEof.toNat :=
        length_absorb_le s.filled
      have hheld : s.filled.intake.buffer.length + s.filled.intake.isEof.toNat ≤ capacity :=
        h.capacity_eq ▸ hheld
      rw [hnone, List.length_nil] at habsorb
      rw [hlength, List.length_drop]
      omega

/-- **A read keeps to it.** -/
theorem Carries.read (h : s.Carries capacity) (hpos : 0 < capacity) (room : Nat) :
    (s.read room).2.Carries capacity := by
  have hview := view_start s
  have hstart : s.start.2.Carries capacity :=
    h.of_eq ((congrArg View.intake hview).trans (View.start_intake _))
      ((congrArg View.payload hview).trans (View.start_payload _))
  have hpoll := s.start.2.intake.poll_keeps
  have hpolled :
      ({ s.start.2 with intake := s.start.2.intake.poll.2 } : Session).Carries capacity :=
    ⟨hpoll.2.trans hstart.capacity_eq, hpoll.1.trans hstart.buffer_eq, hstart.length_lt⟩
  have hreads := read_readsBy room s
  generalize s.read room = result at hreads ⊢
  cases hreads with
  | nothing hr => exact h
  | unstarted hr hs => exact hstart
  | carried hr hs hp => exact hstart.deliver room
  | notice hr hs hp hdue =>
    have hnotice := s.start.2.intake.poll.2.readNotice_keeps room
    exact ⟨hnotice.2.trans hpolled.capacity_eq, hnotice.1.trans hpolled.buffer_eq,
      hpolled.length_lt⟩
  | closed hr hs hp hdue => exact hpolled
  | refilled hr hs hp hdue => exact hpolled.refill hpos hp hr

/-- **Every call keeps to it**, whether it succeeds or fails. -/
theorem carries_perform (call : Call) (h : s.Carries capacity) (hpos : 0 < capacity) :
    (s.perform call).2.Carries capacity := by
  by_cases hcall : ∃ room, call = .read room
  · obtain ⟨room, rfl⟩ := hcall
    exact h.read hpos room
  · have hsame := (sameInput_perform (fun room he => hcall ⟨room, he⟩) s).1
    exact h.of_eq hsame.intake_eq hsame.payload_eq

theorem carries_run (calls : List Call) (h : s.Carries capacity) (hpos : 0 < capacity) :
    (s.run calls).2.Carries capacity := by
  induction calls generalizing s with
  | nil => exact h
  | cons call rest ih => exact ih (carries_perform call h hpos)

/-- **As long as payload is carried over no call reads the line.** -/
theorem answers_perform (call : Call) (hi : s.intake.Drained) (hcarried : s.payload ≠ []) :
    (s.perform call).2.line.transport.readAnswers = s.line.transport.readAnswers := by
  by_cases hcall : ∃ room, call = .read room
  · obtain ⟨room, rfl⟩ := hcall
    have hreads := read_reads room hi
    have hanswers : (s.read room).2.view.answers = s.view.answers := by
      generalize (s.read room).1 = result, (s.read room).2.view = v at hreads
      cases hreads with
      | nothing => rfl
      | unsent hr hs e => exact View.start_answers _
      | carried hr hp => exact View.start_answers _
      | notice sent hr hp hphase => exact absurd hp hcarried
      | closed hr hp hphase => exact absurd hp hcarried
      | failed hr hp hphase f e => exact absurd hp hcarried
      | heard hr hp hphase data hresult => exact absurd hp hcarried
    exact hanswers
  · exact (sameInput_perform (fun room he => hcall ⟨room, he⟩) s).1.answers_eq

/-- **How much payload is carried over.**

* Whatever state a codec is in, some bytes make at most twice as many bytes of payload.  There
  is a codec of which they make that many.
* In a session from its beginning, after any calls in any order, whether they succeeded or not,
  and for all that a transport may answer, less payload is carried over than twice the capacity
  of the intake, and the intake holds nothing.  As long as any is carried over, no call reads
  the line. -/
theorem carry_over_bounded :
    (∀ (c : Codec) data, (c.decode data).1.payload.length ≤ 2 * data.length) ∧
      (∀ count, ∃ (c : Codec) (data : Bytes), data.length = count ∧
        (c.decode data).1.payload.length = 2 * count) ∧
      ∀ codec size timeout t calls,
        let s := ((create codec size timeout t).run calls).2
        s.payload.length < 2 * max size 2 ∧ s.intake.buffer = [] ∧
          ∀ call, s.payload ≠ [] →
            (s.perform call).2.line.transport.readAnswers = s.line.transport.readAnswers := by
  refine ⟨fun c data => c.length_decode_le data,
    fun count => ⟨_, _, List.length_replicate, Codec.length_decode_returns count⟩,
    fun codec size timeout t calls => ?_⟩
  intro s
  have hpos : 0 < Capacity.granted size :=
    Nat.lt_of_lt_of_le (by decide) (Capacity.least_le_granted size)
  have hfirst : (create codec size timeout t).Carries (Capacity.granted size) :=
    ⟨rfl, rfl, show 0 < 2 * Capacity.granted size by omega⟩
  have hlast : s.Carries (Capacity.granted size) := carries_run calls hfirst hpos
  exact ⟨hlast.length_lt, hlast.buffer_eq, fun call hcarried =>
    answers_perform call ⟨hlast.buffer_eq, hlast.capacity_eq.symm ▸ hpos⟩ hcarried⟩

/-- Returns in two chunks, with the least capacity and reads of one byte: of four bytes that the
second chunk makes three are carried over, and the third chunk is left where it is. -/
theorem carry_over_bounded_returns :
    let s := ((create {} 0 0 { incoming := [.ok [13], .ok [13, 13], .ok [97]] }).run
      [.read 1, .read 1]).2
    s.payload = [0, 13, 0] ∧
      (s.perform (.read 8)).2.line.transport.readAnswers = s.line.transport.readAnswers := by
  intro s
  have hpayload : s.payload = [0, 13, 0] := by decide +kernel
  have hcarried : s.payload ≠ [] := by rw [hpayload]; exact nofun
  exact ⟨hpayload, (carry_over_bounded.2.2 _ _ _ _ _).2.2 (.read 8) hcarried⟩

end Session
end Telnet
end RemoteTerminal
