/-
# The input queue

An intake takes six calls in any order: it is filled, read, drained, emptied, asked
what is due and asked for the close notice.  Over all of them there is one account
(`Intake.Account`).  The payload handed out, followed by what is held, is what the
transport delivered; the notice handed out is what the phase says is out; and as soon
as any of it may be handed out, nothing is held.

A fill is the only call that reads the line, and it does so once at most
(`Intake.Fills`).  Once it has found the end of the stream the line is not touched any
more, and the phase goes on, one stage after the other (`Phase.Reaches`), to the point
where the whole notice is out (`Intake.Advances`).  Both facts are kept by every part of
a call, so they are kept by every run (`account_run`, `advances_run`), and `input_stream`
reads off what they come to.
-/

import Mathlib.Logic.Relation
import RemoteTerminal.Proofs.Stream.Intake
import RemoteTerminal.Stream.Run

namespace RemoteTerminal

/-- The bytes that a call of an intake handed over, whatever they are. -/
def Outcome.handed {ε : Type} : Outcome ε → Bytes
  | data result => bytesOf result
  | taken bytes => bytes
  | _ => []

/-- A read hands out no more than it was asked for. -/
theorem Transport.length_le_of_read {room : Nat} {t : Transport} {data : Bytes}
    (h : (t.read room).1 = .ok data) : data.length ≤ room := by
  unfold read at h
  split at h
  · cases h
  · cases h
  · obtain rfl := Except.ok.inj h
    exact List.length_take_le ..

/-! ### The stages of the end -/

namespace Phase

/-- One stage of the end of a stream follows another. -/
inductive Next : Phase → Phase → Prop where
  | seen : Next .flowing .ended
  | begun : Next .ended (.notice 0)
  | more {sent sent' : Nat} (h : sent ≤ sent') : Next (.notice sent) (.notice sent')
  | complete {sent : Nat} : Next (.notice sent) .closed

/-- One stage comes to another in the order of the stages. -/
def Reaches : Phase → Phase → Prop := Relation.ReflTransGen Next

theorem Reaches.refl (p : Phase) : p.Reaches p := Relation.ReflTransGen.refl

theorem Reaches.trans {p q r : Phase} (h : p.Reaches q) (h' : q.Reaches r) : p.Reaches r :=
  Relation.ReflTransGen.trans h h'

theorem Next.reaches {p q : Phase} (h : p.Next q) : p.Reaches q := Relation.ReflTransGen.single h

/-- The stream does not flow again. -/
theorem Reaches.ne_flowing {p q : Phase} (h : p.Reaches q) (hp : p ≠ .flowing) : q ≠ .flowing := by
  induction h with
  | refl => exact hp
  | tail _ hnext _ => cases hnext <;> simp

theorem reaches_after (sent room : Nat) : (notice sent).Reaches (Farewell.after sent room) := by
  unfold Farewell.after
  split
  · exact Next.complete.reaches
  · exact (Next.more (Nat.le_add_right ..)).reaches

/-- The whole notice is out in the last stage only. -/
theorem told_eq_closeNotice_iff {p : Phase}
    (h : ∀ sent, p = .notice sent → sent < closeNotice.length) :
    p.told = closeNotice ↔ p = .closed := by
  constructor
  · intro htold
    cases p with
    | flowing | ended => exact absurd htold (by decide)
    | notice sent =>
      have hlength := congrArg List.length htold
      have := h sent rfl
      rw [told, List.length_take] at hlength
      omega
    | closed => rfl
  · rintro rfl
    rfl

end Phase

namespace Intake

/-! ### Payload and notice -/

/-- The bytes handed out over some calls, those of the notice apart. -/
structure Handed where
  payload : Bytes := []
  notice : Bytes := []

namespace Handed

/-- First the one, then the other. -/
def append (h h' : Handed) : Handed := ⟨h.payload ++ h'.payload, h.notice ++ h'.notice⟩

/-- The payload and the notice, in one. -/
def bytes (h : Handed) : Bytes := h.payload ++ h.notice

theorem append_assoc (h h' h'' : Handed) :
    (h.append h').append h'' = h.append (h'.append h'') := by
  simp [append, List.append_assoc]

@[simp] theorem append_empty (h : Handed) : h.append {} = h := by simp [append]

@[simp] theorem empty_append (h : Handed) : ({} : Handed).append h = h := by simp [append]

end Handed

/-- Whether the bytes that a call hands out are those of the notice. -/
def Call.announces (call : Call) (i : Intake) : Bool :=
  match call with
  | .notice _ => true
  | .read _ => i.poll.1 = .notice
  | _ => false

/-- What a call hands out. -/
def hands (call : Call) (i : Intake) (l : Line) : Handed :=
  if call.announces i then { notice := (i.perform call l).1.handed }
  else { payload := (i.perform call l).1.handed }

/-- What calls hand out, one after the other. -/
def handsAll : List Call → Intake → Line → Handed
  | [], _, _ => {}
  | call :: rest, i, l =>
    let r := i.perform call l
    (i.hands call l).append (handsAll rest r.2.1 r.2.2)

/-! ### One fill -/

/-- What a fill comes to: it reads the line once, or not at all. -/
inductive Fills (i : Intake) (l : Line) : Except TransportError Unit → Intake → Line → Prop where
  /-- The stream has ended, or there is no room. -/
  | idle : Fills i l (.ok ()) i l
  /-- The read failed, which may be reported or left for later. -/
  | failed (f : Fault) (result : Except TransportError Unit) (l' : Line)
    (hp : i.phase = .flowing)
    (h : l'.transport.readAnswers = l.transport.readAnswers ++ [.error f]) : Fills i l result i l'
  /-- The stream has ended. -/
  | ended (l' : Line) (hp : i.phase = .flowing)
    (h : l'.transport.readAnswers = l.transport.readAnswers ++ [.ok []]) :
    Fills i l (.ok ()) { i with phase := .ended } l'
  /-- Bytes came, for which there was room. -/
  | taken (data : Bytes) (l' : Line) (hp : i.phase = .flowing) (hdata : data ≠ [])
    (hroom : i.buffer.length + data.length ≤ i.capacity)
    (h : l'.transport.readAnswers = l.transport.readAnswers ++ [.ok data]) :
    Fills i l (.ok ()) { i with buffer := i.buffer ++ data } l'

theorem fill_fills (limit : Nat) (i : Intake) (l : Line) :
    Fills i l (i.fill limit l).1 (i.fill limit l).2.1 (i.fill limit l).2.2 := by
  unfold fill
  by_cases heof : i.isEof = true
  · rw [if_pos heof]
    exact .idle
  have hp : i.phase = .flowing := by simpa [isEof] using heof
  rw [if_neg heof]
  dsimp only
  by_cases hroom : min (i.capacity - i.buffer.length) limit = 0
  · rw [if_pos hroom]
    exact .idle
  rw [if_neg hroom]
  generalize hroom_eq : min (i.capacity - i.buffer.length) limit = room
  have hread := Transport.readAnswers_read room l.transport
  have hle (data : Bytes) (hdata : (l.transport.read room).1 = .ok data) : data.length ≤ room :=
    Transport.length_le_of_read hdata
  rw [← Line.read_fst, ← Line.transport_read] at hread
  simp only [← Line.read_fst] at hle
  revert hread hle
  generalize l.read room = answered
  obtain ⟨f | data, l'⟩ := answered
  · intro hread hle
    dsimp only
    split
    · exact .failed f _ _ hp hread
    · split
      · exact .failed f _ _ hp hread
      · exact .failed f _ _ hp hread
  · intro hread hle
    cases data with
    | nil => exact .ended _ hp hread
    | cons byte rest =>
      have hlength := hle _ rfl
      exact .taken _ _ hp (by simp) (by omega) hread

/-! ### The account -/

/-- The account of what an intake has handed out on a line. -/
structure Account (given : Handed) (i : Intake) (l : Line) : Prop where
  payload_eq : given.payload ++ i.buffer = l.transport.delivered
  notice_eq : given.notice = i.phase.told
  fits : i.buffer.length ≤ i.capacity
  sawEnd_iff : l.transport.SawEnd ↔ i.phase ≠ .flowing
  /-- Bytes are held no longer once the notice is due. -/
  emptied : i.phase ≠ .flowing → i.phase ≠ .ended → i.buffer = []
  unfinished : ∀ sent, i.phase = .notice sent → sent < closeNotice.length

namespace Account

variable {given : Handed} {i i' : Intake} {l l' : Line}

theorem fresh (requested : Nat) (t : Transport) :
    Account {} (ofCapacity requested) { transport := t.unused } where
  payload_eq := rfl
  notice_eq := rfl
  fits := Nat.zero_le _
  sawEnd_iff := ⟨fun h => absurd h List.not_mem_nil, fun h => absurd rfl h⟩
  emptied h _ := absurd rfl h
  unfinished _ h := nomatch h

/-- The journal has no part in it. -/
theorem log (h : Account given i l) (notes : List Note) : Account given i (l.log notes) :=
  ⟨h.payload_eq, h.notice_eq, h.fits, h.sawEnd_iff, h.emptied, h.unfinished⟩

/-- One more answer to a read of the line, which is not the end of the stream. -/
theorem answered (h : Account given i l) (hp : i.phase = .flowing) {answer : Except Fault Bytes}
    (hanswer : l'.transport.readAnswers = l.transport.readAnswers ++ [answer])
    (hne : answer ≠ .ok []) (hfits : (i.buffer ++ bytesOf answer).length ≤ i.capacity) :
    Account given { i with buffer := i.buffer ++ bytesOf answer } l' := by
  have hopen : ¬ l.transport.SawEnd := fun hsaw => h.sawEnd_iff.1 hsaw hp
  refine ⟨?_, h.notice_eq, hfits, ?_, fun hp' => absurd hp hp', h.unfinished⟩
  · rw [Transport.delivered_eq, hanswer, List.flatMap_append, ← Transport.delivered_eq,
      ← h.payload_eq, List.append_assoc]
    simp
  · refine ⟨fun hsaw => ?_, fun hp' => absurd hp hp'⟩
    rw [Transport.SawEnd, hanswer, List.mem_append, List.mem_singleton] at hsaw
    exact (hsaw.elim hopen fun he => hne he.symm).elim

/-- **A fill keeps the account.** -/
theorem fills (h : Account given i l) {result : Except TransportError Unit}
    (hf : Fills i l result i' l') : Account given i' l' := by
  cases hf with
  | idle => exact h
  | failed f result l' hp hanswer =>
    have hnext := h.answered hp hanswer (by simp)
    rw [show i.buffer ++ bytesOf (.error f) = i.buffer from List.append_nil _] at hnext
    exact hnext h.fits
  | ended l' hp hanswer =>
    refine ⟨?_, ?_, h.fits, ?_, fun _ hne => absurd rfl hne, fun sent hs => nomatch hs⟩
    · rw [Transport.delivered_eq, hanswer, List.flatMap_append, ← Transport.delivered_eq,
        h.payload_eq]
      exact (List.append_nil _).symm
    · rw [h.notice_eq, hp]
      rfl
    · refine ⟨fun _ hp' => (nomatch hp'), fun _ => ?_⟩
      rw [Transport.SawEnd, hanswer]
      exact List.mem_append_right _ (List.mem_singleton.2 rfl)
  | taken data l' hp hdata hroom hanswer =>
    exact h.answered hp hanswer (by simpa using hdata) (by simpa [bytesOf] using hroom)

/-- Bytes that are held are handed out. -/
theorem drain (h : Account given i l) (room : Nat) :
    Account (given.append { payload := (i.drain room).1 }) (i.drain room).2 l := by
  refine ⟨?_, ?_, ?_, h.sawEnd_iff, fun hp hp' => ?_, h.unfinished⟩
  · rw [← h.payload_eq, ← drain_append room i]
    exact List.append_assoc ..
  · exact (List.append_nil _).trans h.notice_eq
  · exact Nat.le_trans (by simp [Intake.drain]) h.fits
  · simp [Intake.drain, h.emptied hp hp']

/-- Being asked what is due hands nothing out. -/
theorem poll (h : Account given i l) : Account given i.poll.2 l := by
  unfold Intake.poll
  split
  · exact h
  · rename_i hbuffer
    split
    · exact h
    · rename_i hp
      refine ⟨h.payload_eq, ?_, h.fits, ?_, fun _ _ => by simpa using hbuffer, ?_⟩
      · rw [h.notice_eq, hp]
        rfl
      · exact ⟨fun _ hp' => (nomatch hp'), fun _ => h.sawEnd_iff.2 (by simp [hp])⟩
      · rintro sent ⟨⟩
        decide
    · exact h
    · exact h

/-- A piece of the notice is handed out. -/
theorem readNotice (h : Account given i l) (room : Nat) :
    Account (given.append { notice := (i.readNotice room).1 }) (i.readNotice room).2.2 l := by
  unfold Intake.readNotice
  split
  · rename_i sent hp
    have hne : i.phase ≠ .flowing := by simp [hp]
    refine ⟨?_, ?_, h.fits, ?_, fun _ _ => h.emptied hne (by simp [hp]),
      fun _ hs => Farewell.lt_of_after_eq_notice hs⟩
    · exact (congrArg (· ++ i.buffer) (List.append_nil _)).trans h.payload_eq
    · rw [Phase.told_after]
      exact congrArg (· ++ Farewell.piece sent room) (h.notice_eq.trans (by rw [hp]; rfl))
    · exact ⟨fun _ => Farewell.after_ne_flowing sent room, fun _ => h.sawEnd_iff.2 hne⟩
  · exact (Handed.append_empty given).symm ▸ h

end Account

/-! ### What time does -/

/-- Going from one intake and line to others, the end of the stream came nearer, and
once it was found the transport was left alone. -/
structure Advances (i : Intake) (l : Line) (i' : Intake) (l' : Line) : Prop where
  phase : i.phase.Reaches i'.phase
  capacity_eq : i'.capacity = i.capacity
  transport_eq : i.phase ≠ .flowing → l'.transport = l.transport

namespace Advances

variable {i i' i'' : Intake} {l l' l'' : Line}

theorem refl (i : Intake) (l : Line) : Advances i l i l := ⟨.refl _, rfl, fun _ => rfl⟩

theorem trans (h : Advances i l i' l') (h' : Advances i' l' i'' l'') : Advances i l i'' l'' :=
  ⟨h.phase.trans h'.phase, h'.capacity_eq.trans h.capacity_eq, fun hp =>
    (h'.transport_eq (h.phase.ne_flowing hp)).trans (h.transport_eq hp)⟩

theorem log (h : Advances i l i' l') (notes : List Note) : Advances i l i' (l'.log notes) :=
  ⟨h.phase, h.capacity_eq, h.transport_eq⟩

theorem fills {result : Except TransportError Unit} (hf : Fills i l result i' l') :
    Advances i l i' l' := by
  cases hf with
  | idle => exact .refl i l
  | failed f result l' hp hanswer => exact ⟨.refl _, rfl, fun hne => absurd hp hne⟩
  | ended l' hp hanswer =>
    exact ⟨hp ▸ Phase.Next.seen.reaches, rfl, fun hne => absurd hp hne⟩
  | taken data l' hp hdata hroom hanswer => exact ⟨.refl _, rfl, fun hne => absurd hp hne⟩

theorem poll (i : Intake) (l : Line) : Advances i l i.poll.2 l := by
  refine ⟨?_, ?_, fun _ => rfl⟩
  · unfold Intake.poll
    split
    · exact .refl _
    · split
      · exact .refl _
      · rename_i hp
        exact hp ▸ Phase.Next.begun.reaches
      · exact .refl _
      · exact .refl _
  · unfold Intake.poll
    split
    · rfl
    · split <;> rfl

theorem readNotice (room : Nat) (i : Intake) (l : Line) :
    Advances i l (i.readNotice room).2.2 l := by
  unfold Intake.readNotice
  split
  · rename_i sent hp
    exact ⟨hp ▸ Phase.reaches_after sent room, rfl, fun _ => rfl⟩
  · exact .refl i l

end Advances

/-! ### One call -/

/-- What a read comes to, put together from the other calls. -/
inductive ReadsBy (room : Nat) (i : Intake) (l : Line) :
    Except TransportError Bytes → Intake → Line → Prop where
  /-- Nothing was asked for. -/
  | nothing (hroom : room = 0) : ReadsBy room i l (.ok []) i l
  /-- The notice is due. -/
  | notice (hroom : room ≠ 0) (hdue : i.poll.1 = .notice) :
    ReadsBy room i l (.ok (i.poll.2.readNotice room).1) (i.poll.2.readNotice room).2.2
      (l.log (i.poll.2.readNotice room).2.1)
  /-- The whole notice is out. -/
  | closed (hroom : room ≠ 0) (hdue : i.poll.1 = .nothing) : ReadsBy room i l (.ok []) i.poll.2 l
  /-- The line failed, and nothing is held. -/
  | failed (hroom : room ≠ 0) (hdue : i.poll.1 = .payload) (e : TransportError) (i' : Intake)
    (l' : Line) (hf : Fills i l (.error e) i' l') : ReadsBy room i l (.error e) i' l'
  /-- Bytes are handed out, unless there are none. -/
  | payload (hroom : room ≠ 0) (hdue : i.poll.1 = .payload) (i' : Intake) (l' : Line)
    (hf : Fills i l (.ok ()) i' l') :
    ReadsBy room i l (if (i'.drain room).1 = [] then .error .wouldBlock else .ok (i'.drain room).1)
      (i'.drain room).2 l'

/-- Payload is due without any change. -/
theorem poll_of_payload {i : Intake} (h : i.poll.1 = .payload) : i.poll = (.payload, i) := by
  unfold poll at h ⊢
  split
  · rfl
  · rename_i hbuffer
    rw [if_neg hbuffer] at h
    split
    · rfl
    all_goals
      rename_i hp
      simp [hp] at h

/-- The notice is due only once nothing is held, and then its delivery has begun. -/
theorem buffer_of_notice_due {i : Intake} (h : i.poll.1 = .notice) : i.buffer = [] := by
  unfold poll at h
  split at h
  · cases h
  · rename_i hbuffer
    simpa using hbuffer

theorem phase_of_notice_due {i : Intake} (h : i.poll.1 = .notice) :
    ∃ sent, i.poll.2.phase = .notice sent := by
  unfold poll at h ⊢
  split at h
  · cases h
  · rename_i hbuffer
    rw [if_neg hbuffer]
    split at h
    · cases h
    · exact ⟨0, rfl⟩
    · rename_i sent hp
      exact ⟨sent, hp⟩
    · cases h

/-- Nothing is due only once the whole notice is out. -/
theorem phase_of_nothing_due {i : Intake} (h : i.poll.1 = .nothing) : i.phase = .closed := by
  unfold poll at h
  split at h
  · cases h
  · split at h
    · cases h
    · cases h
    · cases h
    · assumption

theorem read_readsBy (room : Nat) (i : Intake) (l : Line) :
    ReadsBy room i l (i.read room l).1 (i.read room l).2.1 (i.read room l).2.2 := by
  unfold read
  by_cases hroom : room = 0
  · rw [if_pos hroom]
    exact .nothing hroom
  rw [if_neg hroom]
  cases hdue : i.poll.1 with
  | notice =>
    rw [show i.poll = (.notice, i.poll.2) from Prod.ext hdue rfl]
    exact .notice hroom hdue
  | nothing =>
    rw [show i.poll = (.nothing, i.poll.2) from Prod.ext hdue rfl]
    exact .closed hroom hdue
  | payload =>
    rw [poll_of_payload hdue]
    have hfill := fill_fills room i l
    dsimp only
    revert hfill
    generalize i.fill room l = filled
    obtain ⟨e | ⟨⟩, i', l'⟩ := filled
    · exact fun hfill => .failed hroom hdue e i' l' hfill
    · exact fun hfill => .payload hroom hdue i' l' hfill

section Perform

variable {given : Handed} {i i' : Intake} {l l' : Line} {room : Nat}
  {result : Except TransportError Bytes}

/-- A read keeps the account: its bytes are of the notice if that is due. -/
theorem Account.readsBy (h : Account given i l) (hr : ReadsBy room i l result i' l') :
    Account (given.append
      (if i.poll.1 = .notice then { notice := bytesOf result } else { payload := bytesOf result }))
      i' l' := by
  have hnone : given.append {} = given := Handed.append_empty given
  cases hr with
  | nothing hroom =>
    rw [show bytesOf (.ok [] : Except TransportError Bytes) = [] from rfl, ite_self, hnone]
    exact h
  | notice hroom hdue =>
    rw [if_pos hdue]
    exact (h.poll.readNotice room).log _
  | closed hroom hdue =>
    rw [if_neg (by simp [hdue])]
    exact hnone.symm ▸ h.poll
  | failed hroom hdue e i' l' hf =>
    rw [if_neg (by simp [hdue])]
    exact hnone.symm ▸ h.fills hf
  | payload hroom hdue i' l' hf =>
    have hd := (h.fills hf).drain room
    have hbytes : bytesOf (if (i'.drain room).1 = [] then .error TransportError.wouldBlock
        else .ok (i'.drain room).1) = (i'.drain room).1 := by
      split
      · rename_i hempty
        exact hempty.symm
      · rfl
    rwa [if_neg (by simp [hdue]), hbytes]

theorem Advances.readsBy (hr : ReadsBy room i l result i' l') : Advances i l i' l' := by
  cases hr with
  | nothing hroom => exact .refl i l
  | notice hroom hdue =>
    exact ((Advances.poll i l).trans (Advances.readNotice room i.poll.2 l)).log _
  | closed hroom hdue => exact .poll i l
  | failed hroom hdue e i' l' hf => exact .fills hf
  | payload hroom hdue i' l' hf =>
    have hd := Advances.fills hf
    exact ⟨hd.phase, hd.capacity_eq, hd.transport_eq⟩

/-- A read of something that gives nothing comes after the whole notice. -/
theorem Account.closed_of_readsBy_nothing (h : Account given i l) (hroom : room ≠ 0)
    (hr : ReadsBy room i l (.ok []) i' l') : i.phase = .closed := by
  generalize hresult : (.ok [] : Except TransportError Bytes) = result at hr
  cases hr with
  | nothing hzero => exact absurd hzero hroom
  | notice _ hdue =>
    obtain ⟨sent, hp⟩ := phase_of_notice_due hdue
    have hpiece := Except.ok.inj hresult
    rw [readNotice_of_notice hp] at hpiece
    exact absurd hpiece.symm (Farewell.piece_ne_nil (h.poll.unfinished sent hp) hroom)
  | closed _ hdue => exact phase_of_nothing_due hdue
  | failed _ hdue e i' l' hf => cases hresult
  | payload _ hdue i' l' hf =>
    split at hresult
    · cases hresult
    · rename_i hsome
      exact absurd (Except.ok.inj hresult).symm hsome

theorem hands_of_announces {call : Call} (h : call.announces i = true) :
    i.hands call l = { notice := (i.perform call l).1.handed } := if_pos h

theorem hands_of_not_announces {call : Call} (h : ¬ call.announces i = true) :
    i.hands call l = { payload := (i.perform call l).1.handed } := if_neg h

/-- **Every call keeps the account.** -/
theorem account_perform (call : Call) (h : Account given i l) :
    Account (given.append (i.hands call l)) (i.perform call l).2.1 (i.perform call l).2.2 := by
  cases call with
  | fill limit =>
    rw [hands_of_not_announces (by simp [Call.announces])]
    exact (Handed.append_empty given).symm ▸ h.fills (fill_fills limit i l)
  | drain room =>
    rw [hands_of_not_announces (by simp [Call.announces])]
    exact h.drain room
  | notice room =>
    rw [hands_of_announces (by simp [Call.announces])]
    exact (h.readNotice room).log _
  | take =>
    rw [hands_of_not_announces (by simp [Call.announces])]
    have htaken := h.drain i.buffer.length
    rwa [drain, List.take_length, List.drop_length] at htaken
  | poll =>
    rw [hands_of_not_announces (by simp [Call.announces])]
    exact (Handed.append_empty given).symm ▸ h.poll
  | read room =>
    have hread := h.readsBy (read_readsBy room i l)
    simp only [hands, Call.announces, decide_eq_true_eq]
    exact hread

/-- Every call brings the end nearer, and leaves the transport alone after it. -/
theorem advances_perform (call : Call) (i : Intake) (l : Line) :
    Advances i l (i.perform call l).2.1 (i.perform call l).2.2 := by
  cases call with
  | fill limit => exact .fills (fill_fills limit i l)
  | read room => exact .readsBy (read_readsBy room i l)
  | drain room => exact ⟨.refl _, rfl, fun _ => rfl⟩
  | notice room => exact (Advances.readNotice room i l).log _
  | take => exact ⟨.refl _, rfl, fun _ => rfl⟩
  | poll => exact .poll i l

/-- **No part of the notice goes out before the payload.** -/
theorem Account.buffer_of_announces (h : Account given i l) {call : Call}
    (hcall : call.announces i = true) (hsome : (i.perform call l).1.handed ≠ []) :
    i.buffer = [] := by
  cases call with
  | notice room =>
    have hpiece : (i.readNotice room).1 ≠ [] := hsome
    unfold Intake.readNotice at hpiece
    split at hpiece
    · rename_i sent hp
      exact h.emptied (by simp [hp]) (by simp [hp])
    · exact absurd rfl hpiece
  | read room => exact buffer_of_notice_due (of_decide_eq_true hcall)
  | fill | drain | take | poll => exact absurd hcall Bool.false_ne_true

/-- Nor does payload go out after any part of the notice: none is left. -/
theorem Account.hands_payload_of_notice (h : Account given i l) (hnotice : given.notice ≠ [])
    (call : Call) : (i.hands call l).payload = [] := by
  have hp : i.phase ≠ .flowing := fun hp => hnotice (h.notice_eq.trans (by rw [hp]; rfl))
  have hp' : i.phase ≠ .ended := fun hp => hnotice (h.notice_eq.trans (by rw [hp]; rfl))
  have hall : given.payload = l.transport.delivered := by
    rw [← h.payload_eq, h.emptied hp hp', List.append_nil]
  have hafter := (account_perform call h).payload_eq
  rw [(advances_perform call i l).transport_eq hp, ← hall, Handed.append,
    List.append_assoc] at hafter
  exact (List.append_eq_nil_iff.1 (List.append_right_eq_self.1 hafter)).1

/-- So the payload and the notice are, one after the other, all that was handed out. -/
theorem Account.bytes_append_hands (h : Account given i l) (call : Call) :
    (given.append (i.hands call l)).bytes = given.bytes ++ (i.perform call l).1.handed := by
  have hlate (hnotice : given.notice ≠ []) : (i.hands call l).payload = [] :=
    h.hands_payload_of_notice hnotice call
  unfold hands at hlate ⊢
  split
  · simp [Handed.append, Handed.bytes]
  · rename_i hcall
    rw [if_neg hcall] at hlate
    by_cases hnotice : given.notice = []
    · simp [Handed.append, Handed.bytes, hnotice]
    · have hnone : (i.perform call l).1.handed = [] := hlate hnotice
      simp [Handed.append, Handed.bytes, hnone]

end Perform

/-! ### Many calls -/

/-- Every run keeps the account. -/
theorem account_run (calls : List Call) {given : Handed} {i : Intake} {l : Line}
    (h : Account given i l) :
    Account (given.append (handsAll calls i l)) (i.run calls l).2.1 (i.run calls l).2.2 ∧
      (given.append (handsAll calls i l)).bytes =
        given.bytes ++ (i.run calls l).1.flatMap Outcome.handed := by
  induction calls generalizing given i l with
  | nil => exact ⟨(Handed.append_empty given).symm ▸ h, by simp [handsAll, run]⟩
  | cons call rest ih =>
    obtain ⟨haccount, hbytes⟩ := ih (account_perform call h)
    rw [Handed.append_assoc] at haccount hbytes
    refine ⟨haccount, hbytes.trans ?_⟩
    rw [h.bytes_append_hands call, List.append_assoc]
    rfl

/-- Every run brings the end nearer, and leaves the transport alone after it. -/
theorem advances_run (calls : List Call) (i : Intake) (l : Line) :
    Advances i l (i.run calls l).2.1 (i.run calls l).2.2 := by
  induction calls generalizing i l with
  | nil => exact .refl i l
  | cons call rest ih => exact (advances_perform call i l).trans (ih _ _)

/-- **What an intake hands out.**  This is so for every capacity asked for, over all calls
in any order, and for all that a transport may answer.

* All that was handed out is payload and then notice.  The payload, followed by what is
  held, is what the transport delivered; the notice is a beginning of the close notice.
* What is held fits the capacity.
* No call hands out any of the notice while something is held, and the last stage is
  reached exactly when the whole notice is out.
* The stages follow each other in their order over all `later` calls; the first read
  that finds the end of the stream is the last call made to the transport.
* A read of something gives nothing in the last stage only. -/
theorem input_stream (requested : Nat) (t : Transport) (calls : List Call) :
    let first := ofCapacity requested
    let line : Line := { transport := t.unused }
    let i := (first.run calls line).2.1
    let l := (first.run calls line).2.2
    let given := handsAll calls first line
    ((first.run calls line).1.flatMap Outcome.handed = given.payload ++ given.notice ∧
        given.payload ++ i.buffer = l.transport.delivered ∧
        ∃ count ≤ closeNotice.length, given.notice = closeNotice.take count) ∧
      (i.buffer.length ≤ i.capacity ∧ i.capacity = Capacity.granted requested) ∧
      ((∀ call : Call, call.announces i = true → (i.perform call l).1.handed ≠ [] →
          i.buffer = []) ∧
        (i.phase = .closed ↔ given.notice = closeNotice)) ∧
      ((l.transport.SawEnd ↔ i.phase ≠ .flowing) ∧
        ∀ later, i.phase.Reaches (i.run later l).2.1.phase ∧
          (l.transport.SawEnd → (i.run later l).2.2.transport = l.transport)) ∧
      ∀ room ≠ 0, (i.read room l).1 = .ok [] → i.phase = .closed := by
  intro first line i l given
  obtain ⟨h, hbytes⟩ := account_run calls (Account.fresh requested t)
  have hadvances : Advances first line i l := advances_run calls first line
  rw [Handed.empty_append] at h hbytes
  have hnotice : given.notice = i.phase.told := h.notice_eq
  refine ⟨⟨hbytes.symm, h.payload_eq, ?_⟩, ⟨h.fits, hadvances.capacity_eq⟩, ⟨?_, ?_⟩,
    ⟨h.sawEnd_iff, fun later => ⟨?_, ?_⟩⟩, ?_⟩
  · exact hnotice ▸ i.phase.exists_told_eq_take
  · exact fun call hcall hsome => h.buffer_of_announces hcall hsome
  · rw [hnotice]
    exact (Phase.told_eq_closeNotice_iff h.unfinished).symm
  · exact (advances_run later i l).phase
  · exact fun hsaw => (advances_run later i l).transport_eq (h.sawEnd_iff.1 hsaw)
  · intro room hroom hnothing
    have hr := read_readsBy room i l
    rw [hnothing] at hr
    exact h.closed_of_readsBy_nothing hroom hr

end Intake
end RemoteTerminal
