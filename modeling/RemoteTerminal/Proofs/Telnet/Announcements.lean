/-
# What a codec has announced

Whatever a codec has to say goes into its replies as whole items, so the bytes of a run say
which verbs it has said, and in what order.  Every call says some items and enters them,
one after the other (`Codec.Utters`), and the record of announcements is the last verb of
each side about each option (`Spoken.announced_byte`).

Verbs come up when a codec starts and when it hears one (`Codec.Occasion`); a run is one in
which every byte comes by itself, so the calls that decode a byte are all there is to look
at.  A verb that was the last one said stays unsaid, but for a refusal, which goes out every
time that it is called for (`Codec.Measured`, `announcements_of_run`).
-/

import RemoteTerminal.Proofs.Telnet.Utterances
import RemoteTerminal.Telnet.Codec.Run

namespace RemoteTerminal
namespace Telnet

/-! ### Items that are no repetitions -/

/-- Items of which no verb is what was last said when its turn comes. -/
def Announced.Unrepeated (a : Announced) (items : List Item) : Prop :=
  ∀ before verb option after, items = before ++ .negotiation verb option :: after →
    (before.foldl enter a) verb.side option ≠ some verb

namespace Announced

variable {a : Announced} {items more : List Item}

theorem unrepeated_of_no_verb (h : ∀ item ∈ items, item.isVerb = false) :
    a.Unrepeated items := by
  rintro before verb option after rfl
  exact absurd (h _ (List.mem_append_right _ (List.mem_cons_self ..))) Bool.noConfusion

theorem Unrepeated.append (h : a.Unrepeated items) (hmore : (items.foldl enter a).Unrepeated more) :
    a.Unrepeated (items ++ more) := by
  intro before verb option after heq
  rcases List.append_eq_append_iff.1 heq with ⟨rest, rfl, hrest⟩ | ⟨rest, hitems, hrest⟩
  · rw [List.foldl_append]
    exact hmore rest verb option after hrest
  · cases rest with
    | nil =>
      obtain rfl : items = before := by simpa using hitems
      exact hmore [] verb option after hrest.symm
    | cons item rest =>
      obtain ⟨rfl, -⟩ := List.cons.inj hrest
      exact h before verb option rest hitems

theorem unrepeated_unsaid (a : Announced) (verb : Verb) (option : TelnetOption) :
    a.Unrepeated (a.unsaid verb option) := by
  unfold unsaid
  split
  · exact unrepeated_of_no_verb (List.forall_mem_nil _)
  · rename_i hnew
    intro before verb' option' after heq
    cases before with
    | nil =>
      obtain ⟨rfl, rfl⟩ := Item.negotiation.inj (List.cons.inj heq).1
      simpa [repeats] using hnew
    | cons item rest => simp at heq

/-- Of several verbs none is said twice in a row. -/
theorem unrepeated_unsaidAll (list : List (Verb × TelnetOption)) (a : Announced) :
    a.Unrepeated (a.unsaidAll list) := by
  induction list generalizing a with
  | nil => exact unrepeated_of_no_verb (List.forall_mem_nil _)
  | cons request rest ih => exact (unrepeated_unsaid a request.1 request.2).append (ih _)

end Announced

/-- Items without verbs are about no option. -/
theorem verbs_of_no_verb {items : List Item} (h : ∀ item ∈ items, item.isVerb = false)
    (byte : UInt8) : verbs byte items = [] := by
  refine List.eq_nil_iff_forall_not_mem.2 fun verb hverb => ?_
  exact absurd (h _ (mem_verbs.1 hverb)) Bool.noConfusion

theorem FollowUp.isVerb_eq_false {window : WindowSize} {next : FollowUp} {item : Item}
    (h : item ∈ next.items window) : item.isVerb = false := by
  cases next with
  | nothing => cases h
  | reportWindow | askTerminalType => rw [List.mem_singleton.1 h]; rfl

theorem Terminal.isVerb_report? {t : Terminal} {option : TelnetOption} {item : Item}
    (h : item ∈ (t.report? option).toList) : item.isVerb = false := by
  cases option with
  | terminalType | terminalSpeed | environment => rw [List.mem_singleton.1 h]; rfl
  | binary | echo | suppressGoAhead | windowSize | unknown => cases h

/-! ### Refusals -/

/-- Only what switches an option on is refused. -/
theorem isPositive_of_refuse {role : Role} {option : TelnetOption} {verb answer : Verb}
    (h : respond role option verb = .refuse answer) : verb.isPositive = true := by
  unfold respond at h
  split at h <;> first | rfl | cases h

/-- A refusal changes no flag. -/
theorem Flags.heed_of_refuse {role : Role} {option : TelnetOption} {verb answer : Verb}
    (h : respond role option verb = .refuse answer) (f : Flags) : f.heed role verb option = f := by
  unfold Flags.heed
  rw [h]

/-! ### What an operation says -/

namespace Codec

/-- A codec that becomes another says some items on the way, and enters them. -/
structure Utters (items : List Item) (c c' : Codec) : Prop where
  role_eq : c'.role = c.role
  replies_eq : c'.replies = c.replies ++ items.flatMap Item.bytes
  announced_eq : c'.announced = items.foldl Announced.enter c.announced

variable {items : List Item} {c c' : Codec}

namespace Utters

theorem silent (hrole : c'.role = c.role) (hreplies : c'.replies = c.replies)
    (hannounced : c'.announced = c.announced) : Utters [] c c' :=
  ⟨hrole, by rw [hreplies, List.flatMap_nil, List.append_nil], hannounced⟩

theorem tell (items : List Item) (c : Codec) : Utters items c (c.tell items) := ⟨rfl, rfl, rfl⟩

end Utters

theorem start_utters (c : Codec) :
    Utters (c.announced.unsaidAll (initialRequests c.role)) c c.start.2 :=
  start_eq c ▸ .tell _ c

theorem setWindow_utters (window : WindowSize) (c : Codec) :
    Utters (c.windowNews window) c (c.setWindow window).2.2 := by
  rw [setWindow_eq]
  exact ⟨rfl, rfl, rfl⟩

theorem sayCommand_utters (command : Command) (c : Codec) :
    ∃ item, item.isVerb = false ∧ Utters [item] c (c.sayCommand command).2 := by
  have hlow : command.toByte < Code.sb := by cases command <;> decide
  exact ⟨.command command.toByte hlow, rfl, rfl, rfl, rfl⟩

/-- A byte that ends a verb is answered. -/
theorem negotiate_utters (verb : Verb) (byte : UInt8) (c : Codec) :
    Utters (c.answers verb (TelnetOption.ofByte byte)) c
      ({ c with state := .data }.negotiate verb (TelnetOption.ofByte byte)).2 := by
  rw [negotiate_eq]
  exact ⟨rfl, rfl, rfl⟩

/-- It is heeded, too. -/
theorem flags_step_of_negotiate {verb : Verb} (h : c.state = .negotiate verb) (byte : UInt8) :
    (c.step byte).2.flags = c.flags.heed c.role verb (TelnetOption.ofByte byte) := by
  unfold step
  rw [h]
  dsimp only
  rw [negotiate_eq]
  rfl

/-- What ends a subnegotiation says a report at most, and switches nothing. -/
theorem finish_utters (c : Codec) :
    ∃ items, (∀ item ∈ items, item.isVerb = false) ∧
      Utters items c { c with state := .data }.finish.2 ∧
      { c with state := .data }.finish.2.flags = c.flags := by
  obtain ⟨asked, name, window, hfinish⟩ := exists_finish { c with state := .data }
  rw [hfinish]
  refine ⟨_, fun item hitem => ?_, ⟨rfl, rfl, rfl⟩, rfl⟩
  cases asked with
  | none => cases hitem
  | some option => exact Terminal.isVerb_report? hitem

/-! ### What a call says -/

/-- The codec after a call, as if its replies had never been taken. -/
def after (call : Call) (c : Codec) : Codec :=
  { (c.perform call).2 with replies := (c.perform call).1 ++ (c.perform call).2.replies }

/-- The verb that a call completes, with the byte of the option that it is about. -/
def hears? (call : Call) (c : Codec) : Option (Verb × UInt8) :=
  match call, c.state with
  | .decode [byte], .negotiate verb => some (verb, byte)
  | _, _ => none

theorem hears?_eq_some_iff {call : Call} {c : Codec} {verb : Verb} {byte : UInt8} :
    hears? call c = some (verb, byte) ↔ call = .decode [byte] ∧ c.state = .negotiate verb := by
  unfold hears?
  split
  · rename_i hstate
    simp [hstate, and_comm]
  · rename_i hother
    refine ⟨(fun h => nomatch h), ?_⟩
    rintro ⟨rfl, hstate⟩
    exact (hother byte verb rfl hstate).elim

/-- A call that decodes one byte, if it decodes. -/
def Call.IsSmall (call : Call) : Prop :=
  match call with
  | .decode data => data.length = 1
  | _ => True

theorem Call.isSmall_of_mem_bytewise {call small : Call} (h : small ∈ call.bytewise) :
    small.IsSmall := by
  cases call with
  | decode data =>
    obtain ⟨byte, -, rfl⟩ := List.mem_map.1 h
    rfl
  | start | resize | command | takeReplies | releaseCr =>
    rw [List.mem_singleton.1 h]
    trivial

/-- On which occasion a call says what it says. -/
inductive Occasion (call : Call) (c : Codec) : List Item → Prop where
  /-- The codec starts. -/
  | start (hcall : call = .start) (hflags : (c.after call).flags = c.flags) :
    Occasion call c (c.announced.unsaidAll (initialRequests c.role))
  /-- A verb is heard. -/
  | answer (verb : Verb) (byte : UInt8) (hears : hears? call c = some (verb, byte))
      (hflags : (c.after call).flags = c.flags.heed c.role verb (TelnetOption.ofByte byte)) :
    Occasion call c (c.answers verb (TelnetOption.ofByte byte))
  /-- Neither, and no verb comes up. -/
  | other (items : List Item) (hverbs : ∀ item ∈ items, item.isVerb = false)
      (hcall : call ≠ .start) (hears : hears? call c = none)
      (hflags : (c.after call).flags = c.flags) :
    Occasion call c items

/-- **What a call says, and when.** -/
theorem exists_occasion {call : Call} (hsmall : call.IsSmall) (c : Codec) :
    ∃ items, Utters items c (c.after call) ∧ Occasion call c items := by
  cases call with
  | start =>
    have hflags : c.start.2.flags = c.flags := congrArg Reader.flags (reader_start c)
    exact ⟨_, start_utters c, .start rfl hflags⟩
  | decode data =>
    obtain ⟨byte, rfl⟩ := List.length_eq_one_iff.1 hsmall
    have hafter : c.after (.decode [byte]) = (c.step byte).2 := rfl
    have hnone (hne : ∀ verb, c.state ≠ .negotiate verb) : hears? (.decode [byte]) c = none :=
      Option.eq_none_iff_forall_ne_some.2 fun heard hheard =>
        hne heard.1 (hears?_eq_some_iff.1 hheard).2
    rcases step_cases byte c with ⟨hne, p, hstep⟩ | ⟨verb, hstate, hstep⟩ | ⟨hne, hstep⟩
    · refine ⟨[], ?_, .other [] (List.forall_mem_nil _) (fun h => nomatch h) (hnone hne) ?_⟩
      · rw [hafter, hstep]
        exact .silent rfl rfl rfl
      · rw [hafter, hstep]
        rfl
    · have hflags := flags_step_of_negotiate hstate byte
      refine ⟨_, ?_, .answer verb byte (hears?_eq_some_iff.2 ⟨rfl, hstate⟩) hflags⟩
      rw [hafter, hstep]
      exact negotiate_utters verb byte c
    · obtain ⟨items, hverbs, hutters, hflags⟩ := finish_utters c
      rw [← hstep, ← hafter] at hutters hflags
      exact ⟨items, hutters, .other items hverbs (fun h => nomatch h) (hnone hne) hflags⟩
  | resize window =>
    have hflags : (c.setWindow window).2.2.flags = c.flags :=
      congrArg Reader.flags (reader_setWindow window c)
    have hverbs : ∀ item ∈ c.windowNews window, item.isVerb = false := fun item hitem => by
      rw [Utterance.of_windowNews hitem]
      rfl
    exact ⟨_, setWindow_utters window c, .other _ hverbs (fun h => nomatch h) rfl hflags⟩
  | command command =>
    obtain ⟨item, hverb, hutters⟩ := sayCommand_utters command c
    have hverbs : ∀ item' ∈ [item], item'.isVerb = false := fun item' hitem => by
      rw [List.mem_singleton.1 hitem, hverb]
    exact ⟨_, hutters, .other _ hverbs (fun h => nomatch h) rfl rfl⟩
  | takeReplies =>
    have hreplies : (c.after .takeReplies).replies = c.replies := List.append_nil _
    exact ⟨[], .silent rfl hreplies rfl,
      .other _ (List.forall_mem_nil _) (fun h => nomatch h) rfl rfl⟩
  | releaseCr =>
    exact ⟨[], .silent rfl rfl rfl,
      .other _ (List.forall_mem_nil _) (fun h => nomatch h) rfl rfl⟩

/-! ### What a run hears -/

/-- Where a decoder stands comes from where it stood and from the byte. -/
theorem state_step_congr {c c' : Codec} (h : c.state = c'.state) (byte : UInt8) :
    (c.step byte).2.state = (c'.step byte).2.state := by
  have hstate (c : Codec) : (c.step byte).2.state = (c.reader.step byte).2.state :=
    congrArg (·.2.state) (step_reader byte c)
  have hsame : c.reader.state = c'.reader.state := h
  rw [hstate, hstate]
  unfold Reader.step
  rw [hsame]
  split
  · split <;> rfl
  · split
    · rfl
    · split
      · rfl
      · split <;> rfl
  · rfl
  · split
    · rfl
    · exact hsame
  · rfl

theorem state_decode_congr {c c' : Codec} (h : c.state = c'.state) (data : Bytes) :
    (c.decode data).2.state = (c'.decode data).2.state := by
  induction data generalizing c c' with
  | nil => exact h
  | cons byte rest ih => exact ih (state_step_congr h byte)

/-- No other call moves the decoder. -/
theorem state_run (calls : List Call) (c : Codec) :
    (c.run calls).2.state = (c.decode (heard calls)).2.state := by
  induction calls generalizing c with
  | nil => rfl
  | cons call rest ih =>
    have hrest := ih (c.perform call).2
    have hstay (hheard : heard (call :: rest) = heard rest)
        (hstate : (c.perform call).2.state = c.state) :
        (c.run (call :: rest)).2.state = (c.decode (heard (call :: rest))).2.state := by
      rw [hheard]
      exact hrest.trans (state_decode_congr hstate _)
    cases call with
    | decode data =>
      have hheard : heard (.decode data :: rest) = data ++ heard rest := rfl
      rw [hheard, decode_append]
      exact hrest
    | start => exact hstay rfl (congrArg Reader.state (reader_start c))
    | resize window => exact hstay rfl (congrArg Reader.state (reader_setWindow window c))
    | command | takeReplies | releaseCr => exact hstay rfl rfl

/-- A verb is heard of an option when all bytes so far are whole items and `IAC` with the
verb, and the option's byte comes next. -/
theorem hears?_run_iff (role : Role) (terminal : Terminal) (calls : List Call) (call : Call)
    (verb : Verb) (byte : UInt8) :
    hears? call (({ role, terminal } : Codec).run calls).2 = some (verb, byte) ↔
      call = .decode [byte] ∧ ∃ items, Reads (heard calls) items [Code.iac, verb.toByte] := by
  let c := (({ role, terminal } : Codec).run calls).2
  obtain ⟨items, rest, hreads⟩ := exists_reads (heard calls)
  obtain ⟨-, p, -, hquiet, hcodec⟩ := decode_reads hreads role terminal
  obtain ⟨p', hquiet', -, hverb⟩ := Place.quiet_begins hreads.begins p.pendingCr
  have hstate : c.state = p.state := by
    rw [state_run, hcodec]
    rfl
  rw [hears?_eq_some_iff, hstate, hquiet.unique hquiet', hverb]
  refine and_congr_right fun _ => ⟨?_, ?_⟩
  · rintro rfl
    exact ⟨items, hreads⟩
  · rintro ⟨items', hreads'⟩
    exact (hreads.unique hreads').2

/-! ### What a run says -/

/-- A fresh codec of a role has become another in a run; the items are all that it said. -/
structure Spoken (role : Role) (speech : Bytes) (said : List Item) (c : Codec) : Prop where
  role_eq : c.role = role
  speech_eq : speech = said.flatMap Item.bytes
  announced_eq : c.announced = said.foldl Announced.enter .none

namespace Spoken

variable {role : Role} {speech taken : Bytes} {said : List Item}

/-- The bytes read as all that was said. -/
theorem reads (h : Spoken role speech said c) : Reads speech said [] :=
  ⟨h.speech_eq.trans (List.append_nil _).symm, Item.begins_nil⟩

/-- Some items later the record is the last verb still, of all that were said by then. -/
theorem foldl_byte (h : Spoken role speech said c) (items : List Item) (side : Side)
    (byte : UInt8) :
    items.foldl Announced.enter c.announced side byte =
      last? side (verbs byte (said ++ items)) := by
  rw [h.announced_eq, ← List.foldl_append, foldl_enter]
  exact Option.or_none

/-- The record of announcements is the last verb of each side about each option. -/
theorem announced_byte (h : Spoken role speech said c) (side : Side) (byte : UInt8) :
    c.announced side byte = last? side (verbs byte said) := by
  have hbyte := h.foldl_byte [] side byte
  rwa [List.append_nil] at hbyte

/-- What a call says comes after all that was said before. -/
theorem after {call : Call} (h : Spoken role (taken ++ c.replies) said c)
    (hutters : Utters items c (c.after call)) :
    Spoken role (taken ++ (c.perform call).1 ++ (c.perform call).2.replies) (said ++ items)
      (c.perform call).2 where
  role_eq := hutters.role_eq.trans h.role_eq
  speech_eq := by
    have hreplies : (c.perform call).1 ++ (c.perform call).2.replies =
        c.replies ++ items.flatMap Item.bytes := hutters.replies_eq
    rw [List.append_assoc, hreplies, ← List.append_assoc, h.speech_eq, List.flatMap_append]
  announced_eq := by
    have hannounced : (c.perform call).2.announced = items.foldl Announced.enter c.announced :=
      hutters.announced_eq
    rw [hannounced, h.announced_eq, List.foldl_append]

end Spoken

/-- **Induction on the calls of a run**, a byte at a time. -/
theorem run_induction {P : Bytes → Codec → Prop} {c : Codec} (hfirst : P [] c)
    (hnext : ∀ taken c call items, P taken c → Utters items c (c.after call) →
      Occasion call c items → P (taken ++ (c.perform call).1) (c.perform call).2)
    (calls : List Call) : P (c.run calls).1 (c.run calls).2 := by
  have hsmall (calls : List Call) (h : ∀ call ∈ calls, call.IsSmall) (taken : Bytes) (c : Codec)
      (hbefore : P taken c) : P (taken ++ (c.run calls).1) (c.run calls).2 := by
    induction calls generalizing taken c with
    | nil => exact (List.append_nil taken).symm ▸ hbefore
    | cons call rest ih =>
      obtain ⟨items, hutters, hoccasion⟩ := exists_occasion (h call (List.mem_cons_self ..)) c
      have hrest := ih (fun call' hcall => h call' (List.mem_cons_of_mem _ hcall)) _ _
        (hnext taken c call items hbefore hutters hoccasion)
      rw [List.append_assoc] at hrest
      exact hrest
  rw [← run_bytewise]
  refine hsmall _ (fun small h => ?_) [] c hfirst
  obtain ⟨call, -, hmem⟩ := List.mem_flatMap.1 h
  exact Call.isSmall_of_mem_bytewise hmem

/-- Whatever the run, there are items that its codec has said. -/
theorem exists_spoken (role : Role) (terminal : Terminal) (calls : List Call) :
    ∃ said, Spoken role (({ role, terminal } : Codec).speech calls) said
      (({ role, terminal } : Codec).run calls).2 := by
  refine run_induction (P := fun taken c => ∃ said, Spoken role (taken ++ c.replies) said c)
    ⟨[], rfl, rfl, rfl⟩ ?_ calls
  rintro taken c call items ⟨said, hspoken⟩ hutters -
  exact ⟨said ++ items, hspoken.after hutters⟩

/-! ### Repetitions -/

theorem answers_of_refuse {verb answer : Verb} {byte : UInt8} {c : Codec}
    (h : respond c.role (TelnetOption.ofByte byte) verb = .refuse answer) :
    c.answers verb (TelnetOption.ofByte byte) = [.negotiation answer byte] := by
  unfold answers
  rw [h]
  simp [Item.saying]

/-- An answer to a verb is a refusal of it, or it is no repetition. -/
theorem unrepeated_answers {verb : Verb} {option : TelnetOption} {c : Codec}
    (h : ∀ answer, respond c.role option verb ≠ .refuse answer) :
    c.announced.Unrepeated (c.answers verb option) := by
  unfold answers
  cases hrespond : respond c.role option verb with
  | ignore => exact Announced.unrepeated_of_no_verb (List.forall_mem_nil _)
  | refuse answer => exact absurd hrespond (h answer)
  | agree on answer next =>
    refine (Announced.unrepeated_unsaid _ _ _).append (Announced.unrepeated_of_no_verb ?_)
    intro item hitem
    split at hitem
    · exact FollowUp.isVerb_eq_false hitem
    · cases hitem

/-- A verb has at most one verb in answer. -/
theorem length_filter_answers_le (verb : Verb) (option : TelnetOption) (c : Codec) :
    ((c.answers verb option).filter Item.isVerb).length ≤ 1 := by
  have hnext (next : FollowUp) : (next.items c.terminal.window).filter Item.isVerb = [] :=
    List.filter_eq_nil_iff.2 fun item hitem => by simp [FollowUp.isVerb_eq_false hitem]
  have hunsaid (answer : Verb) : (c.announced.unsaid answer option).length ≤ 1 := by
    unfold Announced.unsaid
    split <;> simp
  unfold answers
  cases respond c.role option verb with
  | ignore => exact Nat.zero_le 1
  | refuse answer => exact List.length_filter_le ..
  | agree on answer next =>
    dsimp only
    rw [List.filter_append]
    split
    · rw [hnext, List.append_nil]
      exact Nat.le_trans (List.length_filter_le ..) (hunsaid answer)
    · rw [List.filter_nil, List.append_nil]
      exact Nat.le_trans (List.length_filter_le ..) (hunsaid answer)

/-- A call that says some items, after all that was said before, says no verb without need. -/
structure Measured (call : Call) (c : Codec) (said items : List Item) : Prop where
  /-- Verbs come up at a start, and when a verb is heard. -/
  occasion : (∃ item ∈ items, item.isVerb = true) → call = .start ∨ (hears? call c).isSome
  /-- What was said last of its side and option is said again only as the refusal of a verb
  that was just heard. -/
  repeats : ∀ before answer option after,
    items = before ++ .negotiation answer option :: after →
    last? answer.side (verbs option (said ++ before)) = some answer →
    ∃ verb, verb.isPositive = true ∧ hears? call c = some (verb, option) ∧
      respond c.role (TelnetOption.ofByte option) verb = .refuse answer
  /-- To a verb there is one verb in answer at most. -/
  single : ∀ heard, hears? call c = some heard → (items.filter Item.isVerb).length ≤ 1
  /-- A refusal is said every time, and changes no flag. -/
  refused : ∀ verb byte answer, hears? call c = some (verb, byte) →
    respond c.role (TelnetOption.ofByte byte) verb = .refuse answer →
    items = [.negotiation answer byte] ∧ (c.perform call).2.flags = c.flags

theorem Spoken.measured {role : Role} {speech : Bytes} {said items : List Item} {call : Call}
    {c : Codec} (h : Spoken role speech said c) (hoccasion : Occasion call c items) :
    Measured call c said items := by
  -- What is no repetition in the record is none in what was said.
  have hrepeats (hnew : c.announced.Unrepeated items) {before answer option after}
      (hitems : items = before ++ .negotiation answer option :: after) :
      last? answer.side (verbs option (said ++ before)) ≠ some answer := by
    rw [← h.foldl_byte]
    exact hnew before answer option after hitems
  cases hoccasion with
  | start hcall hflags =>
    subst hcall
    have hnone : hears? .start c = none := rfl
    refine ⟨fun _ => .inl rfl, fun _ _ _ _ hitems hlast => ?_, ?_, ?_⟩
    · exact absurd hlast (hrepeats (Announced.unrepeated_unsaidAll _ _) hitems)
    · exact fun heard hears => absurd (hnone.symm.trans hears) (Option.some_ne_none heard).symm
    · exact fun verb byte answer hears => nomatch hnone.symm.trans hears
  | answer verb byte hears hflags =>
    refine ⟨fun _ => .inr (hears ▸ rfl), ?_, fun _ _ => length_filter_answers_le verb _ c, ?_⟩
    · intro before answer option after hitems hlast
      by_cases hrefuse :
          ∃ answer, respond c.role (TelnetOption.ofByte byte) verb = .refuse answer
      · obtain ⟨answer', hrespond⟩ := hrefuse
        have hanswers := answers_of_refuse hrespond
        obtain ⟨rfl, rfl⟩ : answer' = answer ∧ byte = option := by
          rw [hanswers] at hitems
          cases before with
          | nil => exact Item.negotiation.inj (List.cons.inj hitems).1
          | cons item rest => simp at hitems
        exact ⟨verb, isPositive_of_refuse hrespond, hears, hrespond⟩
      · refine absurd hlast (hrepeats (unrepeated_answers fun answer hrespond => ?_) hitems)
        exact hrefuse ⟨answer, hrespond⟩
    · intro verb' byte' answer hears' hrespond
      obtain ⟨rfl, rfl⟩ := Prod.mk.inj (Option.some.inj (hears.symm.trans hears'))
      exact ⟨answers_of_refuse hrespond, hflags.trans (Flags.heed_of_refuse hrespond c.flags)⟩
  | other _ hverbs hcall hears hflags =>
    refine ⟨?_, fun _ _ _ _ hitems hlast => ?_, ?_, ?_⟩
    · rintro ⟨item, hitem, hverb⟩
      exact absurd ((hverbs item hitem).symm.trans hverb) Bool.noConfusion
    · exact absurd hlast (hrepeats (Announced.unrepeated_of_no_verb hverbs) hitems)
    · exact fun heard hears' => nomatch hears.symm.trans hears'
    · exact fun verb byte answer hears' => nomatch hears.symm.trans hears'

/-- **What a codec has announced.**  In a run of a fresh codec, however the bytes come, all
that it has to say is whole items, and the record of announcements is the last verb that was
said of each side about each option.  Whichever call comes next, one byte at a time, says no
verb without need: verbs come up at a start and to a verb that is heard, one at most to
each; a verb that was said last is said again only to refuse one that was just heard; and a
verb that is refused is refused every time, and changes no flag. -/
theorem announcements_of_run (role : Role) (terminal : Terminal) (calls : List Call) :
    let first : Codec := { role, terminal }
    let c := (first.run calls).2
    first.run (calls.flatMap Call.bytewise) = first.run calls ∧
      (∀ call verb byte, hears? call c = some (verb, byte) ↔
        call = .decode [byte] ∧ ∃ items, Reads (heard calls) items [Code.iac, verb.toByte]) ∧
      ∃ said, Reads (first.speech calls) said [] ∧
        (∀ side byte, c.announced side byte = last? side (verbs byte said)) ∧
        ∀ call : Call, call.IsSmall → ∃ items,
          Reads (first.speech (calls ++ [call])) (said ++ items) [] ∧
            Measured call c said items := by
  intro first c
  obtain ⟨said, hspoken⟩ := exists_spoken role terminal calls
  refine ⟨run_bytewise calls first, hears?_run_iff role terminal calls, said, hspoken.reads,
    hspoken.announced_byte, fun call hsmall => ?_⟩
  obtain ⟨items, hutters, hoccasion⟩ := exists_occasion hsmall c
  have hafter :
      Spoken role (first.speech (calls ++ [call])) (said ++ items) (c.perform call).2 := by
    have hspeech : first.speech (calls ++ [call]) =
        (first.run calls).1 ++ (c.perform call).1 ++ (c.perform call).2.replies := by
      simp [speech, run_append, run, c]
    rw [hspeech]
    exact hspoken.after hutters
  exact ⟨items, hafter.reads, hspoken.measured hoccasion⟩

end Codec
end Telnet
end RemoteTerminal
