/-
# No option without consent

An option is on only while this side stands by it: its last verb about the performing side
agrees (`Agreed`).  Flags, the response table and the record of announcements have to fit
together for that.

| performer | role | agreeing verb | a refusal is about |
| --- | --- | --- | --- |
| either | both | `WILL` or `DO` | |
| server | client | `DO` | this side |
| server | server | `WILL` | the peer |
| client | client | `WILL` | |
| client | server | `DO` | this side |

A verb that switches an option on is answered by one that agrees (`mem_assents_of_agree`),
and if that is left unsaid it was the last one.  A refusal is never about the side on which
the agreement stands (`side_ne_of_refuse`), and what a codec says of its own accord agrees.
-/

import RemoteTerminal.Proofs.Telnet.Announcements

namespace RemoteTerminal
namespace Telnet

/-! ### Agreement -/

/-- The verbs by which a side agrees to an option, each about the side that performs it. -/
def assents (role : Role) (option : TelnetOption) : List Verb :=
  match option.performer, role with
  | .either, _ => [.will, .do]
  | .server, .client | .client, .server => [.do]
  | .server, .server | .client, .client => [.will]
  | .nobody, _ => []

/-- A side that has said some verbs about an option agrees to it: what it last said of the
performing side is that it does. -/
def Agreed (role : Role) (option : TelnetOption) (said : List Verb) : Prop :=
  ∃ assent ∈ assents role option, last? assent.side said = some assent

instance (role : Role) (option : TelnetOption) (said : List Verb) :
    Decidable (Agreed role option said) :=
  inferInstanceAs
    (Decidable (∃ assent ∈ assents role option, last? assent.side said = some assent))

variable {role : Role} {option : TelnetOption} {verb answer : Verb} {said more : List Verb}

/-- An agreement stands as long as nothing else is said of the performing side. -/
theorem Agreed.append (h : Agreed role option said)
    (hmore : ∀ assent ∈ assents role option, ∀ v ∈ more, v.side = assent.side → v = assent) :
    Agreed role option (said ++ more) := by
  obtain ⟨assent, hassent, hlast⟩ := h
  refine ⟨assent, hassent, ?_⟩
  rw [last?_append, hlast]
  cases hnew : last? assent.side more with
  | none => rfl
  | some v =>
    have hside : v.side = assent.side := by simpa using List.find?_some hnew
    rw [hmore assent hassent v (mem_of_last?_eq_some hnew) hside]
    rfl

/-- A client's agreement that the server echoes outlasts its refusal to echo itself. -/
example : Agreed .client .echo [.do, .wont] ∧ ¬Agreed .client .echo [.do, .wont, .dont] := by
  decide

/-! ### The response table -/

theorem isPositive_of_mem_assents (h : verb ∈ assents role option) : verb.isPositive = true := by
  have hall : ∀ assent ∈ assents role option, assent.isPositive = true := by
    unfold assents
    split <;> decide
  exact hall verb h

/-- What switches an option on is answered by a verb that agrees. -/
theorem mem_assents_of_agree {next : FollowUp}
    (h : respond role option verb = .agree true answer next) : answer ∈ assents role option := by
  unfold respond at h
  unfold assents
  split at h <;> simp_all

/-- A refusal is not about the side that the agreement is about. -/
theorem side_ne_of_refuse {assent : Verb} (h : respond role option verb = .refuse answer)
    (hassent : assent ∈ assents role option) : answer.side ≠ assent.side := by
  unfold respond at h
  unfold assents at hassent
  split at h <;> cases h <;> simp_all [Verb.side]

/-- Only a supported option is ever switched. -/
theorem isSupported_of_agree {on : Bool} {next : FollowUp}
    (h : respond role option verb = .agree on answer next) : option.isSupported = true := by
  unfold respond at h
  unfold TelnetOption.isSupported
  split at h <;> simp_all

namespace Flags

/-- A verb that switches off a supported option is heeded. -/
theorem isOn_heed_of_negative (hverb : verb.isPositive = false)
    (hsupported : option.isSupported = true) (role : Role) (f : Flags) :
    (f.heed role verb option).isOn option = false := by
  have hrespond : ∃ answer next, respond role option verb = .agree false answer next := by
    unfold TelnetOption.isSupported at hsupported
    unfold respond
    split <;> simp_all [Verb.isPositive]
  obtain ⟨answer, next, hrespond⟩ := hrespond
  unfold heed
  rw [hrespond]
  exact f.isOn_set_self option false hsupported

/-- A verb about one option switches no other. -/
theorem isOn_heed_of_ne {other : TelnetOption} (h : option ≠ other) (role : Role) (verb : Verb)
    (f : Flags) : (f.heed role verb other).isOn option = f.isOn option := by
  unfold heed
  split
  · exact f.isOn_set_of_ne _ h
  · rfl

/-- An option that is on is the option of its byte. -/
theorem ofByte_toByte_of_isOn {f : Flags} (h : f.isOn option = true) :
    TelnetOption.ofByte option.toByte = option := by
  cases option with
  | unknown byte => cases h
  | binary | echo | suppressGoAhead | terminalType | windowSize | terminalSpeed | environment =>
    decide

end Flags

/-- **The response to a verb keeps an option from being on without consent.** -/
theorem agreed_response {f : Flags} (h : f.isOn option = true → Agreed role option said)
    (hon : (f.heed role verb option).isOn option = true) :
    Agreed role option (said ++ (respond role option verb).verbs said) := by
  unfold Flags.heed at hon
  cases hrespond : respond role option verb with
  | ignore =>
    rw [hrespond] at hon
    exact (List.append_nil said).symm ▸ h hon
  | refuse answer =>
    rw [hrespond] at hon
    refine (h hon).append fun assent hassent v hv hside => ?_
    rw [List.mem_singleton.1 hv] at hside
    exact absurd hside (side_ne_of_refuse hrespond hassent)
  | agree on answer next =>
    rw [hrespond] at hon
    have hset : (f.set option on).isOn option = on :=
      f.isOn_set_self option on (isSupported_of_agree hrespond)
    obtain rfl : on = true := hset.symm.trans hon
    refine ⟨answer, mem_assents_of_agree hrespond, ?_⟩
    have hself : last? answer.side [answer] = some answer := by simp [last?]
    dsimp only [Response.verbs]
    split
    · rename_i hlast
      rw [List.append_nil, hlast]
    · rw [last?_append, hself]
      rfl

/-- What a side asks for by itself agrees. -/
theorem isPositive_of_mem_requests (h : verb ∈ requests role option) : verb.isPositive = true := by
  have hpositive : ∀ request ∈ initialRequests role, request.1.isPositive = true := by
    cases role <;> decide
  obtain ⟨request, hrequest, hsome⟩ := List.mem_filterMap.1 h
  obtain ⟨-, rfl⟩ := Option.ite_some_none_eq_some.1 hsome
  exact hpositive request hrequest

namespace Codec

/-! ### Runs -/

/-- Every option that is on was agreed to. -/
def Consents (said : List Item) (c : Codec) : Prop :=
  ∀ option, c.flags.isOn option = true → Agreed c.role option (verbs option.toByte said)

/-- **No call switches an option on without consent.** -/
theorem Consents.after {speech : Bytes} {said items : List Item} {call : Call} {c : Codec}
    (h : Consents said c) (hspoken : Spoken role speech said c)
    (hutters : Utters items c (c.after call)) (hoccasion : Occasion call c items) :
    Consents (said ++ items) (c.perform call).2 := by
  intro option hon
  have hrole : (c.perform call).2.role = c.role := hutters.role_eq
  rw [hrole, verbs_append]
  cases hoccasion with
  | start hcall hflags =>
    have hbefore : c.flags.isOn option = true := hflags ▸ hon
    refine (h option hbefore).append fun assent hassent v hv hside => ?_
    rw [verbs_start] at hv
    have hpositive := isPositive_of_mem_requests (List.mem_filter.1 hv).1
    exact Verb.eq_of_side_of_isPositive hside
      (hpositive.trans (isPositive_of_mem_assents hassent).symm)
  | answer verb byte hears hflags =>
    have hheed : (c.perform call).2.flags =
        c.flags.heed c.role verb (TelnetOption.ofByte byte) := hflags
    have hlast := fun side => hspoken.announced_byte side option.toByte
    have hverbs := verbs_answersTo option.toByte (.negotiation verb byte) c hlast
    have hanswers : c.answersTo (.negotiation verb byte) =
        c.answers verb (TelnetOption.ofByte byte) := rfl
    rw [← hanswers, hverbs]
    rw [hheed] at hon
    by_cases hbyte : byte = option.toByte
    · have hoption := Flags.ofByte_toByte_of_isOn hon
      rw [hbyte, hoption] at hon
      simp only [Item.verbAbout?, hbyte, if_true, hoption]
      exact agreed_response (h option) hon
    · have hne : option ≠ TelnetOption.ofByte byte := fun heq =>
        hbyte (by rw [heq, TelnetOption.toByte_ofByte])
      rw [Flags.isOn_heed_of_ne hne] at hon
      simp only [Item.verbAbout?, hbyte, if_false, List.append_nil]
      exact h option hon
  | other _ hverbs hcall hears hflags =>
    have hbefore : c.flags.isOn option = true := hflags ▸ hon
    rw [verbs_of_no_verb hverbs, List.append_nil]
    exact h option hbefore

/-- **No option is on without consent.**  In a run of a fresh codec, all that it has to say
is whole items, and while an option is on, its last verb about the performing side agrees to
it.  Whichever verb comes next, a refusal switches nothing, and a supported option that is to
be off is off. -/
theorem consent_of_run (role : Role) (terminal : Terminal) (calls : List Call) :
    let first : Codec := { role, terminal }
    let c := (first.run calls).2
    (∃ said, Reads (first.speech calls) said [] ∧
      ∀ option, c.flags.isOn option = true → Agreed role option (verbs option.toByte said)) ∧
    ∀ items verb byte, Reads (heard calls) items [Code.iac, verb.toByte] →
      let option := TelnetOption.ofByte byte
      let flags := (c.decode [byte]).2.flags
      (∀ answer, respond role option verb = .refuse answer → flags = c.flags) ∧
        (verb.isPositive = false → option.isSupported = true → flags.isOn option = false) := by
  intro first c
  have hrun : ∃ said, Spoken role (first.speech calls) said c ∧ Consents said c := by
    refine run_induction
      (P := fun taken c => ∃ said, Spoken role (taken ++ c.replies) said c ∧ Consents said c)
      ⟨[], ⟨rfl, rfl, rfl⟩, fun option hon => ?_⟩ ?_ calls
    · cases option <;> cases hon
    · rintro taken c call items ⟨said, hspoken, hconsents⟩ hutters hoccasion
      exact ⟨said ++ items, hspoken.after hutters, hconsents.after hspoken hutters hoccasion⟩
  obtain ⟨said, hspoken, hconsents⟩ := hrun
  refine ⟨⟨said, hspoken.reads, hspoken.role_eq ▸ hconsents⟩, fun items verb byte hreads => ?_⟩
  obtain ⟨-, hstate⟩ := hears?_eq_some_iff.1
    ((hears?_run_iff role terminal calls (.decode [byte]) verb byte).2 ⟨rfl, items, hreads⟩)
  have hflags : (c.decode [byte]).2.flags = c.flags.heed c.role verb (TelnetOption.ofByte byte) :=
    flags_step_of_negotiate hstate byte
  rw [hflags, hspoken.role_eq]
  exact ⟨fun answer hrespond => Flags.heed_of_refuse hrespond c.flags,
    fun hverb hsupported => Flags.isOn_heed_of_negative hverb hsupported role c.flags⟩

end Codec
end Telnet
end RemoteTerminal
