/-
# How an option is negotiated

Most options are negotiated in harmony (`Harmonious`): each side has a `vocabulary`, all
of it positive, and answers what the other says of the option with more of it.  Of each
kind of verb there is one to say, so nothing is said twice.

The exception are two servers that each ask for what only one side of a connection
performs (`Contested`).  Then they are opposed (`Opposed`), and what is said alternates:

| | the client performs it | the server performs it |
| --- | --- | --- |
| asked for | `DO` | `WILL` |
| refused | `WONT` | `DONT` |
| the refusal acknowledged | `DONT` | `WONT` |

A refusal is not held back when it was said before, and an acknowledgement is heard as a
refusal would be.  That they do not go on for ever takes both sides: an ask is said once,
so it is refused once, so that is acknowledged once; and who hears the acknowledgement
has said the refusal last.  Hence `Arises.verbs_nodup`: whatever the roles, no side says
the same verb about an option twice.
-/

import Mathlib.Data.List.Nodup
import RemoteTerminal.Proofs.Telnet.Stance

namespace RemoteTerminal
namespace Telnet

/-! ### Sides that agree -/

/-- What a side may say of an option to another, where nobody is refused. -/
def vocabulary (performer : Performer) (mine peer : Role) : List Verb :=
  match performer, mine, peer with
  | .either, _, _ => [.will, .do]
  | .server, .client, .server => [.do]
  | .server, .server, _ => [.will]
  | .client, .client, _ => [.will]
  | .client, .server, _ => [.do]
  | .server, .client, .client => []
  | .nobody, _, _ => []

/-- Two servers refuse each other what only one side of a connection performs. -/
def Contested (performer : Performer) (mine peer : Role) : Prop :=
  mine = .server ∧ peer = .server ∧ (performer = .server ∨ performer = .client)

instance (performer : Performer) (mine peer : Role) : Decidable (Contested performer mine peer) :=
  inferInstanceAs (Decidable (_ ∧ _))

theorem Contested.symm {performer : Performer} {mine peer : Role}
    (h : Contested performer mine peer) : Contested performer peer mine :=
  ⟨h.2.1, h.1, h.2.2⟩

theorem requests_unknown (role : Role) (byte : UInt8) : requests role (.unknown byte) = [] := by
  cases role <;> rfl

theorem requests_vocabulary (option : TelnetOption) (mine peer : Role) :
    ∀ verb ∈ requests mine option, verb ∈ vocabulary option.performer mine peer := by
  cases option with
  | unknown byte => simp [requests_unknown]
  | _ => cases mine <;> cases peer <;> decide

theorem requests_nodup (option : TelnetOption) (role : Role) : (requests role option).Nodup := by
  cases option with
  | unknown byte => simp [requests_unknown]
  | _ => cases role <;> decide

theorem vocabulary_positive (performer : Performer) (mine peer : Role) :
    ∀ verb ∈ vocabulary performer mine peer, verb.isPositive = true := by
  cases performer <;> cases mine <;> cases peer <;> decide

/-- What is said from the vocabulary is agreed to from the vocabulary. -/
theorem respond_vocabulary {option : TelnetOption} {mine peer : Role}
    (h : ¬Contested option.performer mine peer) {verb : Verb}
    (hverb : verb ∈ vocabulary option.performer peer mine) :
    ∃ answer next, respond mine option verb = .agree true answer next ∧
      answer ∈ vocabulary option.performer mine peer := by
  cases option <;> cases mine <;> cases peer <;> cases verb <;>
    simp_all [vocabulary, TelnetOption.performer, respond, Contested]

/-- What is so of an option that nobody is refused: all is said once, what is asked for
at the beginning is said from then on, and what was heard was answered. -/
structure Harmonious (option : TelnetOption) (mine peer : Role) (x y : Stance) : Prop where
  words : ∀ verb ∈ x.said, verb ∈ vocabulary option.performer mine peer
  nodup : x.said.Nodup
  asked : x.begun = true → ∀ verb ∈ requests mine option, verb ∈ x.said
  answered : ∀ verb ∈ x.heard, ∃ answer next,
    respond mine option verb = .agree true answer next ∧ answer ∈ x.said
  heard_isPrefix : x.heard <+: y.said

namespace Harmonious

variable {option : TelnetOption} {mine peer : Role} {x x' y y' : Stance}

/-- More is said of the vocabulary: nothing that was said before. -/
theorem nodup_append (h : Harmonious option mine peer x y) {new : List Verb}
    (hwords : ∀ verb ∈ new, verb ∈ vocabulary option.performer mine peer) (hnew : new.Nodup)
    (hlast : ∀ verb ∈ new, last? verb.side x.said ≠ some verb) :
    (∀ verb ∈ x.said ++ new, verb ∈ vocabulary option.performer mine peer) ∧
      (x.said ++ new).Nodup := by
  have hpositive (verb : Verb) (hv : verb ∈ x.said) : verb.isPositive = true :=
    vocabulary_positive _ _ _ verb (h.words verb hv)
  refine ⟨?_, List.nodup_append.2 ⟨h.nodup, hnew, ?_⟩⟩
  · intro verb hverb
    rcases List.mem_append.1 hverb with hsaid | hsaid
    · exact h.words verb hsaid
    · exact hwords verb hsaid
  · rintro verb hverb verb' hverb' rfl
    refine hlast verb hverb' (last?_eq_some hverb fun v hv hside => ?_)
    exact Verb.eq_of_side_of_isPositive hside ((hpositive v hv).trans (hpositive verb hverb).symm)

theorem step (h : Harmonious option mine peer x y) (hback : Harmonious option peer mine y x)
    (hfree : ¬Contested option.performer mine peer) (hstep : x.Step mine option y.said x') :
    Harmonious option mine peer x' y := by
  cases hstep with
  | start hbegun =>
    have hnew (verb : Verb) : verb ∈ (requests mine option).filter (fun verb =>
        last? verb.side x.said ≠ some verb) ↔
        verb ∈ requests mine option ∧ last? verb.side x.said ≠ some verb := by
      simp
    obtain ⟨hwords, hnodup⟩ := h.nodup_append
      (fun verb hverb => requests_vocabulary option mine peer verb ((hnew verb).1 hverb).1)
      ((requests_nodup option mine).filter _) (fun verb hverb => ((hnew verb).1 hverb).2)
    refine ⟨hwords, hnodup, fun _ verb hverb => ?_, fun verb hverb => ?_, h.heard_isPrefix⟩
    · by_cases hlast : last? verb.side x.said = some verb
      · exact List.mem_append_left _ (mem_of_last?_eq_some hlast)
      · exact List.mem_append_right _ ((hnew verb).2 ⟨hverb, hlast⟩)
    · obtain ⟨answer, next, hrespond, hanswer⟩ := h.answered verb hverb
      exact ⟨answer, next, hrespond, List.mem_append_left _ hanswer⟩
  | hear verb rest hothers =>
    have hverb : verb ∈ y.said := by simp [hothers]
    obtain ⟨answer, next, hrespond, hanswer⟩ := respond_vocabulary hfree (hback.words verb hverb)
    have hverbs : (respond mine option verb).verbs x.said =
        if last? answer.side x.said = some answer then [] else [answer] := by
      rw [hrespond]
      rfl
    have hheard : x.heard ++ [verb] <+: y.said := ⟨rest, by simp [hothers]⟩
    have hanswered (said : List Verb) (hsub : ∀ v ∈ x.said, v ∈ said) (hsaid : answer ∈ said) :
        ∀ v ∈ x.heard ++ [verb], ∃ answer next,
          respond mine option v = .agree true answer next ∧ answer ∈ said := by
      intro v hv
      rcases List.mem_append.1 hv with hbefore | hnow
      · obtain ⟨answer', next', hrespond', hsaid'⟩ := h.answered v hbefore
        exact ⟨answer', next', hrespond', hsub _ hsaid'⟩
      · rw [List.mem_singleton.1 hnow]
        exact ⟨answer, next, hrespond, hsaid⟩
    rw [hverbs]
    split
    · rename_i hlast
      rw [List.append_nil]
      exact ⟨h.words, h.nodup, h.asked, hanswered _ (fun _ => id) (mem_of_last?_eq_some hlast),
        hheard⟩
    · rename_i hlast
      have hone {v : Verb} (hv : v ∈ [answer]) : v = answer := List.mem_singleton.1 hv
      obtain ⟨hwords, hnodup⟩ := h.nodup_append (fun v hv => hone hv ▸ hanswer)
        (List.nodup_singleton answer) (fun v hv => hone hv ▸ hlast)
      refine ⟨hwords, hnodup, fun hb v hv => List.mem_append_left _ (h.asked hb v hv),
        hanswered _ (fun v hv => List.mem_append_left _ hv) ?_, hheard⟩
      exact List.mem_append_right _ (List.mem_singleton_self answer)

theorem step_other (h : Harmonious option mine peer x y) (hstep : y.Step peer option x.said y') :
    Harmonious option mine peer x y' :=
  { h with heard_isPrefix := h.heard_isPrefix.trans hstep.said_isPrefix }

end Harmonious

/-! ### Sides that refuse each other -/

/-- The verbs that two sides of a role say of an option that they refuse each other: what
each asks for at the beginning, its refusal of that, and the acknowledgement of a refusal. -/
structure Standoff (role : Role) (option : TelnetOption) (ask refusal ack : Verb) : Prop where
  requests : ∀ verb ∈ requests role option, verb = ask
  asked : respond role option ask = .refuse refusal
  refused : respond role option refusal = .agree false ack .nothing
  acked : respond role option ack = .agree false refusal .nothing
  side_eq : ack.side = ask.side
  side_ne : refusal.side ≠ ask.side
  ack_ne : ack ≠ ask

namespace Standoff

variable {role : Role} {option : TelnetOption} {ask refusal ack : Verb}

theorem refusal_ne_ask (h : Standoff role option ask refusal ack) : refusal ≠ ask :=
  fun heq => h.side_ne (congrArg Verb.side heq)

theorem refusal_ne_ack (h : Standoff role option ask refusal ack) : refusal ≠ ack :=
  fun heq => h.side_ne ((congrArg Verb.side heq).trans h.side_eq)

end Standoff

/-- What is contested leads to such a standoff. -/
theorem Contested.standoff {option : TelnetOption} {mine peer : Role}
    (h : Contested option.performer mine peer) :
    mine = .server ∧ peer = .server ∧
      ∃ ask refusal ack, Standoff .server option ask refusal ack := by
  obtain ⟨hmine, hpeer, hperformer⟩ := h
  refine ⟨hmine, hpeer, ?_⟩
  rcases hperformer with hp | hp
  · refine ⟨.will, .dont, .wont, ?_⟩
    cases option <;> simp only [TelnetOption.performer, reduceCtorEq] at hp
    exact ⟨by decide, rfl, rfl, rfl, rfl, by decide, by decide⟩
  · refine ⟨.do, .wont, .dont, ?_⟩
    cases option <;> simp only [TelnetOption.performer, reduceCtorEq] at hp <;>
      exact ⟨by decide, rfl, rfl, rfl, rfl, by decide, by decide⟩

/-- What is so of an option in a standoff: each refuses once what the other asked for, and
acknowledges a refusal once. -/
structure Opposed (ask refusal ack : Verb) (x y : Stance) : Prop where
  words : ∀ verb ∈ x.said, verb = ask ∨ verb = refusal ∨ verb = ack
  nodup : x.said.Nodup
  asked : ask ∈ x.said → x.begun = true
  refused : refusal ∈ x.said ↔ ask ∈ x.heard
  acked : ack ∈ x.said → refusal ∈ x.heard
  heard_isPrefix : x.heard <+: y.said

namespace Opposed

variable {role : Role} {option : TelnetOption} {ask refusal ack : Verb} {x x' y y' : Stance}

/-- A verb that is said but once is heard for the first time when it is heard. -/
theorem heard_next (hback : Opposed ask refusal ack y x) {verb : Verb} {rest : List Verb}
    (hothers : y.said = x.heard ++ verb :: rest) :
    verb ∈ y.said ∧ verb ∉ x.heard ∧ x.heard ++ [verb] <+: y.said := by
  have hheard : x.heard ++ [verb] <+: y.said := ⟨rest, by simp [hothers]⟩
  have hnodup : (x.heard ++ [verb]).Nodup := hback.nodup.sublist hheard.sublist
  refine ⟨by simp [hothers], fun hmem => ?_, hheard⟩
  exact (List.nodup_append.1 hnodup).2.2 verb hmem verb (List.mem_singleton_self verb) rfl

/-- A verb that was not said before may be said. -/
theorem concat (h : Opposed ask refusal ack x y) {verb : Verb}
    (hword : verb = ask ∨ verb = refusal ∨ verb = ack) (hnew : verb ∉ x.said) :
    (∀ v ∈ x.said ++ [verb], v = ask ∨ v = refusal ∨ v = ack) ∧ (x.said ++ [verb]).Nodup := by
  constructor
  · intro v hv
    rcases List.mem_append.1 hv with hsaid | hnow
    · exact h.words v hsaid
    · exact List.mem_singleton.1 hnow ▸ hword
  · refine List.nodup_append.2 ⟨h.nodup, List.nodup_singleton verb, ?_⟩
    rintro v hv v' hv' rfl
    exact hnew (List.mem_singleton.1 hv' ▸ hv)

/-- At the beginning it is asked for, by a side that has not asked before. -/
theorem start (h : Opposed ask refusal ack x y) (hs : Standoff role option ask refusal ack)
    (hbegun : x.begun = false) :
    Opposed ask refusal ack
      { x with
        said := x.said ++
          (requests role option).filter fun verb => last? verb.side x.said ≠ some verb
        begun := true } y := by
  have hsilent : ask ∉ x.said := fun hsaid => by simp [h.asked hsaid] at hbegun
  have hnew (verb : Verb) (hverb : verb ∈ (requests role option).filter fun verb =>
      last? verb.side x.said ≠ some verb) : verb = ask :=
    hs.requests verb (List.mem_filter.1 hverb).1
  have hold (verb : Verb) (hverb : verb ∈ x.said ++ (requests role option).filter fun verb =>
      last? verb.side x.said ≠ some verb) : verb ∈ x.said ∨ verb = ask :=
    (List.mem_append.1 hverb).imp id (hnew verb)
  refine ⟨fun verb hverb => ?_, ?_, fun _ => rfl, ?_, fun hack => ?_, h.heard_isPrefix⟩
  · exact (hold verb hverb).elim (h.words verb) .inl
  · refine List.nodup_append.2 ⟨h.nodup, (requests_nodup option role).filter _, ?_⟩
    rintro verb hverb verb' hverb' rfl
    exact hsilent (hnew verb hverb' ▸ hverb)
  · rw [← h.refused]
    exact ⟨fun hr => (hold _ hr).resolve_right hs.refusal_ne_ask, List.mem_append_left _⟩
  · exact h.acked ((hold _ hack).resolve_right hs.ack_ne)

section Hear

variable {rest : List Verb} (h : Opposed ask refusal ack x y)
  (hback : Opposed ask refusal ack y x) (hs : Standoff role option ask refusal ack)
include h hback hs

/-- It is asked for the first time, so it was not refused before, and is now. -/
theorem hear_ask (hothers : y.said = x.heard ++ ask :: rest) :
    Opposed ask refusal ack
      { x with
        said := x.said ++ (respond role option ask).verbs x.said
        heard := x.heard ++ [ask] } y := by
  obtain ⟨-, hfirst, hheard⟩ := hback.heard_next hothers
  have hverbs : (respond role option ask).verbs x.said = [refusal] := by
    rw [hs.asked]
    rfl
  obtain ⟨hwords, hnodup⟩ := h.concat (.inr (.inl rfl)) fun hr => hfirst (h.refused.1 hr)
  rw [hverbs]
  refine ⟨hwords, hnodup, fun hv => ?_, by simp, fun hv => ?_, hheard⟩
  · exact h.asked (by simpa [hs.refusal_ne_ask.symm] using hv)
  · exact List.mem_append_left _ (h.acked (by simpa [hs.refusal_ne_ack.symm] using hv))

/-- It is refused for the first time, so that was not acknowledged before, and is now,
unless the acknowledgement is what was said last. -/
theorem hear_refusal (hothers : y.said = x.heard ++ refusal :: rest) :
    Opposed ask refusal ack
      { x with
        said := x.said ++ (respond role option refusal).verbs x.said
        heard := x.heard ++ [refusal] } y := by
  obtain ⟨-, hfirst, hheard⟩ := hback.heard_next hothers
  have hverbs : (respond role option refusal).verbs x.said = [] ∨
      (respond role option refusal).verbs x.said = [ack] := by
    rw [hs.refused, Response.verbs]
    split
    · exact .inl rfl
    · exact .inr rfl
  rcases hverbs with hverbs | hverbs <;> rw [hverbs]
  · rw [List.append_nil]
    exact ⟨h.words, h.nodup, h.asked, by simp [h.refused, hs.refusal_ne_ask.symm],
      fun _ => by simp, hheard⟩
  · obtain ⟨hwords, hnodup⟩ := h.concat (.inr (.inr rfl)) fun ha => hfirst (h.acked ha)
    refine ⟨hwords, hnodup, fun hv => ?_, ?_, fun _ => by simp, hheard⟩
    · exact h.asked (by simpa [hs.ack_ne.symm] using hv)
    · simp [h.refused, hs.refusal_ne_ack, hs.refusal_ne_ask.symm]

/-- A refusal is acknowledged.  It was said, and is the last of its side, so there is
nothing to say. -/
theorem hear_ack (hothers : y.said = x.heard ++ ack :: rest) :
    Opposed ask refusal ack
      { x with
        said := x.said ++ (respond role option ack).verbs x.said
        heard := x.heard ++ [ack] } y := by
  obtain ⟨hsaid, -, hheard⟩ := hback.heard_next hothers
  have hrefused : refusal ∈ x.said := hback.heard_isPrefix.subset (hback.acked hsaid)
  have hlast : last? refusal.side x.said = some refusal := by
    refine last?_eq_some hrefused fun v hv hside => ?_
    rcases h.words v hv with rfl | rfl | rfl
    · exact absurd hside.symm hs.side_ne
    · rfl
    · exact absurd (hside.symm.trans hs.side_eq) hs.side_ne
  have hverbs : (respond role option ack).verbs x.said = [] := by
    rw [hs.acked, Response.verbs, if_pos hlast]
  rw [hverbs, List.append_nil]
  refine ⟨h.words, h.nodup, h.asked, ?_, fun hv => List.mem_append_left _ (h.acked hv), hheard⟩
  simp [h.refused, hs.ack_ne.symm]

end Hear

theorem step (h : Opposed ask refusal ack x y) (hback : Opposed ask refusal ack y x)
    (hs : Standoff role option ask refusal ack) (hstep : x.Step role option y.said x') :
    Opposed ask refusal ack x' y := by
  cases hstep with
  | start hbegun => exact h.start hs hbegun
  | hear verb rest hothers =>
    rcases hback.words verb (by simp [hothers]) with rfl | rfl | rfl
    · exact h.hear_ask hback hs hothers
    · exact h.hear_refusal hback hs hothers
    · exact h.hear_ack hback hs hothers

theorem step_other (h : Opposed ask refusal ack x y) (hstep : y.Step role option x.said y') :
    Opposed ask refusal ack x y' :=
  { h with heard_isPrefix := h.heard_isPrefix.trans hstep.said_isPrefix }

end Opposed

/-! ### Every dialogue -/

namespace Dialogue

variable {role : End → Role} {terminal : End → Terminal} {d : Dialogue}

/-- An option that is not contested is negotiated in harmony. -/
theorem Arises.harmonious (h : Arises role terminal d) {byte : UInt8} {e : End}
    (hfree : ¬Contested (TelnetOption.ofByte byte).performer (role e) (role e.other)) :
    Harmonious (TelnetOption.ofByte byte) (role e) (role e.other) ((d e).stance byte)
      ((d e.other).stance byte) := by
  have hfrees (e' : End) :
      ¬Contested (TelnetOption.ofByte byte).performer (role e') (role e'.other) := by
    rcases e.eq_or_eq_other e' with rfl | rfl
    · exact hfree
    · rw [End.other_other]
      exact fun hback => hfree hback.symm
  refine h.stances (P := fun e => Harmonious (TelnetOption.ofByte byte) (role e) (role e.other))
    byte (fun _ => ⟨by simp, List.nodup_nil, by simp, by simp, List.prefix_rfl⟩) ?_ ?_ e
  · intro e x y x' hx hy hstep
    rw [End.other_other] at hy
    exact hx.step hy (hfrees e) hstep
  · exact fun e x y y' hx _ hstep => hx.step_other hstep

/-- An option that is contested is a standoff, in which the sides are opposed. -/
theorem Arises.opposed (h : Arises role terminal d) {byte : UInt8} {ask refusal ack : Verb}
    (hrole : ∀ e, role e = .server)
    (hs : Standoff .server (TelnetOption.ofByte byte) ask refusal ack) (e : End) :
    Opposed ask refusal ack ((d e).stance byte) ((d e.other).stance byte) := by
  refine h.stances (P := fun _ => Opposed ask refusal ack) byte
    (fun _ => ⟨by simp, List.nodup_nil, by simp, by simp, by simp, List.prefix_rfl⟩) ?_ ?_ e
  · intro e x y x' hx hy hstep
    rw [hrole e] at hstep
    exact hx.step hy hs hstep
  · exact fun e x y y' hx _ hstep => hx.step_other hstep

/-- **No side says the same verb about an option twice.** -/
theorem Arises.verbs_nodup (h : Arises role terminal d) (e : End) (byte : UInt8) :
    (verbs byte (d e).said).Nodup := by
  by_cases hc : Contested (TelnetOption.ofByte byte).performer (role e) (role e.other)
  · obtain ⟨hmine, hpeer, ask, refusal, ack, hs⟩ := hc.standoff
    have hrole (e' : End) : role e' = .server := by
      rcases e.eq_or_eq_other e' with rfl | rfl
      · exact hmine
      · exact hpeer
    exact (h.opposed hrole hs e).nodup
  · exact (h.harmonious hc).nodup

/-- Only options that are negotiated are spoken of. -/
theorem Arises.verbs_unknown (h : Arises role terminal d) (e : End) {byte : UInt8}
    (hbyte : (TelnetOption.ofByte byte).performer = .nobody) : verbs byte (d e).said = [] := by
  have hfree : ¬Contested (TelnetOption.ofByte byte).performer (role e) (role e.other) := by
    rw [hbyte]
    simp [Contested]
  have hwords := (h.harmonious hfree).words
  rw [hbyte] at hwords
  refine List.eq_nil_iff_forall_not_mem.2 fun verb hverb => ?_
  exact absurd (hwords verb hverb) (by simp [vocabulary])

end Dialogue

end Telnet
end RemoteTerminal
