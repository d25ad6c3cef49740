/-
# One option at a time

What two sides say of one option has nothing to do with the others, nor with windows or
terminal types.  So a dialogue is a family of small ones, one for each option's byte: a
side's `Stance` on an option is the verbs that it has said and heard about it, and what
it says next comes from that alone (`Stance.Step`).  The record of announcements is the
last verb of each kind (`foldl_enter`).

`Dialogue.Arises.stances` is the induction on the steps of one option.
-/

import Mathlib.Data.List.Basic
import RemoteTerminal.Proofs.Telnet.Dialogue

namespace RemoteTerminal
namespace Telnet

/-! ### Verbs -/

/-- The verb that an item says about the option of a byte. -/
def Item.verbAbout? (byte : UInt8) : Item → Option Verb
  | negotiation verb option => if option = byte then some verb else none
  | _ => none

/-- The verbs among some items that are about the option of a byte. -/
def verbs (byte : UInt8) (items : List Item) : List Verb := items.filterMap (Item.verbAbout? byte)

@[simp] theorem verbs_nil (byte : UInt8) : verbs byte [] = [] := rfl

@[simp] theorem verbs_append (byte : UInt8) (a b : List Item) :
    verbs byte (a ++ b) = verbs byte a ++ verbs byte b :=
  List.filterMap_append ..

theorem mem_verbs {byte : UInt8} {verb : Verb} {items : List Item} :
    verb ∈ verbs byte items ↔ .negotiation verb byte ∈ items := by
  refine List.mem_filterMap.trans ⟨?_, fun h => ⟨_, h, if_pos rfl⟩⟩
  rintro ⟨item, hitem, hverb⟩
  cases item with
  | negotiation verb' option =>
    obtain ⟨rfl, rfl⟩ := Option.ite_some_none_eq_some.1 hverb
    exact hitem
  | data | literal | command | subnegotiation => cases hverb

theorem verbs_negotiation (byte : UInt8) (verb : Verb) (option : UInt8) :
    verbs byte [.negotiation verb option] = if option = byte then [verb] else [] := by
  unfold verbs
  by_cases h : option = byte <;> simp [Item.verbAbout?, h]

theorem verbs_saying (byte : UInt8) (verb : Verb) (option : TelnetOption) :
    verbs byte [.saying verb option] = if option.toByte = byte then [verb] else [] :=
  verbs_negotiation byte verb option.toByte

/-- The last of some verbs that is about a side. -/
def last? (side : Side) (said : List Verb) : Option Verb :=
  said.reverse.find? fun verb => verb.side = side

theorem last?_append (side : Side) (a b : List Verb) :
    last? side (a ++ b) = (last? side b).or (last? side a) := by
  simp [last?, List.find?_append]

theorem mem_of_last?_eq_some {side : Side} {verb : Verb} {said : List Verb}
    (h : last? side said = some verb) : verb ∈ said :=
  List.mem_reverse.1 (List.mem_of_find?_eq_some h)

/-- A verb that no other of its side was said beside is the last one of its side. -/
theorem last?_eq_some {verb : Verb} {said : List Verb} (h : verb ∈ said)
    (honly : ∀ v ∈ said, v.side = verb.side → v = verb) : last? verb.side said = some verb := by
  cases hlast : last? verb.side said with
  | none =>
    have hnone := List.find?_eq_none.1 hlast verb (List.mem_reverse.2 h)
    simp at hnone
  | some v =>
    have hside := List.find?_some hlast
    rw [honly v (mem_of_last?_eq_some hlast) (by simpa using hside)]

/-- One item enters its verb, if it has one. -/
theorem Announced.enter_eq (a : Announced) (item : Item) (side : Side) (byte : UInt8) :
    a.enter item side byte = (last? side (verbs byte [item])).or (a side byte) := by
  cases item with
  | negotiation verb option =>
    have henter : a.enter (.negotiation verb option) = a.say verb (TelnetOption.ofByte option) :=
      rfl
    by_cases habout : side = verb.side ∧ byte = (TelnetOption.ofByte option).toByte
    · obtain ⟨rfl, rfl⟩ := habout
      rw [henter, say_self]
      simp [verbs_negotiation, last?]
    · rw [henter, say_of_ne _ _ _ habout]
      have hnone : last? side (verbs byte [.negotiation verb option]) = Option.none := by
        rw [verbs_negotiation]
        split
        · rename_i hbyte
          have hside : ¬verb.side = side := fun hside => habout ⟨hside.symm, by simp [hbyte]⟩
          simp [last?, hside]
        · rfl
      rw [hnone, Option.none_or]
  | data | literal | command | subnegotiation => rfl

/-- The record of announcements is the last verb about each side. -/
theorem foldl_enter (items : List Item) (a : Announced) (side : Side) (byte : UInt8) :
    items.foldl Announced.enter a side byte = (last? side (verbs byte items)).or (a side byte) := by
  induction items generalizing a with
  | nil => rfl
  | cons item rest ih =>
    have hcons : verbs byte (item :: rest) = verbs byte [item] ++ verbs byte rest :=
      verbs_append byte [item] rest
    rw [List.foldl_cons, ih, Announced.enter_eq, hcons, last?_append, Option.or_assoc]

/-! ### What operations say of one option -/

/-- What a side asks for at the beginning about an option. -/
def requests (role : Role) (option : TelnetOption) : List Verb :=
  (initialRequests role).filterMap fun request =>
    if request.2 = option then some request.1 else none

/-- The verbs of a response, after what was said. -/
def Response.verbs (said : List Verb) : Response → List Verb
  | ignore => []
  | refuse verb => [verb]
  | agree _ verb _ => if last? verb.side said = some verb then [] else [verb]

/-- An option that is asked for is the option of its byte. -/
theorem toByte_eq_iff {role : Role} {request : Verb × TelnetOption}
    (h : request ∈ initialRequests role) (byte : UInt8) :
    request.2.toByte = byte ↔ request.2 = TelnetOption.ofByte byte := by
  have hknown : ∀ request ∈ initialRequests role,
      TelnetOption.ofByte request.2.toByte = request.2 := by
    cases role <;> decide
  refine ⟨?_, ?_⟩
  · rintro rfl
    exact (hknown request h).symm
  · intro hoption
    rw [hoption, TelnetOption.toByte_ofByte]

theorem verbs_unsaid (byte : UInt8) (a : Announced) (verb : Verb) (option : TelnetOption) :
    verbs byte (a.unsaid verb option) =
      if option.toByte = byte ∧ a verb.side byte ≠ some verb then [verb] else [] := by
  unfold Announced.unsaid Announced.repeats
  by_cases hbyte : option.toByte = byte
  · subst hbyte
    by_cases hlast : a verb.side option.toByte = some verb <;> simp [hlast, verbs_saying]
  · split <;> simp [hbyte, verbs_saying]

/-- Of several verbs about different things those are said that were not the last. -/
theorem verbs_unsaidAll (byte : UInt8) (list : List (Verb × TelnetOption))
    (hlist : list.Pairwise fun p q => ¬(p.1.side = q.1.side ∧ p.2.toByte = q.2.toByte))
    (a : Announced) :
    verbs byte (a.unsaidAll list) =
      (list.filterMap fun request =>
        if request.2.toByte = byte then some request.1 else none).filter
          fun verb => a verb.side byte ≠ some verb := by
  induction list generalizing a with
  | nil => rfl
  | cons request rest ih =>
    obtain ⟨verb, option⟩ := request
    obtain ⟨hfirst, hrest⟩ := List.pairwise_cons.1 hlist
    -- What is said of the first request does not bear on the others.
    have hsame : ∀ v ∈ rest.filterMap fun request =>
        if request.2.toByte = byte then some request.1 else none,
        ((a.unsaid verb option).foldl Announced.enter a) v.side byte = a v.side byte := by
      intro v hv
      obtain ⟨request, hrequest, hsome⟩ := List.mem_filterMap.1 hv
      obtain ⟨hbyte, rfl⟩ := Option.ite_some_none_eq_some.1 hsome
      have hother := hfirst request hrequest
      rw [foldl_enter, verbs_unsaid]
      split
      · rename_i h
        have hside : ¬verb.side = request.1.side := fun hs => hother ⟨hs, h.1.trans hbyte.symm⟩
        simp [last?, hside]
      · rfl
    have hmore : verbs byte (((a.unsaid verb option).foldl Announced.enter a).unsaidAll rest) = _ :=
      (ih hrest _).trans (List.filter_congr fun v hv => by rw [hsame v hv])
    unfold Announced.unsaidAll
    rw [verbs_append, verbs_unsaid, hmore, List.filterMap_cons]
    by_cases hbyte : option.toByte = byte
    · by_cases hlast : a verb.side byte = some verb <;> simp [hbyte, hlast]
    · simp [hbyte]

/-- What a side says of an option when it starts. -/
theorem verbs_start (byte : UInt8) (role : Role) (a : Announced) :
    verbs byte (a.unsaidAll (initialRequests role)) =
      (requests role (TelnetOption.ofByte byte)).filter
        fun verb => a verb.side byte ≠ some verb := by
  have hslots : (initialRequests role).Pairwise fun p q =>
      ¬(p.1.side = q.1.side ∧ p.2.toByte = q.2.toByte) := by
    cases role <;> decide
  rw [verbs_unsaidAll byte _ hslots, requests]
  congr 1
  refine List.filterMap_congr fun request h => ?_
  simp only [toByte_eq_iff h byte]

theorem verbs_followUp (byte : UInt8) (window : WindowSize) (next : FollowUp) :
    verbs byte (next.items window) = [] := by
  cases next <;> rfl

theorem verbs_windowNews (byte : UInt8) (window : WindowSize) (c : Codec) :
    verbs byte (c.windowNews window) = [] := by
  unfold Codec.windowNews
  split <;> rfl

/-- What a side says of an option to an item: the response, if the item is about it. -/
theorem verbs_answersTo (byte : UInt8) (item : Item) (c : Codec) {said : List Verb}
    (hsaid : ∀ side, c.announced side byte = last? side said) :
    verbs byte (c.answersTo item) =
      match item.verbAbout? byte with
      | none => []
      | some verb => (respond c.role (TelnetOption.ofByte byte) verb).verbs said := by
  cases item with
  | data | literal | command => rfl
  | subnegotiation body =>
    show verbs byte (c.replyTo _) = []
    unfold Codec.replyTo
    split
    · rfl
    · split
      · split
        · cases TelnetOption.ofByte _ <;> rfl
        · rfl
      · rfl
  | negotiation verb option =>
    show verbs byte (c.answers verb (TelnetOption.ofByte option)) = _
    have hmore (comesOn : Bool) (next : FollowUp) :
        verbs byte (if comesOn then next.items c.terminal.window else []) = [] := by
      split
      · exact verbs_followUp ..
      · rfl
    unfold Codec.answers Item.verbAbout?
    by_cases hbyte : option = byte
    · subst hbyte
      simp only [if_true]
      cases respond c.role (TelnetOption.ofByte option) verb with
      | ignore => rfl
      | refuse answer => simp [verbs_saying, Response.verbs]
      | agree on answer next =>
        dsimp only
        rw [verbs_append, hmore, List.append_nil, verbs_unsaid, hsaid]
        by_cases hlast : last? answer.side said = some answer <;> simp [hlast, Response.verbs]
    · simp only [hbyte, if_false]
      cases respond c.role (TelnetOption.ofByte option) verb with
      | ignore => rfl
      | refuse answer => simp [verbs_saying, hbyte]
      | agree on answer next =>
        dsimp only
        rw [verbs_append, hmore, List.append_nil, verbs_unsaid]
        simp [hbyte]

/-! ### Stances -/

/-- What a side has said and heard of one option. -/
structure Stance where
  said : List Verb := []
  heard : List Verb := []
  begun : Bool := false
  deriving DecidableEq, Repr

/-- What a side says of an option next, given all that the other has said of it. -/
inductive Stance.Step (role : Role) (option : TelnetOption) (others : List Verb) (s : Stance) :
    Stance → Prop where
  | start (h : s.begun = false) : Step role option others s
      { s with
        said := s.said ++
          (requests role option).filter fun verb => last? verb.side s.said ≠ some verb
        begun := true }
  | hear (verb : Verb) (rest : List Verb) (h : others = s.heard ++ verb :: rest) :
    Step role option others s
      { s with
        said := s.said ++ (respond role option verb).verbs s.said
        heard := s.heard ++ [verb] }

theorem Stance.Step.said_isPrefix {role : Role} {option : TelnetOption} {others : List Verb}
    {s s' : Stance} (h : s.Step role option others s') : s.said <+: s'.said := by
  cases h <;> exact List.prefix_append ..

/-- A side's stance on the option of a byte. -/
def Speaker.stance (byte : UInt8) (s : Speaker) : Stance :=
  ⟨verbs byte s.said, verbs byte s.heard, s.begun⟩

namespace Dialogue

variable {role : End → Role} {terminal : End → Terminal} {d : Dialogue}

/-- The record of a side's announcements about an option. -/
theorem Regular.announced_byte {role : Role} {terminal : Terminal} {x y : Speaker}
    (h : Regular role terminal x y) (side : Side) (byte : UInt8) :
    x.codec.announced side byte = last? side (verbs byte x.said) := by
  rw [h.announced_eq, foldl_enter]
  exact Option.or_none

/-- **A step of a side is a step of its stance on an option, or none.** -/
theorem Regular.stance_step {role : Role} {terminal : Terminal} {x x' y : Speaker}
    (h : Regular role terminal x y) (hstep : x.Step y.said x') (byte : UInt8) :
    x'.stance byte = x.stance byte ∨
      Stance.Step role (TelnetOption.ofByte byte) (y.stance byte).said (x.stance byte)
        (x'.stance byte) := by
  have hlast := fun side => h.announced_byte side byte
  have hsay (items : List Item) (s : Speaker) :
      (s.say items).stance byte =
        { s.stance byte with said := (s.stance byte).said ++ verbs byte items } := by
    unfold Speaker.stance
    rw [← verbs_append]
    rfl
  cases hstep with
  | start hbegun =>
    have hstart : x.start.stance byte =
        { (x.say (x.codec.announced.unsaidAll (initialRequests x.codec.role))).stance byte with
          begun := true } := rfl
    rw [hstart, hsay, verbs_start, h.role_eq]
    simp only [hlast]
    exact .inr (.start hbegun)
  | resize window =>
    left
    rw [Speaker.resize, hsay, verbs_windowNews, List.append_nil]
    rfl
  | hear item rest hothers =>
    have hverbs :
        verbs byte y.said = verbs byte x.heard ++ (verbs byte [item] ++ verbs byte rest) := by
      rw [hothers, verbs_append, ← verbs_append byte [item] rest]
      rfl
    have hnote : (x.learn item).stance byte =
        { x.stance byte with heard := (x.stance byte).heard ++ verbs byte [item] } := by
      unfold Speaker.stance
      rw [← verbs_append]
      rfl
    rw [Speaker.hear, hsay, hnote, verbs_answersTo byte item x.codec hlast, h.role_eq]
    cases hverb : item.verbAbout? byte with
    | none =>
      have hone : verbs byte [item] = [] := List.filterMap_cons_none hverb
      left
      rw [hone]
      simp
    | some verb =>
      have hone : verbs byte [item] = [verb] := List.filterMap_cons_some hverb
      rw [hone] at hverbs ⊢
      exact .inr (.hear verb _ hverbs)

/-- **Induction on the steps about one option.**  What is so of both stances before the
first words, and stays so when either changes, is always so. -/
theorem Arises.stances {P : End → Stance → Stance → Prop} (h : Arises role terminal d)
    (byte : UInt8) (hfresh : ∀ e, P e {} {})
    (hown : ∀ e x y x', P e x y → P e.other y x →
      Stance.Step (role e) (TelnetOption.ofByte byte) y.said x x' → P e x' y)
    (hother : ∀ e x y y', P e x y → P e.other y x →
      Stance.Step (role e.other) (TelnetOption.ofByte byte) x.said y y' → P e x y') (e : End) :
    P e ((d e).stance byte) ((d e.other).stance byte) := by
  refine h.invariant (P := fun e x y => P e (x.stance byte) (y.stance byte)) hfresh ?_ ?_ e
  · intro e d x hd hx hy hstep
    rcases (hd.regular e).stance_step hstep byte with hsame | hstance
    · rwa [hsame]
    · exact hown e _ _ _ hx hy hstance
  · intro e d y hd hx hy hstep
    have hregular := hd.regular e.other
    rw [End.other_other] at hregular
    rcases hregular.stance_step hstep byte with hsame | hstance
    · rwa [hsame]
    · exact hother e _ _ _ hx hy hstance

end Dialogue
end Telnet
end RemoteTerminal
