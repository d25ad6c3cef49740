/-
# Two sides in dialogue

Two codecs face each other, and each hears what the other says, in order.  Here they
exchange whole items, and payload is left out: it means nothing to either of them.
A `Speaker` is one side with all that it has said and heard so far.  It does one of
three things (`Speaker.Step`): it starts, its window is changed, or it hears the next
item of what the other has said.

`Dialogue.Arises` are the states that come of any such steps of both sides in any order.
There is no schedule in it and nothing in flight: what has been said and not heard is
what is on its way.  `Dialogue.Arises.invariant` is the induction on the steps.
-/

import RemoteTerminal.Proofs.Telnet.Items
import RemoteTerminal.Telnet.Duplex

namespace RemoteTerminal
namespace Telnet

/-! ### Ends -/

namespace End

@[simp] theorem other_other (e : End) : e.other.other = e := by cases e <;> rfl

@[simp] theorem other_ne (e : End) : e.other ≠ e := by cases e <;> decide

@[simp] theorem ne_other (e : End) : e ≠ e.other := by cases e <;> decide

theorem eq_or_eq_other (e e' : End) : e' = e ∨ e' = e.other := by
  cases e <;> cases e' <;> simp [other]

/-- One of the two is another. -/
def assign {α : Type} (e : End) (x : α) (f : End → α) : End → α :=
  fun e' => if e' = e then x else f e'

@[simp] theorem assign_self {α : Type} (e : End) (x : α) (f : End → α) : e.assign x f e = x :=
  if_pos rfl

@[simp] theorem assign_other {α : Type} (e : End) (x : α) (f : End → α) :
    e.assign x f e.other = f e.other :=
  if_neg e.other_ne

@[simp] theorem other_assign {α : Type} (e : End) (x : α) (f : End → α) :
    e.other.assign x f e = f e :=
  if_neg e.ne_other

@[simp] theorem assign_eq_self {α : Type} (e : End) (f : End → α) : e.assign (f e) f = f := by
  funext e'
  rcases e.eq_or_eq_other e' with rfl | rfl
  · exact assign_self ..
  · exact assign_other ..

@[simp] theorem assign_assign {α : Type} (e : End) (x y : α) (f : End → α) :
    e.assign y (e.assign x f) = e.assign y f := by
  funext e'
  rcases e.eq_or_eq_other e' with rfl | rfl
  · rw [assign_self, assign_self]
  · simp only [assign_other]

end End

/-! ### One side -/

namespace Codec

/-- A codec apart from its decoder's place and from its replies. -/
def core (c : Codec) : Codec := { c.settled with replies := [] }

theorem core_learn (item : Item) (c : Codec) : c.core.learn item = (c.learn item).core := by
  cases item with
  | subnegotiation body =>
    exact note_comm core (fun _ => rfl) (fun _ _ => rfl) (fun _ _ => rfl) _ c
  | data | literal | command | negotiation => rfl

theorem core_answersTo (item : Item) (c : Codec) : c.core.answersTo item = c.answersTo item := by
  cases item <;> rfl

end Codec

/-- One side of a dialogue. -/
structure Speaker where
  /-- Its codec, apart from the replies. -/
  codec : Codec
  begun : Bool := false
  /-- All that it has said. -/
  said : List Item := []
  /-- All that it has heard. -/
  heard : List Item := []
  /-- How often its window was changed. -/
  resized : Nat := 0

namespace Speaker

/-- Say some items. -/
def say (items : List Item) (s : Speaker) : Speaker :=
  { s with codec := (s.codec.tell items).core, said := s.said ++ items }

/-- Say what is asked for at the beginning. -/
def start (s : Speaker) : Speaker :=
  { s.say (s.codec.announced.unsaidAll (initialRequests s.codec.role)) with begun := true }

/-- Take over a new window. -/
def adopt (window : WindowSize) (s : Speaker) : Speaker :=
  { s with
    codec := { s.codec with terminal := { s.codec.terminal with window } }
    resized := s.resized + 1 }

/-- Change the window, and say so if that is called for. -/
def resize (window : WindowSize) (s : Speaker) : Speaker :=
  (s.adopt window).say (s.codec.windowNews window)

/-- Take note of an item. -/
def learn (item : Item) (s : Speaker) : Speaker :=
  { s with codec := s.codec.learn item, heard := s.heard ++ [item] }

/-- Hear an item, and answer it. -/
def hear (item : Item) (s : Speaker) : Speaker := (s.learn item).say (s.codec.answersTo item)

/-- What a side does next, given all that the other has said. -/
inductive Step (others : List Item) (s : Speaker) : Speaker → Prop where
  | start (h : s.begun = false) : Step others s s.start
  | resize (window : WindowSize) : Step others s (s.resize window)
  | hear (item : Item) (rest : List Item) (h : others = s.heard ++ item :: rest) :
    Step others s (s.hear item)

variable {others : List Item} {s s' : Speaker}

theorem Step.said_isPrefix (h : Step others s s') : s.said <+: s'.said := by
  cases h <;> exact List.prefix_append ..

end Speaker

/-! ### Both sides -/

/-- The two sides of a dialogue. -/
abbrev Dialogue := End → Speaker

namespace Dialogue

variable {role : End → Role} {terminal : End → Terminal} {d : Dialogue}

/-- Before the first words. -/
def fresh (role : End → Role) (terminal : End → Terminal) : Dialogue :=
  fun e => { codec := { role := role e, terminal := terminal e } }

/-- What comes of any steps of both sides. -/
inductive Arises (role : End → Role) (terminal : End → Terminal) : Dialogue → Prop where
  | fresh : Arises role terminal (fresh role terminal)
  | step {d : Dialogue} (e : End) {s : Speaker} (h : Arises role terminal d)
    (hs : (d e).Step (d e.other).said s) : Arises role terminal (e.assign s d)

/-- **Induction on the steps of a dialogue.**  What is so of each side and the other
before the first words, and stays so when either of them takes a step, is always so. -/
theorem Arises.invariant {P : End → Speaker → Speaker → Prop} (h : Arises role terminal d)
    (hfresh : ∀ e, P e (Dialogue.fresh role terminal e) (Dialogue.fresh role terminal e.other))
    (hown : ∀ e d x, Arises role terminal d → P e (d e) (d e.other) → P e.other (d e.other) (d e) →
      (d e).Step (d e.other).said x → P e x (d e.other))
    (hother : ∀ e d y, Arises role terminal d → P e (d e) (d e.other) →
      P e.other (d e.other) (d e) → (d e.other).Step (d e).said y → P e (d e) y) (e : End) :
    P e (d e) (d e.other) := by
  induction h generalizing e with
  | fresh => exact hfresh e
  | @step d e' s hd hs ih =>
    have hback := ih e'.other
    rw [End.other_other] at hback
    rcases e'.eq_or_eq_other e with rfl | rfl
    · rw [End.assign_self, End.assign_other]
      exact hown e d s hd (ih e) hback hs
    · have hgo := hother e'.other d s hd
      rw [End.other_other] at hgo ⊢
      rw [End.assign_self, End.assign_other]
      exact hgo hback (ih e') hs

/-- What is so of a side and the other in every dialogue. -/
structure Regular (role : Role) (terminal : Terminal) (x y : Speaker) : Prop where
  role_eq : x.codec.role = role
  /-- Only the window of a terminal changes. -/
  terminal_eq : { x.codec.terminal with window := terminal.window } = terminal
  /-- The record of announcements is that of what was said. -/
  announced_eq : x.codec.announced = x.said.foldl Announced.enter .none
  /-- What a side hears is what the other said. -/
  heard_isPrefix : x.heard <+: y.said

theorem Regular.say {role : Role} {terminal : Terminal} {x y : Speaker}
    (h : Regular role terminal x y) (items : List Item) :
    Regular role terminal (x.say items) y where
  role_eq := h.role_eq
  terminal_eq := h.terminal_eq
  announced_eq := by
    show items.foldl Announced.enter x.codec.announced = (x.said ++ items).foldl _ _
    rw [h.announced_eq, List.foldl_append]
  heard_isPrefix := h.heard_isPrefix

/-- A side stays regular whatever it does. -/
theorem Regular.step {role : Role} {terminal : Terminal} {x x' y : Speaker}
    (h : Regular role terminal x y) (hstep : x.Step y.said x') : Regular role terminal x' y := by
  cases hstep with
  | start => exact { h.say _ with }
  | resize window =>
    have hadopt : Regular role terminal (x.adopt window) y := { h with }
    exact hadopt.say _
  | hear item rest hothers =>
    have hlearn := x.codec.learn_eq item
    have hnote : Regular role terminal (x.learn item) y := by
      refine ⟨?_, ?_, ?_, ?_⟩ <;> unfold Speaker.learn
      · rw [hlearn]
        exact h.role_eq
      · rw [hlearn]
        exact h.terminal_eq
      · rw [hlearn]
        exact h.announced_eq
      · exact ⟨rest, by rw [hothers, List.append_assoc, List.singleton_append]⟩
    exact hnote.say _

/-- A side stays regular whatever the other does. -/
theorem Regular.step_other {role : Role} {terminal : Terminal} {x y y' : Speaker}
    (h : Regular role terminal x y) (hstep : y.Step x.said y') : Regular role terminal x y' :=
  { h with heard_isPrefix := h.heard_isPrefix.trans hstep.said_isPrefix }

/-- **Every dialogue is regular.** -/
theorem Arises.regular (h : Arises role terminal d) (e : End) :
    Regular (role e) (terminal e) (d e) (d e.other) :=
  h.invariant (P := fun e => Regular (role e) (terminal e))
    (fun _ => ⟨rfl, rfl, rfl, List.prefix_rfl⟩) (fun _ _ _ _ hx _ hstep => hx.step hstep)
    (fun _ _ _ _ hx _ hstep => hx.step_other hstep) e

end Dialogue
end Telnet
end RemoteTerminal
