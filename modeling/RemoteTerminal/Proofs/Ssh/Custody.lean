/-
# What becomes of the channels of an SSH library

A channel is offered together with somebody who judges host keys.  `Offer.Stay` says all
that may happen to one that is offered: its key is judged, once; if it is rejected the
channel is closed and nothing else is asked of it; if it is trusted the channel may be
used, and then closed, and nothing is asked of it after that.

`Custody` says that a trail consists of the stays of some offers, one after the other, of
which only the last may go on.
-/

import RemoteTerminal.Ssh.Adapter

namespace RemoteTerminal
namespace Ssh

/-- What was asked of a channel while it went from one state to another: to read, to write
and to take a size.  The answers are the channel's own. -/
inductive Channel.Uses (c : Channel) : List Event → Channel → Prop
  | nil : Uses c [] c
  | read {events : List Event} {c' : Channel} (h : Uses c events c') (room : Nat) :
      Uses c (events ++ [.read room (c'.read room).1]) (c'.read room).2
  | write {events : List Event} {c' : Channel} (h : Uses c events c') (offered : Bytes) :
      Uses c (events ++ [.write offered (c'.write offered).1]) (c'.write offered).2
  | resize {events : List Event} {c' : Channel} (h : Uses c events c')
      (lines columns : UInt16) :
      Uses c (events ++ [.resize lines columns c'.resize.1]) c'.resize.2

theorem Channel.Uses.trans {c c' c'' : Channel} {events events' : List Event}
    (h : c.Uses events c') (h' : c'.Uses events' c'') : c.Uses (events ++ events') c'' := by
  induction h' with
  | nil => rwa [List.append_nil]
  | read _ room ih =>
    rw [← List.append_assoc]
    exact ih.read room
  | write _ offered ih =>
    rw [← List.append_assoc]
    exact ih.write offered
  | resize _ lines columns ih =>
    rw [← List.append_assoc]
    exact ih.resize lines columns

/-! ### Offers -/

/-- A channel that is offered, for a host, with somebody who judges its key. -/
structure Offer where
  host : String
  channel : Channel
  trusts : String → HostKey → Bool

namespace Offer

/-- The judgement. -/
def trusted (o : Offer) : Bool := o.trusts o.host o.channel.hostKey

/-- The question and its answer. -/
def question (o : Offer) : Event := .trust o.host o.channel.hostKey o.trusted

theorem question_of_answer {o : Offer} {answer : Bool} (h : o.trusted = answer) :
    o.question = .trust o.host o.channel.hostKey answer := by
  rw [question, h]

/-- What may happen to an offer, and the channel that is in use then, if one is. -/
inductive Stay (o : Offer) : List Event → Option Channel → Prop
  /-- The key is rejected. -/
  | rejected (h : o.trusted = false) : Stay o [o.question, .close] none
  /-- The channel is in use. -/
  | used {events : List Event} {c : Channel} (h : o.trusted = true)
      (hu : o.channel.Uses events c) : Stay o (o.question :: events) (some c)
  /-- The channel was used and is closed. -/
  | closed {events : List Event} {c : Channel} (h : o.trusted = true)
      (hu : o.channel.Uses events c) : Stay o (o.question :: events ++ [.close]) none

variable {o : Offer} {events events' : List Event} {c c' : Channel}

theorem Stay.use (h : o.Stay events (some c)) (hu : c.Uses events' c') :
    o.Stay (events ++ events') (some c') := by
  cases h with
  | used ht hbefore => exact .used ht (hbefore.trans hu)

theorem Stay.close (h : o.Stay events (some c)) : o.Stay (events ++ [.close]) none := by
  cases h with
  | used ht hbefore => exact .closed ht hbefore

end Offer

/-- The trail of offers that were made one after the other, each when the one before was
over; and the channel that is in use at the end, if the last is not over. -/
inductive Custody : List Offer → List Event → Option Channel → Prop
  | nil : Custody [] [] none
  | next {offers : List Offer} {trail events : List Event} {o : Offer}
      {current : Option Channel} (h : Custody offers trail none) (hs : o.Stay events current) :
      Custody (offers ++ [o]) (trail ++ events) current

namespace Custody

variable {offers : List Offer} {trail events : List Event} {c c' : Channel}

/-- The channel that is in use is used. -/
theorem use (h : Custody offers trail (some c)) (hu : c.Uses events c') :
    Custody offers (trail ++ events) (some c') := by
  cases h with
  | next hbefore hs =>
    rw [List.append_assoc]
    exact hbefore.next (hs.use hu)

/-- It is closed. -/
theorem close (h : Custody offers trail (some c)) : Custody offers (trail ++ [.close]) none := by
  cases h with
  | next hbefore hs =>
    rw [List.append_assoc]
    exact hbefore.next hs.close

end Custody

/-! ### Questions and closes -/

/-- Whether somebody is asked to judge a key. -/
def Event.isTrust : Event → Bool
  | .trust .. => true
  | _ => false

/-- Whether a channel is closed. -/
def Event.isClose : Event → Bool
  | .close => true
  | _ => false

/-- Using a channel is neither. -/
theorem Channel.Uses.filter_eq_nil {c c' : Channel} {events : List Event}
    (h : c.Uses events c') :
    events.filter Event.isTrust = [] ∧ events.filter Event.isClose = [] := by
  induction h with
  | nil => exact ⟨rfl, rfl⟩
  | read _ room ih => simp [ih, Event.isTrust, Event.isClose]
  | write _ offered ih => simp [ih, Event.isTrust, Event.isClose]
  | resize _ lines columns ih => simp [ih, Event.isTrust, Event.isClose]

theorem Offer.Stay.filter_isTrust {o : Offer} {events : List Event} {current : Option Channel}
    (h : o.Stay events current) : events.filter Event.isTrust = [o.question] := by
  cases h with
  | rejected => rfl
  | used _ hu => rw [List.filter_cons_of_pos rfl, hu.filter_eq_nil.1]
  | closed _ hu =>
    rw [List.filter_append, List.filter_cons_of_pos rfl, hu.filter_eq_nil.1]
    rfl

theorem Offer.Stay.filter_isClose {o : Offer} {events : List Event}
    (h : o.Stay events none) : events.filter Event.isClose = [.close] := by
  cases h with
  | rejected => rfl
  | closed _ hu =>
    rw [List.filter_append, List.filter_cons_of_neg (by simp [Event.isClose, Offer.question]),
      hu.filter_eq_nil.2]
    rfl

namespace Custody

variable {offers : List Offer} {trail : List Event}

/-- **Every offer's key is judged once**, in order, and no other is. -/
theorem filter_isTrust {current : Option Channel} (h : Custody offers trail current) :
    trail.filter Event.isTrust = offers.map Offer.question := by
  induction h with
  | nil => rfl
  | next _ hs ih =>
    rw [List.filter_append, ih, hs.filter_isTrust, List.map_append]
    rfl

/-- **Every channel is closed once**, when none is in use. -/
theorem length_filter_isClose {current : Option Channel} (h : Custody offers trail current) :
    current = none → (trail.filter Event.isClose).length = offers.length := by
  induction h with
  | nil => exact fun _ => rfl
  | next _ hs ih =>
    rintro rfl
    rw [List.filter_append, List.length_append, ih rfl, hs.filter_isClose, List.length_append]
    rfl

end Custody

/-! ### The adapter -/

namespace Adapter

/-- An adapter has used its channel, and has not closed it. -/
structure Used (a : Adapter) (r : Record) (a' : Adapter) (r' : Record) : Prop where
  uses : ∃ events, r'.trail = r.trail ++ events ∧ a.channel.Uses events a'.channel
  closed_eq : a'.closed = a.closed

/-- Nothing was asked of the channel. -/
theorem Used.of_eq {a a' : Adapter} {r r' : Record} (ht : r'.trail = r.trail)
    (hc : a'.channel = a.channel) (hclosed : a'.closed = a.closed) : Used a r a' r' :=
  ⟨⟨[], by rw [ht, List.append_nil], hc ▸ .nil⟩, hclosed⟩

@[simp] theorem trail_failure (f : ChannelFault) (a : Adapter) (r : Record) :
    (a.failure f r).2.trail = r.trail := by
  cases f <;> rfl

theorem read_used (room : Nat) (a : Adapter) (r : Record) :
    Used a r (a.read room r).2.1 (a.read room r).2.2 := by
  have hread : a.channel.Uses [.read room (a.channel.read room).1] (a.channel.read room).2 :=
    .read .nil room
  unfold read
  split
  · exact .of_eq rfl rfl rfl
  · split
    · exact .of_eq rfl rfl rfl
    · exact .of_eq rfl rfl rfl
    all_goals
      dsimp only
      split
      · exact ⟨⟨_, rfl, hread⟩, rfl⟩
      · exact ⟨⟨_, rfl, hread⟩, rfl⟩
      · exact ⟨⟨_, rfl, hread⟩, rfl⟩
      · exact ⟨⟨_, trail_failure .., hread⟩, rfl⟩

theorem write_used (data : Bytes) (a : Adapter) (r : Record) :
    Used a r (a.write data r).2.1 (a.write data r).2.2 := by
  have hwrite : a.channel.Uses [.write data (a.channel.write data).1] (a.channel.write data).2 :=
    .write .nil data
  unfold write
  split
  · exact .of_eq rfl rfl rfl
  · dsimp only
    split
    · exact ⟨⟨_, rfl, hwrite⟩, rfl⟩
    · exact ⟨⟨_, trail_failure .., hwrite⟩, rfl⟩

theorem resize_used (lines columns : UInt16) (a : Adapter) (r : Record) :
    Used a r (a.resize lines columns r).2.1 (a.resize lines columns r).2.2 := by
  have hresize : a.channel.Uses [.resize lines columns a.channel.resize.1] a.channel.resize.2 :=
    .resize .nil lines columns
  unfold resize
  dsimp only
  split
  · exact ⟨⟨_, rfl, hresize⟩, rfl⟩
  · exact ⟨⟨_, trail_failure .., hresize⟩, rfl⟩

/-- Closing a channel that is not closed is one event. -/
theorem trail_close {a : Adapter} (h : a.closed = false) (r : Record) :
    (a.close r).2.trail = r.trail ++ [.close] := by
  unfold close
  rw [h]
  rfl

end Adapter
end Ssh
end RemoteTerminal
