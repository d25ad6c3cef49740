/-
# Two codecs on two wires

Two codecs of any roles, each with a wire to the other.  A side may start, frame
payload, put its replies on the wire and change its window whenever it likes, and any
number of the bytes of a wire may reach the other side at any time (`Turn`).

However the turns fall, the two sides are in a dialogue of whole items
(`Encounter.exists_dialogue`): what is between them, in replies that have not been
taken, on the wire, or in part already with the receiver, is what one has said and the
other has not heard (`Link`).
-/

import RemoteTerminal.Proofs.Telnet.Dialogue
import RemoteTerminal.Proofs.Telnet.RoundTrip

namespace RemoteTerminal
namespace Telnet

/-- One side of an encounter. -/
structure Peer where
  codec : Codec
  begun : Bool := false
  /-- The bytes on their way to the other side, the oldest first. -/
  wire : Bytes := []
  /-- All bytes that were ever put on the wire. -/
  sent : Bytes := []
  /-- Those of them that were replies. -/
  replied : Bytes := []
  /-- How often the window was changed. -/
  resized : Nat := 0

namespace Peer

/-- Start, but only once. -/
def start (p : Peer) : Peer :=
  if p.begun then p else { p with codec := p.codec.start.2, begun := true }

/-- Put bytes on the wire. -/
def send (bytes : Bytes) (p : Peer) : Peer :=
  { p with wire := p.wire ++ bytes, sent := p.sent ++ bytes }

/-- Put the replies on the wire. -/
def carry (p : Peer) : Peer :=
  send p.codec.takeReplies.1
    { p with codec := p.codec.takeReplies.2, replied := p.replied ++ p.codec.takeReplies.1 }

/-- Put payload on the wire, framed in the mode that is in effect. -/
def say (data : Bytes) (p : Peer) : Peer := p.send (p.codec.encode data)

/-- Change the window. -/
def resize (window : WindowSize) (p : Peer) : Peer :=
  { p with codec := (p.codec.setWindow window).2.2, resized := p.resized + 1 }

/-- Lose the first bytes of the wire, which are delivered. -/
def lose (count : Nat) (p : Peer) : Peer := { p with wire := p.wire.drop count }

/-- Decode what is delivered. -/
def hear (bytes : Bytes) (p : Peer) : Peer := { p with codec := (p.codec.decode bytes).2 }

end Peer

/-- What can happen next. -/
inductive Turn where
  | start (e : End)
  | say (e : End) (data : Bytes)
  | resize (e : End) (window : WindowSize)
  | carry (e : End)
  /-- The first bytes of a side's wire reach the other side. -/
  | deliver (e : End) (count : Nat)
  deriving DecidableEq, Repr

/-- The two sides of an encounter. -/
abbrev Encounter := End → Peer

namespace Encounter

/-- Two codecs before they have done anything. -/
def fresh (role : End → Role) (terminal : End → Terminal) : Encounter :=
  fun e => { codec := { role := role e, terminal := terminal e } }

/-- Take a turn. -/
def play (c : Encounter) : Turn → Encounter
  | .start e => e.assign (c e).start c
  | .say e data => e.assign ((c e).say data) c
  | .resize e window => e.assign ((c e).resize window) c
  | .carry e => e.assign (c e).carry c
  | .deliver e count =>
    e.other.assign ((c e.other).hear ((c e).wire.take count)) (e.assign ((c e).lose count) c)

/-- Take turns in order. -/
def playAll (turns : List Turn) (c : Encounter) : Encounter := turns.foldl play c

/-- Nothing is on its way, and nothing waits to be. -/
def Quiet (c : Encounter) : Prop := ∀ e, (c e).wire = [] ∧ (c e).codec.replies = []

end Encounter

/-! ### Payload in items -/

/-- The items that are not payload. -/
def spoken (items : List Item) : List Item := items.filter fun item => item.datum?.isNone

@[simp] theorem spoken_append (a b : List Item) : spoken (a ++ b) = spoken a ++ spoken b :=
  List.filter_append ..

/-- The item that carries a byte of payload. -/
def Item.carrying (byte : UInt8) : Item := if h : byte = Code.iac then .literal else .data byte h

theorem spoken_map_carrying (data : Bytes) : spoken (data.map Item.carrying) = [] := by
  refine List.filter_eq_nil_iff.2 fun item hitem => ?_
  obtain ⟨byte, -, rfl⟩ := List.mem_map.1 hitem
  unfold Item.carrying
  split <;> simp [Item.datum?]

theorem encode_true_eq (data : Bytes) :
    encode true data = (data.map Item.carrying).flatMap Item.bytes := by
  induction data using units_induction true with
  | nil => rfl
  | escape rest ih =>
    rw [encode_escape, ih]
    rfl
  | newline hb rest ih => cases hb
  | bare hb rest hn ih => cases hb
  | plain byte rest hi hc ih =>
    have hitem : Item.carrying byte = .data byte hi := dif_neg hi
    rw [encode_plain rest hi hc, ih, List.map_cons, List.flatMap_cons, hitem]
    rfl

/-- Framed payload is items of payload. -/
theorem exists_items_encode (binary : Bool) (data : Bytes) :
    ∃ items : List Item, encode binary data = items.flatMap Item.bytes ∧ spoken items = [] := by
  cases binary with
  | true => exact ⟨_, encode_true_eq data, spoken_map_carrying data⟩
  | false =>
    exact ⟨_, (encode_false_eq data).trans (encode_true_eq _),
      spoken_map_carrying (fillReturns data)⟩

/-! ### What is said by itself is no payload -/

theorem spoken_unsaid (a : Announced) (verb : Verb) (option : TelnetOption) :
    spoken (a.unsaid verb option) = a.unsaid verb option := by
  unfold Announced.unsaid
  split <;> rfl

theorem spoken_unsaidAll (verbs : List (Verb × TelnetOption)) (a : Announced) :
    spoken (a.unsaidAll verbs) = a.unsaidAll verbs := by
  induction verbs generalizing a with
  | nil => rfl
  | cons pair rest ih =>
    obtain ⟨verb, option⟩ := pair
    unfold Announced.unsaidAll
    rw [spoken_append, spoken_unsaid, ih]

theorem spoken_followUp (window : WindowSize) (next : FollowUp) :
    spoken (next.items window) = next.items window := by
  cases next <;> rfl

theorem spoken_windowNews (window : WindowSize) (c : Codec) :
    spoken (c.windowNews window) = c.windowNews window := by
  unfold Codec.windowNews
  split <;> rfl

theorem spoken_answersTo (item : Item) (c : Codec) :
    spoken (c.answersTo item) = c.answersTo item := by
  cases item with
  | negotiation verb option =>
    show spoken (c.answers ..) = c.answers ..
    unfold Codec.answers
    cases respond c.role (TelnetOption.ofByte option) verb with
    | ignore | refuse => rfl
    | agree on answer next =>
      dsimp only
      rw [spoken_append, spoken_unsaid]
      split
      · rw [spoken_followUp]
      · rfl
  | subnegotiation body =>
    show spoken (c.replyTo _) = c.replyTo _
    unfold Codec.replyTo
    split
    · rfl
    · split
      · split
        · cases TelnetOption.ofByte _ <;> rfl
        · rfl
      · rfl
  | data | literal | command => rfl

/-! ### One direction -/

/-- What lies between what a side has said and what the other has heard of it.  Of the
items that it has put on the wire some were heard whole, and of the next one the
receiver has a part.  What it has to say and has not put there yet are items too. -/
def Link (sender receiver : Peer) (said heard : List Item) : Prop :=
  ∃ (done todo queued : List Item) (part : Bytes),
    sender.sent = (done ++ todo).flatMap Item.bytes ∧
      sender.replied = (spoken (done ++ todo)).flatMap Item.bytes ∧
      sender.codec.replies = queued.flatMap Item.bytes ∧
      spoken queued = queued ∧
      said = spoken (done ++ todo) ++ queued ∧
      heard = spoken done ∧
      part ++ sender.wire = todo.flatMap Item.bytes ∧
      Item.Begins part ∧
      ∃ pendingCr, (Place.between pendingCr).Quiet part receiver.codec.place

namespace Link

variable {sender sender' receiver receiver' : Peer} {said heard : List Item}

theorem fresh {sender receiver : Codec} (hreplies : sender.replies = [])
    (hplace : receiver.place = {}) : Link { codec := sender } { codec := receiver } [] [] :=
  ⟨[], [], [], [], rfl, rfl, hreplies, rfl, rfl, rfl, rfl, Item.begins_nil, false,
    hplace ▸ .nil _⟩

/-- What a receiver does with its own speech is nothing to the sender. -/
theorem receiver_speaks (h : Link sender receiver said heard)
    (hplace : receiver'.codec.place = receiver.codec.place) : Link sender receiver' said heard := by
  unfold Link
  rw [hplace]
  exact h

/-- What a sender has to say joins its replies. -/
theorem sender_speaks (h : Link sender receiver said heard) {items : List Item}
    (hitems : spoken items = items) (hwire : sender'.wire = sender.wire)
    (hsent : sender'.sent = sender.sent) (hreplied : sender'.replied = sender.replied)
    (hreplies : sender'.codec.replies = sender.codec.replies ++ items.flatMap Item.bytes) :
    Link sender' receiver (said ++ items) heard := by
  obtain ⟨done, todo, queued, part, hs, hrd, hr, hq, hsaid, hheard, hw, hplace⟩ := h
  refine ⟨done, todo, queued ++ items, part, hsent.trans hs, hreplied.trans hrd, ?_, ?_, ?_, hheard,
    hwire ▸ hw, hplace⟩
  · rw [hreplies, hr, List.flatMap_append]
  · rw [spoken_append, hq, hitems]
  · rw [hsaid, List.append_assoc]

/-- If nothing lies between them, the receiver has heard all. -/
theorem said_eq_heard (h : Link sender receiver said heard) (hwire : sender.wire = [])
    (hreplies : sender.codec.replies = []) : said = heard := by
  have hnil {items : List Item} (h : items.flatMap Item.bytes = []) : items = [] := by
    refine List.eq_nil_iff_forall_not_mem.2 fun item hitem => item.bytes_ne_nil ?_
    exact List.flatMap_eq_nil_iff.1 h item hitem
  obtain ⟨done, todo, queued, part, -, -, hqueued, -, hsaid, hheard, hpart, hbegins, -⟩ := h
  rw [hwire, List.append_nil] at hpart
  have htodo : todo = [] := by
    cases todo with
    | nil => rfl
    | cons item rest => exact absurd hpart (hbegins.ne_append item _)
  rw [hsaid, hheard, htodo, hnil (hqueued.symm.trans hreplies)]
  simp

/-- Replies reach the wire. -/
theorem carry (h : Link sender receiver said heard) : Link sender.carry receiver said heard := by
  obtain
    ⟨done, todo, queued, part, hsent, hreplied, hreplies, hq, hsaid, hheard, hwire, hplace⟩ := h
  have htaken : sender.codec.takeReplies.1 = queued.flatMap Item.bytes := hreplies
  refine ⟨done, todo ++ queued, [], part, ?_, ?_, rfl, rfl, ?_, hheard, ?_, hplace⟩
  · simp [Peer.carry, Peer.send, hsent, htaken]
  · simp [Peer.carry, Peer.send, hreplied, htaken, hq]
  · simp [hsaid, hq]
  · simp [Peer.carry, Peer.send, ← hwire, htaken]

/-- Payload reaches the wire. -/
theorem say (h : Link sender receiver said heard) (data : Bytes) :
    Link (sender.say data) receiver said heard := by
  obtain
    ⟨done, todo, queued, part, hsent, hreplied, hreplies, hq, hsaid, hheard, hwire, hplace⟩ := h
  obtain ⟨items, hitems, hnone⟩ := exists_items_encode sender.codec.flags.binaryMode data
  have hframed : sender.codec.encode data = items.flatMap Item.bytes := hitems
  refine ⟨done, todo ++ items, queued, part, ?_, ?_, hreplies, hq, ?_, hheard, ?_, hplace⟩
  · simp [Peer.say, Peer.send, hsent, hframed]
  · simp [Peer.say, Peer.send, hreplied, hnone]
  · simp [hsaid, hnone]
  · simp [Peer.say, Peer.send, ← hwire, hframed]

end Link

/-! ### Delivery -/

/-- What a codec in the middle of an item makes of bytes that complete it, and others,
and leave it in the middle of one more. -/
theorem Codec.decode_delivered {c : Codec} {pendingCr : Bool} {part bytes part' : Bytes}
    {done : List Item} (hquiet : (Place.between pendingCr).Quiet part c.place)
    (hsplit : part ++ bytes = done.flatMap Item.bytes ++ part') (hbegins : Item.Begins part') :
    ∃ pendingCr' p', (Place.between pendingCr').Quiet part' p' ∧
      (c.decode bytes).2 = (c.obeyAll done).standing p' := by
  have hpart : ((c.standing (.between pendingCr)).decode part).2 = c := (hquiet c).2
  have hnext := (takes_items done pendingCr c).2
  obtain ⟨p', hquiet', -⟩ := Place.quiet_begins hbegins (Return.run pendingCr (data done c)).2
  refine ⟨_, p', hquiet', ?_⟩
  calc (c.decode bytes).2
      = ((c.standing (.between pendingCr)).decode (part ++ bytes)).2 := by
        rw [Codec.decode_append, hpart]
    _ = (((c.obeyAll done).standing (.between _)).decode part').2 := by
        rw [hsplit, Codec.decode_append, hnext]
    _ = (c.obeyAll done).standing p' := (hquiet' _).2

/-- Bytes of the wire reach the receiver, which obeys what they complete. -/
theorem Link.deliver {sender receiver : Peer} {said heard : List Item}
    (h : Link sender receiver said heard) (count : Nat) :
    ∃ (items : List Item) (p : Place) (rest : List Item),
      (receiver.codec.decode (sender.wire.take count)).2 =
        (receiver.codec.obeyAll items).standing p ∧
      said = heard ++ (spoken items ++ rest) ∧
      ∀ receiver' : Peer, receiver'.codec.place = p →
        Link (sender.lose count) receiver' said (heard ++ spoken items) := by
  obtain ⟨done, todo, queued, part, hsent, hreplied, hreplies, hq, hsaid, hheard, hwire, hbegins,
    pendingCr, hquiet⟩ := h
  have hwhole : (part ++ sender.wire.take count) ++ sender.wire.drop count =
      todo.flatMap Item.bytes := by
    rw [List.append_assoc, List.take_append_drop, hwire]
  obtain ⟨done', todo', part', rfl, hfront, hback, hbegins'⟩ := exists_split hwhole
  obtain ⟨pendingCr', p', hquiet', hdecode⟩ := Codec.decode_delivered hquiet hfront hbegins'
  refine ⟨done', p', spoken todo' ++ queued, hdecode, ?_, fun receiver' hplace => ?_⟩
  · rw [hsaid, hheard]
    simp
  · rw [← List.append_assoc] at hsent hreplied hsaid
    exact ⟨done ++ done', todo', queued, part', hsent, hreplied, hreplies, hq, hsaid,
      by simp [hheard], hback, hbegins', pendingCr', hplace ▸ hquiet'⟩

namespace Speaker

/-- Hear several items. -/
def hearAll (items : List Item) (s : Speaker) : Speaker := items.foldl (fun s item => s.hear item) s

/-- Hearing adds to what was heard, and neither starts nor changes the window. -/
theorem hearAll_frame (items : List Item) (s : Speaker) :
    (s.hearAll items).heard = s.heard ++ items ∧ (s.hearAll items).begun = s.begun ∧
      (s.hearAll items).resized = s.resized := by
  induction items generalizing s with
  | nil => exact ⟨(List.append_nil _).symm, rfl, rfl⟩
  | cons item rest ih =>
    obtain ⟨hheard, hbegun, hresized⟩ := ih (s.hear item)
    exact ⟨hheard.trans (List.append_cons ..).symm, hbegun, hresized⟩

/-- A codec that obeys items says what a speaker says that hears them. -/
theorem hearAll_spoken (items : List Item) {c : Codec} {s : Speaker} (h : c.core = s.codec) :
    (c.obeyAll items).core = (s.hearAll (spoken items)).codec ∧
      ∃ new, spoken new = new ∧ (s.hearAll (spoken items)).said = s.said ++ new ∧
        (c.obeyAll items).replies = c.replies ++ new.flatMap Item.bytes := by
  induction items generalizing c s with
  | nil => exact ⟨h, [], rfl, (List.append_nil _).symm, (List.append_nil _).symm⟩
  | cons item rest ih =>
    cases hdatum : item.datum? with
    | some byte =>
      have hspoken : spoken (item :: rest) = spoken rest :=
        List.filter_cons_of_neg (by simp [hdatum])
      have hobey : c.obey item = c := by
        cases item with
        | data | literal => rfl
        | command | negotiation | subnegotiation => cases hdatum
      have hrest : c.obeyAll (item :: rest) = c.obeyAll rest := congrArg (Codec.obeyAll rest) hobey
      rw [hspoken, hrest]
      exact ih h
    | none =>
      have hspoken : spoken (item :: rest) = item :: spoken rest :=
        List.filter_cons_of_pos (by simp [hdatum])
      have hcore : (c.obey item).core = (s.hear item).codec := by
        rw [Codec.obey_eq, hear, learn, say, ← h, Codec.core_answersTo, Codec.core_learn]
        rfl
      have hreplies : (c.obey item).replies =
          c.replies ++ (s.codec.answersTo item).flatMap Item.bytes := by
        rw [Codec.obey_eq, ← h, Codec.core_answersTo, Codec.learn_eq]
        rfl
      obtain ⟨hlast, new, hnew, hsaid, hmore⟩ := ih hcore
      rw [hspoken]
      refine ⟨hlast, s.codec.answersTo item ++ new, ?_, ?_, ?_⟩
      · rw [spoken_append, spoken_answersTo, hnew]
      · exact hsaid.trans (List.append_assoc ..)
      · rw [List.flatMap_append, ← List.append_assoc, ← hreplies]
        exact hmore

end Speaker

/-- Hearing several items is a few steps of a dialogue. -/
theorem Dialogue.Arises.hearAll {role : End → Role} {terminal : End → Terminal} {d : Dialogue}
    (h : Arises role terminal d) (e : End) {items rest : List Item}
    (hsaid : (d e.other).said = (d e).heard ++ (items ++ rest)) :
    Arises role terminal (e.assign ((d e).hearAll items) d) := by
  induction items generalizing d with
  | nil => exact (e.assign_eq_self d).symm ▸ h
  | cons item more ih =>
    have hagain := ih (h.step e (.hear item (more ++ rest) hsaid)) (by
      rw [End.assign_self, End.assign_other, hsaid]
      exact List.append_cons ..)
    rwa [End.assign_self, End.assign_assign] at hagain

/-! ### Both directions -/

/-- A side of an encounter is that of a dialogue. -/
structure Peer.Shows (p : Peer) (s : Speaker) : Prop where
  core_eq : p.codec.core = s.codec
  begun_eq : p.begun = s.begun
  resized_eq : p.resized = s.resized

namespace Encounter

variable {role : End → Role} {terminal : End → Terminal} {d : Dialogue} {c : Encounter}

/-- An encounter is a dialogue with some of it under way. -/
def Shows (c : Encounter) (d : Dialogue) : Prop :=
  ∀ e, (c e).Shows (d e) ∧ Link (c e) (c e.other) (d e).said (d e.other).heard

theorem shows_fresh : (fresh role terminal).Shows (.fresh role terminal) :=
  fun _ => ⟨⟨rfl, rfl, rfl⟩, .fresh rfl rfl⟩

/-- One side may change if both of its directions stay linked. -/
theorem Shows.assign (h : c.Shows d) {e : End} {p : Peer} {s : Speaker} (hp : p.Shows s)
    (hout : Link p (c e.other) s.said (d e.other).heard)
    (hin : Link (c e.other) p (d e.other).said s.heard) :
    Shows (e.assign p c) (e.assign s d) := by
  intro e'
  rcases e.eq_or_eq_other e' with rfl | rfl
  · simp only [End.assign_self, End.assign_other]
    exact ⟨hp, hout⟩
  · simp only [End.other_other, End.assign_self, End.assign_other]
    exact ⟨(h e.other).1, hin⟩

theorem Shows.link_in (h : c.Shows d) (e : End) :
    Link (c e.other) (c e) (d e.other).said (d e).heard := by
  have hin := (h e.other).2
  rwa [End.other_other] at hin

/-- A side that says something by itself takes a step. -/
theorem Shows.speak (h : c.Shows d) (e : End) {p : Peer} {s : Speaker} {items : List Item}
    (hp : p.Shows s) (hitems : spoken items = items) (hsaid : s.said = (d e).said ++ items)
    (hheard : s.heard = (d e).heard) (hplace : p.codec.place = (c e).codec.place)
    (hwire : p.wire = (c e).wire) (hsent : p.sent = (c e).sent)
    (hreplied : p.replied = (c e).replied)
    (hreplies : p.codec.replies = (c e).codec.replies ++ items.flatMap Item.bytes) :
    Shows (e.assign p c) (e.assign s d) := by
  refine h.assign hp ?_ ?_
  · rw [hsaid]
    exact (h e).2.sender_speaks hitems hwire hsent hreplied hreplies
  · rw [hheard]
    exact (h.link_in e).receiver_speaks hplace

/-- A side that says nothing takes no step. -/
theorem Shows.keep (h : c.Shows d) (e : End) {p : Peer} (hp : p.Shows (d e))
    (hout : Link p (c e.other) (d e).said (d e.other).heard)
    (hplace : p.codec.place = (c e).codec.place) : Shows (e.assign p c) d := by
  have hkept := h.assign hp hout ((h.link_in e).receiver_speaks hplace)
  rwa [End.assign_eq_self] at hkept

/-- Starting is a step, the first time. -/
theorem Shows.start (h : c.Shows d) (hd : d.Arises role terminal) (e : End) :
    ∃ d', Dialogue.Arises role terminal d' ∧ (c.play (.start e)).Shows d' := by
  obtain ⟨hcore, hbegun, hresized⟩ := (h e).1
  unfold Encounter.play Peer.start
  dsimp only
  split
  · exact ⟨d, hd, by rwa [End.assign_eq_self]⟩
  · rename_i hb
    rw [hbegun, Bool.not_eq_true] at hb
    have hstart : (c e).codec.start.2 = (c e).codec.tell
        ((d e).codec.announced.unsaidAll (initialRequests (d e).codec.role)) := by
      rw [Codec.start_eq, ← hcore]
      rfl
    refine ⟨_, hd.step e (.start hb), h.speak e ⟨?_, rfl, hresized⟩ (spoken_unsaidAll ..)
      rfl rfl ?_ rfl rfl rfl ?_⟩
    · rw [hstart, Speaker.start, Speaker.say, ← hcore]
      rfl
    · rw [hstart]
      rfl
    · rw [hstart]
      rfl

/-- So is a change of the window, every time. -/
theorem Shows.resize (h : c.Shows d) (hd : d.Arises role terminal) (e : End)
    (window : WindowSize) :
    ∃ d', Dialogue.Arises role terminal d' ∧ (c.play (.resize e window)).Shows d' := by
  obtain ⟨hcore, hbegun, hresized⟩ := (h e).1
  have hset : ((c e).codec.setWindow window).2.2 =
      { (c e).codec with terminal := { (c e).codec.terminal with window } }.tell
        ((d e).codec.windowNews window) := by
    rw [Codec.setWindow_eq, ← hcore]
    rfl
  refine ⟨_, hd.step e (.resize window), h.speak e ⟨?_, hbegun, congrArg (· + 1) hresized⟩
    (spoken_windowNews ..) rfl rfl ?_ rfl rfl rfl ?_⟩
  · rw [Peer.resize, hset, Speaker.resize, Speaker.adopt, Speaker.say, ← hcore]
    rfl
  · rw [Peer.resize, hset]
    rfl
  · rw [Peer.resize, hset]
    rfl

/-- A delivery is as many steps as it completes items that are spoken. -/
theorem Shows.deliver (h : c.Shows d) (hd : d.Arises role terminal) (e : End) (count : Nat) :
    ∃ d', Dialogue.Arises role terminal d' ∧ (c.play (.deliver e count)).Shows d' := by
  obtain ⟨hcore, hbegun, hresized⟩ := (h e.other).1
  obtain ⟨items, p, rest, hdecode, hsaid, hlink⟩ := (h e).2.deliver count
  obtain ⟨hlast, new, hnew, hmore, hreplies⟩ := Speaker.hearAll_spoken items hcore
  obtain ⟨hheard, hbegun', hresized'⟩ := (d e.other).hearAll_frame (spoken items)
  let receiver := (c e.other).hear ((c e).wire.take count)
  have hcodec : receiver.codec = ((c e.other).codec.obeyAll items).standing p := hdecode
  refine ⟨e.other.assign ((d e.other).hearAll (spoken items)) d, ?_, fun e' => ?_⟩
  · have hnext : (d e.other.other).said = (d e.other).heard ++ (spoken items ++ rest) := by
      rwa [End.other_other]
    exact hd.hearAll e.other hnext
  · unfold Encounter.play
    dsimp only
    rcases e.eq_or_eq_other e' with rfl | rfl
    · simp only [End.other_assign, End.assign_self, hheard]
      exact ⟨⟨(h e').1.core_eq, (h e').1.begun_eq, (h e').1.resized_eq⟩,
        hlink receiver (congrArg Codec.place hcodec)⟩
    · simp only [End.other_other, End.other_assign, End.assign_self]
      have hback : Link receiver (c e) _ (d e).heard :=
        (h.link_in e).sender_speaks hnew rfl rfl rfl
          ((congrArg Codec.replies hcodec).trans hreplies)
      refine ⟨⟨?_, hbegun.trans hbegun'.symm, hresized.trans hresized'.symm⟩, ?_⟩
      · exact (congrArg Codec.core hcodec).trans hlast
      · rw [hmore]
        exact hback.receiver_speaks rfl

/-- **Every turn of an encounter is some steps of a dialogue.** -/
theorem Shows.play (h : c.Shows d) (hd : d.Arises role terminal) (turn : Turn) :
    ∃ d', Dialogue.Arises role terminal d' ∧ (c.play turn).Shows d' := by
  cases turn with
  | start e => exact h.start hd e
  | resize e window => exact h.resize hd e window
  | carry e =>
    obtain ⟨⟨hcore, hbegun, hresized⟩, hlink⟩ := h e
    exact ⟨d, hd, h.keep e ⟨hcore, hbegun, hresized⟩ hlink.carry rfl⟩
  | say e data =>
    obtain ⟨⟨hcore, hbegun, hresized⟩, hlink⟩ := h e
    exact ⟨d, hd, h.keep e ⟨hcore, hbegun, hresized⟩ (hlink.say data) rfl⟩
  | deliver e count => exact h.deliver hd e count

/-- So are all turns in order. -/
theorem Shows.playAll (h : c.Shows d) (hd : d.Arises role terminal) (turns : List Turn) :
    ∃ d', Dialogue.Arises role terminal d' ∧ (c.playAll turns).Shows d' := by
  induction turns generalizing c d with
  | nil => exact ⟨d, hd, h⟩
  | cons turn rest ih =>
    obtain ⟨d', hd', h'⟩ := h.play hd turn
    exact ih h' hd'

/-- **Behind every encounter is a dialogue.** -/
theorem exists_dialogue (role : End → Role) (terminal : End → Terminal) (turns : List Turn) :
    ∃ d, Dialogue.Arises role terminal d ∧ ((fresh role terminal).playAll turns).Shows d :=
  shows_fresh.playAll .fresh turns

end Encounter
end Telnet
end RemoteTerminal
