/-
# Payload that travels while the modes are being negotiated

Two codecs, a client and a server, on two wires, each of which keeps its bytes in
order.  A `Conversation` goes on in moves of either side, in any order: to start, to
say a text, to put its replies on its wire, and to have some bytes of its wire
delivered.  Nobody says a text before having started.

A codec has one flag for binary mode.  It is on as soon as the peer has been heard to
speak of it, and since the first thing on either wire is such speech, payload is
decoded in binary mode always.  It is framed in binary mode only after the sender
has heard its peer.  So a text said earlier comes with its fillers (`Text.arrival`),
and `arrivals` says that this is all that can happen to it: while a wire is empty,
what was heard is what the texts arrive as.  `not_transparent` is the return that is
said too early.
-/

import RemoteTerminal.Proofs.Telnet.Replies
import RemoteTerminal.Proofs.Telnet.RoundTrip
import RemoteTerminal.Telnet.Duplex

namespace RemoteTerminal
namespace Telnet

/-- A text, and the mode in which it was framed. -/
structure Text where
  binary : Bool
  data : Bytes
  deriving DecidableEq, Repr

namespace Text

/-- The text on the wire. -/
def framed (t : Text) : Bytes := encode t.binary t.data

/-- What the text is to a reader in binary mode. -/
def arrival (t : Text) : Bytes := if t.binary then t.data else fillReturns t.data

theorem length_le_arrival (t : Text) : t.data.length ≤ t.arrival.length := by
  unfold arrival
  split
  · exact Nat.le_refl _
  · exact length_le_fillReturns t.data

theorem arrival_eq_data_iff (t : Text) :
    t.arrival = t.data ↔ (t.binary = false → EndsLines t.data) := by
  unfold arrival
  cases t.binary with
  | true => exact ⟨fun _ h => (nomatch h), fun _ => rfl⟩
  | false => exact (fillReturns_eq_self_iff t.data).trans ⟨fun h _ => h, fun h => h rfl⟩

/-- Since a text can only grow on its way, texts arrive as they went together only if
each of them does. -/
theorem flatMap_arrival_eq_iff (texts : List Text) :
    texts.flatMap arrival = texts.flatMap data ↔ ∀ t ∈ texts, t.arrival = t.data := by
  induction texts with
  | nil => simp
  | cons t rest ih =>
    have hgrow : (rest.flatMap data).length ≤ (rest.flatMap arrival).length := by
      clear ih
      induction rest with
      | nil => exact Nat.le_refl _
      | cons t' rest ih =>
        have := length_le_arrival t'
        simp only [List.flatMap_cons, List.length_append]
        omega
    have hfirst := length_le_arrival t
    rw [List.flatMap_cons, List.flatMap_cons, List.forall_mem_cons, ← ih]
    refine ⟨fun h => ?_, fun ⟨h, hrest⟩ => by rw [h, hrest]⟩
    have hlength := congrArg List.length h
    simp only [List.length_append] at hlength
    exact List.append_inj h (by omega)

/-- A reader between two items, in binary mode, makes of a framed text what arrives of
it, and finds no verb in it. -/
theorem read_framed (t : Text) {r : Reader} (hs : r.state = .data) (hc : r.pendingCr = false)
    (hb : r.flags.binaryMode = true) : r.read t.framed = (t.arrival, r) := by
  let c : Codec := { role := r.role, flags := r.flags, state := r.state, pendingCr := r.pendingCr }
  have hrest : c.AtRest := ⟨hs, hc⟩
  have hdecode : c.decode t.framed = ({ payload := t.arrival }, c) := by
    unfold framed arrival
    cases t.binary with
    | true =>
      have hencode : encode true t.data = c.encode t.data := by rw [Codec.encode, hb]
      rw [hencode]
      exact Codec.decode_encode hrest t.data
    | false => exact Codec.decode_encode_crossed hrest hb t.data
  have hread := Codec.decode_reader t.framed c
  rw [hdecode] at hread
  exact hread.symm

end Text

/-- Framed payload holds no verb. -/
theorem keeps_encode (data : Bytes) {r : Reader} (hs : r.state = .data) :
    r.Keeps (encode true data) := by
  induction data using units_induction true generalizing r with
  | nil => trivial
  | escape rest ih =>
    rw [encode_escape]
    obtain ⟨role, flags, state, pendingCr⟩ := r
    subst hs
    exact ⟨Reader.not_drops_of_state (by simp), Reader.not_drops_of_state (by simp [Reader.step]),
      ih rfl⟩
  | newline hb rest ih => cases hb
  | bare hb rest hn ih => cases hb
  | plain byte rest hi hc ih =>
    rw [encode_plain rest hi hc]
    have hstep : (r.step byte).2.state = .data := by
      simp [Reader.step, hs, hi]
    exact ⟨Reader.not_drops_of_state (by simp [hs]), ih hstep⟩

theorem Text.keeps_framed (t : Text) {r : Reader} (hs : r.state = .data) : r.Keeps t.framed := by
  unfold framed
  cases t.binary with
  | true => exact keeps_encode t.data hs
  | false => exact encode_false_eq t.data ▸ keeps_encode _ hs

/-! ### Moves -/

/-- One side of a conversation. -/
structure Party where
  codec : Codec
  begun : Bool := false
  /-- The bytes on their way to the other side, the oldest first. -/
  wire : Bytes := []
  /-- The texts that were said. -/
  said : List Text := []
  /-- The payload that was decoded. -/
  heard : Bytes := []

namespace Party

/-- Say what is asked for at the beginning. -/
def start (p : Party) : Party := { p with codec := p.codec.start.2, begun := true }

/-- Put the replies on the wire. -/
def carry (p : Party) : Party :=
  { p with codec := p.codec.takeReplies.2, wire := p.wire ++ p.codec.takeReplies.1 }

/-- Say a text in the mode that is in effect, behind the replies. -/
def say (data : Bytes) (p : Party) : Party :=
  let text : Text := ⟨p.codec.flags.binaryMode, data⟩
  { p.carry with wire := p.carry.wire ++ text.framed, said := p.said ++ [text] }

/-- Lose the first bytes of the wire, which are delivered. -/
def lose (count : Nat) (p : Party) : Party := { p with wire := p.wire.drop count }

/-- Decode what is delivered. -/
def hear (bytes : Bytes) (p : Party) : Party :=
  { p with
    codec := (p.codec.decode bytes).2
    heard := p.heard ++ (p.codec.decode bytes).1.payload }

end Party

/-- The two sides of a conversation. -/
def Conversation := End → Party

/-- What can happen next. -/
inductive Move where
  | start (e : End)
  | say (e : End) (data : Bytes)
  | carry (e : End)
  /-- The first bytes of a side's wire reach the other side. -/
  | deliver (e : End) (count : Nat)
  deriving DecidableEq, Repr

namespace Conversation

/-- A client and a server before their first words. -/
def fresh (client server : Terminal) : Conversation
  | .a => { codec := { role := .client, terminal := client } }
  | .b => { codec := { role := .server, terminal := server } }

/-- One side is another. -/
def set (e : End) (p : Party) (c : Conversation) : Conversation :=
  fun e' => if e' = e then p else c e'

/-- Make a move; a text of a side that has not started is not said. -/
def play (c : Conversation) : Move → Conversation
  | .start e => c.set e (c e).start
  | .say e data => if (c e).begun then c.set e ((c e).say data) else c
  | .carry e => c.set e (c e).carry
  | .deliver e count =>
    (c.set e ((c e).lose count)).set e.other ((c e.other).hear ((c e).wire.take count))

/-- Make moves in order. -/
def playAll (moves : List Move) (c : Conversation) : Conversation := moves.foldl play c

end Conversation

/-! ### One direction -/

/-- What is so of a sender and a receiver at any time.  The bytes on the wire end
between two items, and what was heard and what they bring is what was said; the
replies that have not been put there yet are lawful. -/
structure Conveys (sender receiver : Party) : Prop where
  keeps : receiver.codec.reader.Keeps sender.wire
  state : (receiver.codec.reader.read sender.wire).2.state = .data
  pendingCr : (receiver.codec.reader.read sender.wire).2.pendingCr = false
  heard : receiver.heard ++ (receiver.codec.reader.read sender.wire).1 =
    sender.said.flatMap Text.arrival
  lawful : Lawful sender.codec.replies
  /-- Who has offered binary mode brings its receiver to it. -/
  offered : sender.codec.OffersBinary →
    (receiver.codec.reader.read sender.wire).2.flags.binaryMode = true ∨
      Raises sender.codec.replies
  begun : sender.begun = true → sender.codec.OffersBinary
  spoken : sender.said ≠ [] →
    (receiver.codec.reader.read sender.wire).2.flags.binaryMode = true

namespace Conveys

variable {sender sender' receiver receiver' : Party}

/-- A direction that nobody has used. -/
theorem fresh {sender receiver : Codec} (hreplies : sender.replies = [])
    (hsilent : ¬sender.OffersBinary) (hr : receiver.AtRest) :
    Conveys { codec := sender } { codec := receiver } where
  keeps := trivial
  state := hr.state
  pendingCr := hr.pendingCr
  heard := rfl
  lawful := hreplies.symm ▸ lawful_nil
  offered h := absurd h hsilent
  begun h := nomatch h
  spoken h := absurd rfl h

/-- What a receiver says does not change what it makes of the wire. -/
theorem receiver_speaks (h : Conveys sender receiver)
    (hreader : receiver'.codec.reader = receiver.codec.reader)
    (hheard : receiver'.heard = receiver.heard) : Conveys sender receiver' := by
  obtain ⟨hkeeps, hstate, hcr, heq, hlawful, hoffered, hbegun, hspoken⟩ := h
  rw [← hreader] at hkeeps hstate hcr heq hoffered hspoken
  rw [← hheard] at heq
  exact ⟨hkeeps, hstate, hcr, heq, hlawful, hoffered, hbegun, hspoken⟩

/-- A sender may say whatever is lawful. -/
theorem sender_speaks (h : Conveys sender receiver) (hspeaks : sender.codec.Speaks sender'.codec)
    (hwire : sender'.wire = sender.wire) (hsaid : sender'.said = sender.said)
    (hbegun : sender'.begun = true → sender.begun = true ∨ sender'.codec.OffersBinary) :
    Conveys sender' receiver := by
  obtain ⟨bytes, hspoke⟩ := hspeaks
  refine ⟨hwire ▸ h.keeps, hwire ▸ h.state, hwire ▸ h.pendingCr, ?_, ?_, ?_, ?_, ?_⟩
  · rw [hwire, hsaid]
    exact h.heard
  · rw [hspoke.replies_eq]
    exact h.lawful.append hspoke.lawful
  · intro hoffers
    rw [hwire, hspoke.replies_eq]
    rcases hspoke.raises hoffers with hbefore | hnow
    · rcases h.offered hbefore with hraised | hraises
      · exact .inl hraised
      · exact .inr (hraises.append_lawful h.lawful hspoke.lawful)
    · exact .inr (h.lawful.append_raises hnow)
  · intro hb
    rcases hbegun hb with hb | hoffers
    · exact hspoke.offers (h.begun hb)
    · exact hoffers
  · rw [hwire, hsaid]
    exact h.spoken

/-- Replies reach the wire: the receiver passes over them. -/
theorem carry (h : Conveys sender receiver) : Conveys sender.carry receiver := by
  obtain ⟨flags, hpasses⟩ := h.lawful _ h.state
  have hread : receiver.codec.reader.read (sender.wire ++ sender.codec.replies) =
      ((receiver.codec.reader.read sender.wire).1,
        { (receiver.codec.reader.read sender.wire).2 with flags }) := by
    rw [Reader.read_append, hpasses.read_eq, List.append_nil]
  have hkept (hb : (receiver.codec.reader.read sender.wire).2.flags.binaryMode = true) :
      flags.binaryMode = true := by
    have hafter := Reader.binaryMode_read hpasses.keeps hb
    rwa [hpasses.read_eq] at hafter
  refine ⟨(Reader.keeps_append ..).2 ⟨h.keeps, hpasses.keeps⟩, ?_, ?_, ?_, lawful_nil, ?_, h.begun,
    ?_⟩
  · exact hread ▸ h.state
  · exact hread ▸ h.pendingCr
  · exact hread ▸ h.heard
  · intro hoffers
    refine .inl (hread ▸ ?_)
    rcases h.offered hoffers with hraised | hraises
    · exact hkept hraised
    · have hafter := hraises _ h.state
      rwa [hpasses.read_eq] at hafter
  · exact fun hsaid => hread ▸ hkept (h.spoken hsaid)

/-- A text reaches the wire behind the replies of a side that has started, so behind
the offer of binary mode. -/
theorem say (h : Conveys sender receiver) (hb : sender.begun = true) (data : Bytes) :
    Conveys (sender.say data) receiver := by
  have hcarry := h.carry
  have hbinary : (receiver.codec.reader.read sender.carry.wire).2.flags.binaryMode = true := by
    rcases hcarry.offered (hcarry.begun hb) with hraised | hraises
    · exact hraised
    · exact absurd hraises not_raises_nil
  have hframed := Text.read_framed ⟨sender.codec.flags.binaryMode, data⟩ hcarry.state
    hcarry.pendingCr hbinary
  have hread : receiver.codec.reader.read (sender.say data).wire =
      ((receiver.codec.reader.read sender.carry.wire).1 ++
          Text.arrival ⟨sender.codec.flags.binaryMode, data⟩,
        (receiver.codec.reader.read sender.carry.wire).2) := by
    rw [Party.say, Reader.read_append, hframed]
  refine ⟨(Reader.keeps_append ..).2 ⟨hcarry.keeps, Text.keeps_framed _ hcarry.state⟩, ?_, ?_, ?_,
    lawful_nil, ?_, hcarry.begun, ?_⟩
  · exact hread ▸ hcarry.state
  · exact hread ▸ hcarry.pendingCr
  · rw [hread, ← List.append_assoc, hcarry.heard]
    simp [Party.say, Party.carry]
  · exact fun _ => .inl (hread ▸ hbinary)
  · exact fun _ => hread ▸ hbinary

/-- Bytes of the wire reach the receiver. -/
theorem deliver (h : Conveys sender receiver) (count : Nat) :
    Conveys (sender.lose count) (receiver.hear (sender.wire.take count)) := by
  have hsplit := List.take_append_drop count sender.wire
  obtain ⟨hkeeps, hstate, hcr, heq, hlawful, hoffered, hbegun, hspoken⟩ := h
  rw [← hsplit, Reader.read_append] at hstate hcr heq hoffered hspoken
  rw [← hsplit] at hkeeps
  have hdecode := Codec.decode_reader (sender.wire.take count) receiver.codec
  have hreader : (receiver.hear (sender.wire.take count)).codec.reader =
      (receiver.codec.reader.read (sender.wire.take count)).2 := congrArg Prod.snd hdecode
  have hheard : (receiver.hear (sender.wire.take count)).heard =
      receiver.heard ++ (receiver.codec.reader.read (sender.wire.take count)).1 :=
    congrArg (receiver.heard ++ ·) (congrArg Prod.fst hdecode)
  rw [← hreader] at hstate hcr heq hoffered hspoken
  refine ⟨hreader ▸ ((Reader.keeps_append ..).1 hkeeps).2, hstate, hcr, ?_, hlawful, hoffered,
    hbegun, hspoken⟩
  rw [hheard, List.append_assoc]
  exact heq

end Conveys

namespace Conversation

/-- Both directions of a conversation are in order. -/
def Orderly (c : Conversation) : Prop := ∀ e, Conveys (c e) (c e.other)

theorem orderly_fresh (client server : Terminal) : (fresh client server).Orderly := by
  have hsilent (role : Role) (terminal : Terminal) : ¬({ role, terminal } : Codec).OffersBinary :=
    fun h => nomatch h
  intro e
  cases e with
  | a => exact .fresh rfl (hsilent .client client) ⟨rfl, rfl⟩
  | b => exact .fresh rfl (hsilent .server server) ⟨rfl, rfl⟩

/-- One side may change if both of its directions stay in order. -/
theorem Orderly.set {c : Conversation} {e : End} {p : Party} (hout : Conveys p (c e.other))
    (hin : Conveys (c e.other) p) : (c.set e p).Orderly := by
  intro e'
  cases e <;> cases e' <;> assumption

/-- **Every move keeps a conversation in order.** -/
theorem Orderly.play {c : Conversation} (h : c.Orderly) (m : Move) : (c.play m).Orderly := by
  have hin (e : End) : Conveys (c e.other) (c e) := by
    have hback := h e.other
    cases e <;> exact hback
  cases m with
  | start e =>
    refine .set ?_ ?_
    · exact (h e).sender_speaks (Codec.speaks_start (c e).codec) rfl rfl
        (fun _ => .inr (Codec.offersBinary_start (c e).codec))
    · exact (hin e).receiver_speaks (Codec.reader_start (c e).codec) rfl
  | say e data =>
    unfold Conversation.play
    dsimp only
    split
    · rename_i hb
      exact .set ((h e).say hb data) ((hin e).receiver_speaks rfl rfl)
    · exact h
  | carry e => exact .set (h e).carry ((hin e).receiver_speaks rfl rfl)
  | deliver e count =>
    have hkeeps : (c e.other).codec.reader.Keeps ((c e).wire.take count) := by
      have hall := (h e).keeps
      rw [← List.take_append_drop count (c e).wire] at hall
      exact ((Reader.keeps_append ..).1 hall).1
    have hanswered : Conveys ((c e.other).hear ((c e).wire.take count)) (c e) :=
      (hin e).sender_speaks (Codec.speaks_decode hkeeps) rfl rfl .inl
    have hback : Conveys ((c e.other).hear ((c e).wire.take count)) ((c e).lose count) :=
      hanswered.receiver_speaks rfl rfl
    have hother : (c.set e ((c e).lose count)) e.other.other = (c e).lose count := by
      cases e <;> rfl
    exact .set (hother.symm ▸ hback) (hother.symm ▸ (h e).deliver count)

/-- So do all moves in order. -/
theorem Orderly.playAll {c : Conversation} (h : c.Orderly) (moves : List Move) :
    (c.playAll moves).Orderly := by
  induction moves generalizing c with
  | nil => exact h
  | cons m rest ih => exact ih (h.play m)

/-- **What arrives of a conversation.**  After all moves in any order, while a wire is
empty, what was heard from it is what the texts that were said arrive as: unchanged if
they were framed in binary mode, and else with their fillers.  A side to which
something was said is in binary mode.  So all texts arrive as they were said exactly
if those that were framed outside binary mode have no return but at the end of a line. -/
theorem arrivals (client server : Terminal) (moves : List Move) (e : End) :
    let c := (fresh client server).playAll moves
    (c e).wire = [] →
      (c e.other).heard = (c e).said.flatMap Text.arrival ∧
        ((c e).said ≠ [] → (c e.other).codec.flags.binaryMode = true) ∧
        ((c e.other).heard = (c e).said.flatMap Text.data ↔
          ∀ t ∈ (c e).said, t.binary = false → EndsLines t.data) := by
  intro c hwire
  have h : Conveys (c e) (c e.other) := (orderly_fresh client server).playAll moves e
  have hheard := h.heard
  have hspoken := h.spoken
  rw [hwire] at hheard hspoken
  simp only [Reader.read, List.append_nil] at hheard hspoken
  refine ⟨hheard, hspoken, ?_⟩
  rw [hheard, Text.flatMap_arrival_eq_iff]
  exact forall₂_congr fun t _ => t.arrival_eq_data_iff

/-- The server says a return as soon as it has started, and the client hears it, with
its filler, at the end of all that the server has asked for. -/
def earlyReturn : List Move := [.start .a, .start .b, .say .b [Code.cr], .deliver .b 23]

/-- What was heard of `earlyReturn`, and that binary mode was on. -/
theorem arrivals_earlyReturn :
    let c := (fresh {} {}).playAll earlyReturn
    (c .b).wire = [] ∧ (c .a).heard = [Code.cr, Code.nul] ∧
      (c .a).codec.flags.binaryMode = true := by
  intro c
  have hwire : (c .b).wire = [] := by decide +kernel
  have hsaid : (c .b).said = [⟨false, [Code.cr]⟩] := by decide +kernel
  obtain ⟨hheard, hbinary, -⟩ := arrivals {} {} earlyReturn .b hwire
  refine ⟨hwire, hheard.trans ?_, hbinary ?_⟩
  · rw [hsaid]
    rfl
  · rw [hsaid]
    simp

/-- **Payload is not transparent while the modes are being negotiated.** -/
theorem not_transparent :
    ¬∀ (client server : Terminal) (moves : List Move) (e : End),
      let c := (fresh client server).playAll moves
      (c e).wire = [] → (c e.other).heard = (c e).said.flatMap Text.data := by
  intro h
  have hwire : ((fresh {} {}).playAll earlyReturn .b).wire = [] := by decide +kernel
  have hheard := h {} {} earlyReturn .b hwire
  exact absurd hheard (by decide +kernel)

end Conversation
end Telnet
end RemoteTerminal
