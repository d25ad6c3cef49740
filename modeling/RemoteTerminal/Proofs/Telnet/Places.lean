/-
# Where a decoder stands

Between two items the decoder stands where it stood, but for a carriage return that is
held back.  So everything about a codec but its decoder's `Place` is what the items
before have made of it, and no operation of the codec looks at the place or moves it.

A byte moves the decoder, or it ends a verb, or it ends a subnegotiation (`step_cases`).
Most bytes only move it from one place to another (`Place.Quiet`): all bytes of an item but
the last, so also whatever is the beginning of an item (`quiet_begins`).
-/

import RemoteTerminal.Proofs.Telnet.Speech

namespace RemoteTerminal
namespace Telnet

/-! ### Places -/

/-- Where a decoder stands: its part of a codec. -/
structure Place where
  state : DecoderState := .data
  pendingCr : Bool := false
  gathered : Bytes := []
  overflow : Bool := false
  deriving DecidableEq, Repr

namespace Codec

/-- The place of a codec's decoder. -/
def place (c : Codec) : Place := ⟨c.state, c.pendingCr, c.gathered, c.overflow⟩

/-- A codec with its decoder at a place. -/
def standing (p : Place) (c : Codec) : Codec :=
  { c with
    state := p.state, pendingCr := p.pendingCr, gathered := p.gathered, overflow := p.overflow }

/-- A codec with its decoder where it began.  This keeps the role and the terminal, the
flags, what was announced, the replies and what is known of the peer. -/
def settled (c : Codec) : Codec := c.standing {}

@[simp] theorem settled_standing (p : Place) (c : Codec) : (c.standing p).settled = c.settled := rfl

/-- **What a byte can do**: it moves the decoder, or it ends a verb, or it ends a
subnegotiation. -/
theorem step_cases (byte : UInt8) (c : Codec) :
    ((∀ verb, c.state ≠ .negotiate verb) ∧ ∃ p, (c.step byte).2 = c.standing p) ∨
      (∃ verb, c.state = .negotiate verb ∧ (c.step byte).2 =
        ({ c with state := .data }.negotiate verb (TelnetOption.ofByte byte)).2) ∨
      ((∀ verb, c.state ≠ .negotiate verb) ∧
        (c.step byte).2 = { c with state := .data }.finish.2) := by
  obtain ⟨role, terminal, flags, announced, state⟩ := c
  cases state with
  | data =>
    refine .inl ⟨(fun _ h => nomatch h), ?_⟩
    dsimp only [step]
    split <;> exact ⟨⟨_, _, _, _⟩, rfl⟩
  | command =>
    refine .inl ⟨(fun _ h => nomatch h), ?_⟩
    dsimp only [step]
    split
    · exact ⟨⟨_, _, _, _⟩, rfl⟩
    · unfold interpret
      split
      · exact ⟨⟨_, _, _, _⟩, rfl⟩
      · split <;> exact ⟨⟨_, _, _, _⟩, rfl⟩
  | negotiate verb => exact .inr (.inl ⟨verb, rfl, rfl⟩)
  | gather =>
    refine .inl ⟨(fun _ h => nomatch h), ?_⟩
    dsimp only [step]
    split
    · exact ⟨⟨_, _, _, _⟩, rfl⟩
    · unfold gather
      split <;> exact ⟨⟨_, _, _, _⟩, rfl⟩
  | gatherCommand =>
    by_cases hse : byte = Code.se
    · subst hse
      exact .inr (.inr ⟨(fun _ h => nomatch h), rfl⟩)
    · refine .inl ⟨(fun _ h => nomatch h), ?_⟩
      dsimp only [step]
      split
      · unfold gather
        split <;> exact ⟨⟨_, _, _, _⟩, rfl⟩
      · exact ⟨⟨_, _, _, _⟩, rfl⟩

/-! What is learned and said has nothing to do with the place. -/

/-- What is learned of the peer comes from the role alone, so that a change of anything
else may come before it or after it. -/
theorem note_comm (change : Codec → Codec) (hrole : ∀ c, (change c).role = c.role)
    (htype : ∀ c name, change { c with peerTerminalType := name } =
      { change c with peerTerminalType := name })
    (hwindow : ∀ c window, change { c with peerWindow := window } =
      { change c with peerWindow := window }) (content : Bytes) (c : Codec) :
    (change c).note content = change (c.note content) := by
  have hnews : peerNews? (change c).role content = peerNews? c.role content := by rw [hrole]
  unfold note
  rw [hnews]
  split
  · rfl
  · exact (htype c _).symm
  · exact (hwindow c _).symm

theorem note_standing (content : Bytes) (p : Place) (c : Codec) :
    (c.standing p).note content = (c.note content).standing p :=
  note_comm (standing p) (fun _ => rfl) (fun _ _ => rfl) (fun _ _ => rfl) content c

theorem act_standing (content : Bytes) (p : Place) (c : Codec) :
    (c.standing p).act content = (c.act content).standing p := by
  rw [act_eq, act_eq, note_standing]
  rfl

theorem obey_standing (item : Item) (p : Place) (c : Codec) :
    (c.standing p).obey item = (c.obey item).standing p := by
  cases item with
  | negotiation verb option =>
    have hobey (c : Codec) : c.obey (.negotiation verb option) = _ := negotiate_eq verb _ c
    rw [hobey, hobey]
    rfl
  | subnegotiation body => exact act_standing _ p c
  | data | literal | command => rfl

/-- Do what several items call for, in order. -/
def obeyAll (items : List Item) (c : Codec) : Codec := items.foldl (fun c item => c.obey item) c

theorem obeyAll_standing (items : List Item) (p : Place) (c : Codec) :
    (c.standing p).obeyAll items = (c.obeyAll items).standing p := by
  induction items generalizing c with
  | nil => rfl
  | cons item rest ih => exact (congrArg (obeyAll rest) (obey_standing item p c)).trans (ih _)

end Codec

/-! ### Bytes that only move the decoder -/

namespace Place

/-- Bytes that take every decoder from one place to another and do nothing besides. -/
def Quiet (p : Place) (bytes : Bytes) (p' : Place) : Prop :=
  ∀ c : Codec, ((c.standing p).decode bytes).1.payload = [] ∧
    ((c.standing p).decode bytes).2 = c.standing p'

namespace Quiet

theorem nil (p : Place) : p.Quiet [] p := fun _ => ⟨rfl, rfl⟩

theorem unique {p p' p'' : Place} {bytes : Bytes} (h : p.Quiet bytes p') (h' : p.Quiet bytes p'') :
    p' = p'' :=
  congrArg Codec.place ((h {}).2.symm.trans (h' {}).2)

theorem append {p p' p'' : Place} {a b : Bytes} (ha : p.Quiet a p') (hb : p'.Quiet b p'') :
    p.Quiet (a ++ b) p'' := by
  intro c
  rw [Codec.decode_append]
  simp [(ha c).1, (ha c).2, (hb c).1, (hb c).2]

theorem byte {p p' : Place} {byte : UInt8}
    (h : ∀ c : Codec, ((c.standing p).step byte).1.payload = [] ∧
      ((c.standing p).step byte).2 = c.standing p') : p.Quiet [byte] p' := by
  intro c
  obtain ⟨hpayload, hnext⟩ := h c
  simp [Codec.decode, hpayload, hnext]

/-- The byte after them does what it does at the other place. -/
theorem decode_concat {p p' : Place} {front : Bytes} (h : p.Quiet front p') (last : UInt8)
    (c : Codec) :
    ((c.standing p).decode (front ++ [last])).1.payload = ((c.standing p').step last).1.payload ∧
      ((c.standing p).decode (front ++ [last])).2 = ((c.standing p').step last).2 := by
  rw [Codec.decode_append, (h c).2]
  simp [(h c).1, Codec.decode]

end Quiet

/-- Between two items. -/
def between (pendingCr : Bool) : Place := { pendingCr }

/-- Inside a subnegotiation after all of `content`, of which no more is kept than there
is room for. -/
def holding (pendingCr : Bool) (state : DecoderState) (content : Bytes) : Place :=
  ⟨state, pendingCr, content.take subnegotiationLimit, subnegotiationLimit < content.length⟩

variable {cr : Bool} {content : Bytes}

/-- `IAC` between two items. -/
theorem quiet_iac : Quiet (between cr) [Code.iac] { between cr with state := .command } :=
  .byte fun _ => ⟨rfl, rfl⟩

/-- The verb after it. -/
theorem quiet_verb (verb : Verb) : Quiet (between cr) [Code.iac, verb.toByte]
    { between cr with state := .negotiate verb } :=
  quiet_iac.append (.byte fun _ => by cases verb <;> exact ⟨rfl, rfl⟩)

/-- The beginning of a subnegotiation. -/
theorem quiet_sb : Quiet (between cr) [Code.iac, Code.sb] (holding cr .gather []) :=
  quiet_iac.append (.byte fun _ => ⟨rfl, rfl⟩)

/-- `IAC` inside a subnegotiation. -/
theorem quiet_gather_iac : Quiet (holding cr .gather content) [Code.iac]
    (holding cr .gatherCommand content) :=
  .byte fun _ => ⟨rfl, rfl⟩

/-- A byte that is gathered is kept if there is room. -/
theorem gather_holding (byte : UInt8) (c : Codec) :
    ((c.standing (holding cr .gather content)).gather byte).2 =
      c.standing (holding cr .gather (content ++ [byte])) := by
  have hlength : (content ++ [byte]).length = content.length + 1 := by simp
  have hgathered : (c.standing (holding cr .gather content)).gathered =
      content.take subnegotiationLimit := rfl
  unfold Codec.gather
  rw [hgathered, List.length_take]
  split
  · have htake : (content ++ [byte]).take subnegotiationLimit = content.take subnegotiationLimit :=
      List.take_append_of_le_length (by omega)
    have hlong : subnegotiationLimit < content.length + 1 := by omega
    simp only [Codec.standing, holding, htake, hlength, hlong, decide_true]
  · have hall : content.take subnegotiationLimit = content := List.take_of_length_le (by omega)
    have htake : (content ++ [byte]).take subnegotiationLimit = content ++ [byte] :=
      List.take_of_length_le (by omega)
    have hshort : ¬subnegotiationLimit < content.length := by omega
    have hroom : ¬subnegotiationLimit < content.length + 1 := by omega
    simp only [Codec.standing, holding, htake, hall, hlength, hshort, hroom, decide_false]

/-- `IAC` after `IAC` inside a subnegotiation is gathered. -/
theorem quiet_literal : Quiet (holding cr .gatherCommand content) [Code.iac]
    (holding cr .gather (content ++ [Code.iac])) :=
  .byte fun c => ⟨rfl, gather_holding Code.iac c⟩

/-- Any other byte there that does not end the subnegotiation is lost. -/
theorem quiet_lost {byte : UInt8} (hi : byte ≠ Code.iac) (hs : byte ≠ Code.se) :
    Quiet (holding cr .gatherCommand content) [byte] (holding cr .gather content) :=
  .byte fun c => by simp [Codec.step, Codec.standing, holding, hi, hs]

/-- A fragment of a body. -/
theorem quiet_fragment (f : Fragment) : Quiet (holding cr .gather content) f.bytes
    (holding cr .gather (content ++ f.content)) := by
  cases f with
  | plain byte hb =>
    refine .byte fun c => ?_
    have hstep : (c.standing (holding cr .gather content)).step byte =
        ({ notes := ((c.standing (holding cr .gather content)).gather byte).1 },
          ((c.standing (holding cr .gather content)).gather byte).2) := if_neg hb
    rw [hstep]
    exact ⟨rfl, gather_holding byte c⟩
  | literal => exact quiet_gather_iac.append quiet_literal
  | stray byte hi hs =>
    rw [Fragment.content, List.append_nil]
    exact quiet_gather_iac.append (quiet_lost hi hs)

/-- Fragments in order. -/
theorem quiet_body (body : List Fragment) : Quiet (holding cr .gather content)
    (body.flatMap Fragment.bytes)
    (holding cr .gather (content ++ body.flatMap Fragment.content)) := by
  induction body generalizing content with
  | nil =>
    rw [List.flatMap_nil, List.flatMap_nil, List.append_nil]
    exact .nil _
  | cons f rest ih =>
    rw [List.flatMap_cons, List.flatMap_cons, ← List.append_assoc]
    exact (quiet_fragment f).append ih

/-- Bytes with every `IAC` doubled are gathered. -/
theorem quiet_doubleIac (data : Bytes) : Quiet (holding cr .gather content) (doubleIac data)
    (holding cr .gather (content ++ data)) := by
  have hbody : Quiet (holding cr .gather content) _ (holding cr .gather _) :=
    quiet_body (data.map Fragment.ofByte)
  rwa [Fragment.flatMap_bytes_ofByte, Fragment.flatMap_content_ofByte] at hbody

/-- The beginning of a body and its terminator is some fragments, and an `IAC` perhaps. -/
theorem exists_fragments {body : List Fragment} {front more : Bytes} (hmore : more ≠ [])
    (h : front ++ more = body.flatMap Fragment.bytes ++ Fragment.terminator) :
    ∃ done : List Fragment, front = done.flatMap Fragment.bytes ∨
      front = done.flatMap Fragment.bytes ++ [Code.iac] := by
  have hshort {front more : Bytes} {next : UInt8} (hmore : more ≠ [])
      (h : front ++ more = [Code.iac, next]) : front = [] ∨ front = [Code.iac] := by
    match front with
    | [] => exact .inl rfl
    | [first] => exact .inr (by rw [(List.cons.inj h).1])
    | first :: second :: rest =>
      have hlength := congrArg List.length h
      have hpos := List.length_pos_iff.2 hmore
      simp only [List.length_append, List.length_cons, List.length_nil] at hlength
      omega
  induction body generalizing front with
  | nil =>
    rcases hshort hmore h with rfl | rfl
    · exact ⟨[], .inl rfl⟩
    · exact ⟨[], .inr rfl⟩
  | cons f rest ih =>
    rw [List.flatMap_cons, List.append_assoc] at h
    rcases List.append_eq_append_iff.1 h with ⟨tail, hbytes, hmore'⟩ | ⟨tail, rfl, hrest⟩
    · by_cases htail : tail = []
      · rw [htail, List.append_nil] at hbytes
        exact ⟨[f], .inl (by rw [← hbytes, List.flatMap_cons, List.flatMap_nil, List.append_nil])⟩
      · cases f with
        | plain byte hb =>
          match front with
          | [] => exact ⟨[], .inl rfl⟩
          | first :: front' =>
            have hend := (List.cons.inj hbytes).2
            exact absurd (List.append_eq_nil_iff.1 hend.symm).2 htail
        | literal | stray =>
          rcases hshort htail hbytes.symm with rfl | rfl
          · exact ⟨[], .inl rfl⟩
          · exact ⟨[], .inr rfl⟩
    · rcases ih hrest.symm with ⟨done, rfl | rfl⟩
      · exact ⟨f :: done, .inl (by rw [List.flatMap_cons])⟩
      · exact ⟨f :: done, .inr (by rw [List.flatMap_cons, List.append_assoc])⟩

/-- **The beginning of an item only moves the decoder**, and the decoder is about to take
the option of a verb exactly if the verb is what has begun. -/
theorem quiet_begins {part : Bytes} (h : Item.Begins part) (cr : Bool) :
    ∃ p', Quiet (between cr) part p' ∧ p'.pendingCr = cr ∧
      ∀ verb : Verb, p'.state = .negotiate verb ↔ part = [Code.iac, verb.toByte] := by
  obtain ⟨item, more, hmore, h⟩ := h
  have htake : part = item.bytes.take part.length := by rw [← h, List.take_left]
  have hlt : part.length < item.bytes.length := by
    have hpos := List.length_pos_iff.2 hmore
    rw [← h, List.length_append]
    omega
  have hnone (verb : Verb) : DecoderState.data = .negotiate verb ↔ [] = [Code.iac, verb.toByte] :=
    ⟨(fun h => nomatch h), fun h => nomatch h⟩
  have hiac (verb : Verb) :
      DecoderState.command = .negotiate verb ↔ [Code.iac] = [Code.iac, verb.toByte] :=
    ⟨(fun h => nomatch h), fun h => nomatch (List.cons.inj h).2⟩
  revert h
  generalize part.length = count at htake hlt
  subst htake
  intro h
  cases item with
  | data byte hb =>
    match count, hlt with
    | 0, _ => exact ⟨_, .nil _, rfl, hnone⟩
  | literal | command =>
    match count, hlt with
    | 0, _ => exact ⟨_, .nil _, rfl, hnone⟩
    | 1, _ => exact ⟨_, quiet_iac, rfl, hiac⟩
  | negotiation verb option =>
    match count, hlt with
    | 0, _ => exact ⟨_, .nil _, rfl, hnone⟩
    | 1, _ => exact ⟨_, quiet_iac, rfl, hiac⟩
    | 2, _ =>
      refine ⟨_, quiet_verb verb, rfl, fun verb' => ⟨?_, fun hpart => ?_⟩⟩
      · rintro ⟨⟩
        rfl
      · have hverb : verb.toByte = verb'.toByte := (List.cons.inj (List.cons.inj hpart).2).1
        rw [Item.toByte_inj hverb]
  | subnegotiation body =>
    match count, hlt with
    | 0, _ => exact ⟨_, .nil _, rfl, hnone⟩
    | 1, _ => exact ⟨_, quiet_iac, rfl, hiac⟩
    | count + 2, _ =>
      let rest := body.flatMap Fragment.bytes ++ Fragment.terminator
      have hfront : rest.take count ++ more = rest := (List.cons.inj (List.cons.inj h).2).2
      have hpart : (Item.subnegotiation body).bytes.take (count + 2) =
          [Code.iac, Code.sb] ++ rest.take count := rfl
      have hsb (front : Bytes) (verb : Verb) :
          [Code.iac, Code.sb] ++ front ≠ [Code.iac, verb.toByte] := by
        intro heq
        have hverb : Code.sb = verb.toByte := (List.cons.inj (List.cons.inj heq).2).1
        cases verb <;> exact absurd hverb (by decide)
      rw [hpart]
      obtain ⟨done, hdone | hdone⟩ := exists_fragments hmore hfront
      · rw [hdone]
        exact ⟨_, quiet_sb.append (quiet_body done), rfl, fun verb =>
          ⟨(fun h => nomatch h), fun h => absurd h (hsb _ verb)⟩⟩
      · rw [hdone]
        exact ⟨_, quiet_sb.append ((quiet_body done).append quiet_gather_iac), rfl, fun verb =>
          ⟨(fun h => nomatch h), fun h => absurd h (hsb _ verb)⟩⟩

end Place

end Telnet
end RemoteTerminal
