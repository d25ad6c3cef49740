/-
# Frames delimit themselves

A frame whose option is not `IAC` is read as the content it was made of (`ReadsAs`): it makes
no payload, it ends where it ends, and what follows is decoded as if the frame were not there,
but for what the content comes to.  That is so from every codec that is between two items.

The byte `IAC` stands undoubled in the place of the option.  A frame of that option is
misread (`misread`), by its payload:

| payload | read as |
| --- | --- |
| `IAC … IAC` | a subnegotiation that goes on |
| `IAC … IAC SE more` | a subnegotiation of `IAC … IAC`, then `more` as data |
| `IAC … IAC byte more` | a subnegotiation of `IAC … IAC more` |

No step looks at what was said or learned before (`Past`) nor, between two items, at what was
kept (`tidy`), so what follows a frame is decoded as it is alone.
-/

import RemoteTerminal.Proofs.Telnet.Containment
import RemoteTerminal.Proofs.Telnet.Framing

namespace RemoteTerminal
namespace Telnet

/-! ### What decoding passes by -/

/-- What a codec had said and not handed over, and had learned of its peer. -/
structure Past where
  replies : Bytes := []
  peerTerminalType : Option String := none
  peerWindow : Option WindowSize := none

/-- What comes of the content of a subnegotiation, after this. -/
def Past.heed (role : Role) (terminal : Terminal) (content : Bytes) (p : Past) : Past where
  replies := p.replies ++ (askedReport? role terminal content).getD []
  peerTerminalType := (reportedType? role content).or p.peerTerminalType
  peerWindow := (reportedWindow? role content).or p.peerWindow

namespace Codec

/-- What lies behind a codec. -/
def past (c : Codec) : Past := ⟨c.replies, c.peerTerminalType, c.peerWindow⟩

/-- The codec with more behind it. -/
def since (p : Past) (c : Codec) : Codec :=
  { c with
    replies := p.replies ++ c.replies
    peerTerminalType := c.peerTerminalType.or p.peerTerminalType
    peerWindow := c.peerWindow.or p.peerWindow }

/-- The codec without what it kept of a subnegotiation that is over. -/
def tidy (c : Codec) : Codec :=
  match c.state with
  | .gather | .gatherCommand => c
  | .data | .command | .negotiate _ => { c with gathered := [], overflow := false }

/-- The codec with nothing behind it. -/
def afresh (c : Codec) : Codec :=
  { c.tidy with replies := [], peerTerminalType := none, peerWindow := none }

theorem since_past_afresh (c : Codec) : c.afresh.since c.past = c.tidy := by
  obtain ⟨role, terminal, flags, announced, state⟩ := c
  cases state <;> simp [afresh, since, past, tidy]

/-- A change of the codec that no byte finds out about. -/
def Unseen (change : Codec → Codec) : Prop :=
  ∀ byte c, (change c).step byte = ((c.step byte).1, change (c.step byte).2)

/-- Nor does a stream find out about it. -/
theorem Unseen.decode {change : Codec → Codec} (h : Unseen change) (data : Bytes) (c : Codec) :
    (change c).decode data = ((c.decode data).1, change (c.decode data).2) := by
  induction data generalizing c with
  | nil => rfl
  | cons byte rest ih => simp only [Codec.decode, h byte c, ih]

/-! What is said goes after what was said before. -/

variable (p : Past) (c : Codec)

theorem reply_since (bytes : Bytes) : (c.since p).reply bytes = (c.reply bytes).since p := by
  simp [reply, since]

theorem sayVerb_since (verb : Verb) (option : TelnetOption) :
    (c.since p).sayVerb verb option =
      ((c.sayVerb verb option).1, (c.sayVerb verb option).2.since p) :=
  Prod.ext rfl (reply_since p { c with announced := c.announced.say verb option } _)

theorem announce_since (verb : Verb) (option : TelnetOption) :
    (c.since p).announce verb option =
      ((c.announce verb option).1, (c.announce verb option).2.since p) := by
  unfold announce
  by_cases h : c.announced.repeats verb option = true
  · have h' : (c.since p).announced.repeats verb option = true := h
    rw [if_pos h, if_pos h']
  · have h' : ¬(c.since p).announced.repeats verb option = true := h
    rw [if_neg h, if_neg h']
    exact sayVerb_since p c verb option

theorem followUp_since (next : FollowUp) :
    (c.since p).followUp next = ((c.followUp next).1, (c.followUp next).2.since p) := by
  cases next with
  | nothing => rfl
  | reportWindow | askTerminalType => exact Prod.ext rfl (reply_since p c _)

theorem negotiate_since (verb : Verb) (option : TelnetOption) :
    (c.since p).negotiate verb option =
      ((c.negotiate verb option).1, (c.negotiate verb option).2.since p) := by
  have hrespond : respond (c.since p).role option verb = respond c.role option verb := rfl
  have hflags : (c.since p).flags = c.flags := rfl
  unfold negotiate
  rw [hrespond, hflags]
  cases respond c.role option verb with
  | ignore => rfl
  | refuse answer =>
    dsimp only
    rw [sayVerb_since]
  | agree on answer next =>
    let comesOn := on && !c.flags.isOn option
    let agreed (c : Codec) : List Note × Codec :=
      let said := c.announce answer option
      let followed := if comesOn then said.2.followUp next else ([], said.2)
      ([.debug s!"Received {verb} {option}"] ++ said.1 ++ followed.1, followed.2)
    have hagreed (c : Codec) : agreed (c.since p) = ((agreed c).1, (agreed c).2.since p) := by
      simp only [agreed]
      rw [announce_since]
      split
      · rw [followUp_since]
      · rfl
    exact hagreed { c with flags := c.flags.set option on }

theorem gather_since (byte : UInt8) :
    (c.since p).gather byte = ((c.gather byte).1, (c.gather byte).2.since p) := by
  have hgathered : (c.since p).gathered = c.gathered := rfl
  unfold gather
  rw [hgathered]
  split <;> rfl

theorem interpret_since (byte : UInt8) :
    (c.since p).interpret byte = ((c.interpret byte).1, (c.interpret byte).2.since p) := by
  unfold interpret
  split
  · rfl
  · split <;> rfl

theorem handle_since (option : UInt8) (data : Bytes) :
    (c.since p).handle option data =
      (c.handle option data).map fun told => (told.1, told.2.since p) := by
  have hreport {notes : List Note} {report : Bytes} (verb : UInt8) :
      (afterVerb option verb data).map (fun _ => (notes, (c.since p).reply report)) =
        ((afterVerb option verb data).map fun _ => (notes, c.reply report)).map
          fun told => (told.1, told.2.since p) := by
    rw [reply_since]
    cases afterVerb option verb data <;> rfl
  have hrole : (c.since p).role = c.role := rfl
  unfold handle
  rw [hrole]
  cases c.role with
  | client =>
    cases TelnetOption.ofByte option with
    | terminalType | terminalSpeed | environment => exact hreport Code.send
    | binary | echo | suppressGoAhead | windowSize | unknown => rfl
  | server =>
    cases TelnetOption.ofByte option with
    | terminalType =>
      dsimp only
      cases readTerminalType data <;> rfl
    | windowSize =>
      dsimp only
      cases WindowSize.ofBytes data <;> rfl
    | binary | echo | suppressGoAhead | terminalSpeed | environment | unknown => rfl

theorem finish_since :
    (c.since p).finish = (c.finish.1, c.finish.2.since p) := by
  have hoverflow : (c.since p).overflow = c.overflow := rfl
  have hgathered : (c.since p).gathered = c.gathered := rfl
  unfold finish
  dsimp only
  rw [hoverflow, hgathered]
  split
  · rfl
  · split
    · rfl
    · rename_i option data _
      have hhandle : ({ c.since p with gathered := [], overflow := false } : Codec).handle option
          data = _ := handle_since p { c with gathered := [], overflow := false } option data
      rw [hhandle]
      cases ({ c with gathered := [], overflow := false } : Codec).handle option data <;> rfl

/-- What was said and learned before is nothing to the decoder. -/
theorem unseen_since (p : Past) : Unseen (since p) := by
  intro byte c
  have hstate : (c.since p).state = c.state := rfl
  unfold step
  rw [hstate]
  cases c.state with
  | data =>
    dsimp only
    split <;> rfl
  | command =>
    dsimp only
    split
    · rfl
    · rw [interpret_since]
  | negotiate verb =>
    exact congrArg (fun told : List Note × Codec => (({ notes := told.1 } : Decoded), told.2))
      (negotiate_since p { c with state := .data } verb _)
  | gather =>
    dsimp only
    split
    · rfl
    · rw [gather_since]
  | gatherCommand =>
    dsimp only
    split
    · exact congrArg (fun told : List Note × Codec => (({ notes := told.1 } : Decoded), told.2))
        (gather_since p { c with state := .gather } Code.iac)
    · split
      · exact congrArg (fun told : List Note × Codec => (({ notes := told.1 } : Decoded), told.2))
          (finish_since p { c with state := .data })
      · rfl

/-- What a verb comes to has nothing to do with the place, what is noted of it included. -/
theorem negotiate_standing (p : Place) (verb : Verb) (option : TelnetOption) (c : Codec) :
    (c.standing p).negotiate verb option =
      ((c.negotiate verb option).1, (c.negotiate verb option).2.standing p) := by
  refine Prod.ext ?_ (by rw [negotiate_eq, negotiate_eq]; rfl)
  have hrespond : respond (c.standing p).role option verb = respond c.role option verb := rfl
  unfold negotiate
  rw [hrespond]
  cases respond c.role option verb with
  | ignore | refuse => rfl
  | agree on answer next =>
    dsimp only [standing, announce]
    split <;> split <;> cases next <;> rfl

/-- Between two items, tidying takes the decoder to where it should be. -/
theorem tidy_between {c : Codec} (hstate : c.state = .data) :
    c.tidy = c.standing (.between c.pendingCr) := by
  rw [standing_between hstate]
  unfold tidy
  rw [hstate]

theorem tidy_finish {c : Codec} (hstate : c.state = .data) : c.finish.2.tidy = c.finish.2 := by
  obtain ⟨asked, name, window, hfinish⟩ := exists_finish c
  rw [hfinish]
  unfold tidy tell
  dsimp only
  rw [hstate]

/-- Nor is what was kept of a subnegotiation that is over. -/
theorem unseen_tidy : Unseen tidy := by
  intro byte c
  obtain ⟨role, terminal, flags, announced, state, pendingCr, gathered, overflow, replies, name,
    window⟩ := c
  cases state with
  | data =>
    dsimp only [tidy, step]
    split <;> rfl
  | command =>
    dsimp only [tidy, step]
    split
    · rfl
    · unfold interpret
      split
      · rfl
      · split <;> rfl
  | negotiate verb =>
    let c : Codec := ⟨role, terminal, flags, announced, .data, pendingCr, gathered, overflow, replies,
      name, window⟩
    let option := TelnetOption.ofByte byte
    have htidy : (c.negotiate verb option).2.tidy =
        (c.negotiate verb option).2.standing (.between pendingCr) := by
      rw [negotiate_eq]
      rfl
    dsimp only [step]
    rw [htidy]
    exact congrArg (fun told : List Note × Codec => (({ notes := told.1 } : Decoded), told.2))
      (negotiate_standing (.between pendingCr) verb option c)
  | gather =>
    dsimp only [tidy, step]
    split
    · rfl
    · unfold gather
      split <;> rfl
  | gatherCommand =>
    dsimp only [tidy, step]
    split
    · unfold gather
      split <;> rfl
    · split
      · let c : Codec := ⟨role, terminal, flags, announced, .data, pendingCr, gathered, overflow,
          replies, name, window⟩
        exact Prod.ext rfl (tidy_finish (c := c) rfl).symm
      · rfl

/-! ### Frames -/

/-- That `wire` is read as one subnegotiation of `content`. -/
structure ReadsAs (wire content : Bytes) (c : Codec) : Prop where
  /-- Before its last byte, all of the content was gathered and no more. -/
  held : (c.decode wire.dropLast).2 = c.standing (.holding c.pendingCr .gatherCommand content)
  silent : (c.decode wire).1.payload = []
  ended : (c.decode wire).2.state = .data
  dropped : subnegotiationLimit < content.length → (c.decode wire).2 = c.tidy
  /-- What follows makes the same payload, with the same notes. -/
  follows : ∀ pieces rest, pieces.flatten = wire ++ rest →
    (c.decodeAll pieces).1 =
      ⟨(c.decode rest).1.payload, (c.decode wire).1.notes ++ (c.decode rest).1.notes⟩
  /-- It takes the codec where it takes it alone, but for what is behind it. -/
  leaves : ∀ pieces rest, pieces.flatten = wire ++ rest →
    (c.decode rest).2.tidy = (c.afresh.decode rest).2.since c.past ∧
      (c.decodeAll pieces).2 =
        (c.afresh.decode rest).2.since (c.past.heed c.role c.terminal content)

variable {cr : Bool} {content front : Bytes} {c : Codec}

/-- What bytes come to after anything, beside what they come to alone. -/
theorem decode_alone (c : Codec) (rest : Bytes) :
    (c.decode rest).1 = (c.afresh.decode rest).1 ∧
      (c.decode rest).2.tidy = (c.afresh.decode rest).2.since c.past := by
  have htidy := unseen_tidy.decode rest c
  have hsince := (unseen_since c.past).decode rest c.afresh
  rw [since_past_afresh, htidy] at hsince
  exact Prod.mk.inj hsince

/-- What comes of a content, as something more that is behind the codec. -/
theorem act_tidy (hstate : c.state = .data) (content : Bytes) :
    c.tidy.act content = c.afresh.since (c.past.heed c.role c.terminal content) := by
  rw [act_eq_reported, afresh, tidy_between hstate]
  simp [since, past, Past.heed, standing]

/-- What is read as a content begins as a subnegotiation and ends with `SE`. -/
theorem ReadsAs.intro (hstate : c.state = .data)
    (hquiet : (Place.holding c.pendingCr .gather []).Quiet front
      (.holding c.pendingCr .gatherCommand content)) :
    c.ReadsAs ([Code.iac, Code.sb] ++ front ++ [Code.se]) content := by
  obtain ⟨hpayload, hact⟩ := decode_held hstate hquiet
  rw [← standing_between hstate, ← tidy_between hstate] at hact
  rw [← List.append_assoc] at hpayload hact
  have hafter := hact.trans (act_tidy hstate content)
  generalize hwire : [Code.iac, Code.sb] ++ front ++ [Code.se] = wire at *
  have hall {pieces : List Bytes} {rest : Bytes} (hpieces : pieces.flatten = wire ++ rest) :
      c.decodeAll pieces =
        ((c.decode wire).1 ++ (c.afresh.decode rest).1,
          (c.afresh.decode rest).2.since (c.past.heed c.role c.terminal content)) := by
    rw [decodeAll_eq_decode, hpieces, decode_append, hafter, (unseen_since _).decode]
  exact {
    held := by
      rw [← hwire, List.dropLast_concat, decode_sb hstate]
      exact (hquiet c).2
    silent := hpayload
    ended := by
      rw [hact, tidy_between hstate, act_standing]
      rfl
    dropped := fun hlong => hact.trans (if_pos hlong)
    follows := fun pieces rest hpieces => by
      rw [hall hpieces, (decode_alone c rest).1]
      have hsilent : (c.decode wire).1.payload = [] := hpayload
      show Decoded.mk _ _ = _
      rw [hsilent]
      rfl
    leaves := fun pieces rest hpieces => ⟨(decode_alone c rest).2, by rw [hall hpieces]⟩ }

end Codec

/-- How the frame of the option `IAC` is read. -/
inductive Misreading where
  /-- It ends where it ends. -/
  | whole (content : Bytes)
  /-- It ends early, and there is more. -/
  | early (content more : Bytes)
  /-- It goes on. -/
  | unended (content : Bytes)
  deriving DecidableEq, Repr

/-- How a payload is read after an `IAC` that is taken for the first of two. -/
def misread (kept : Bytes) : Bytes → Misreading
  | [] => .unended (kept ++ [Code.iac, Code.se])
  | byte :: rest =>
    if byte = Code.iac then misread (kept ++ [Code.iac]) rest
    else if byte = Code.se then .early kept rest
    else .whole (kept ++ rest)

/-- A frame that is misread and ends where it ends has lost its option and a byte. -/
theorem length_misread {kept payload content : Bytes} (h : misread kept payload = .whole content) :
    content.length + 1 = kept.length + payload.length := by
  induction payload generalizing kept with
  | nil => cases h
  | cons byte rest ih =>
    rw [misread] at h
    split at h
    · have hrest := ih h
      simp at hrest ⊢
      omega
    · split at h
      · cases h
      · cases h
        simp
        omega

namespace Place

/-- **A misread payload** does to the decoder what it is read as. -/
theorem quiet_misread (cr : Bool) (payload kept : Bytes) :
    match misread kept payload with
    | .whole content => Quiet (holding cr .gatherCommand kept) (doubleIac payload ++ [Code.iac])
        (holding cr .gatherCommand content)
    | .early content more => ∃ front, doubleIac payload = front ++ [Code.se] ++ doubleIac more ∧
        Quiet (holding cr .gatherCommand kept) front (holding cr .gatherCommand content)
    | .unended content => Quiet (holding cr .gatherCommand kept)
        (doubleIac payload ++ [Code.iac, Code.se]) (holding cr .gather content) := by
  have hliteral {kept : Bytes} : Quiet (holding cr .gatherCommand kept) [Code.iac, Code.iac]
      (holding cr .gatherCommand (kept ++ [Code.iac])) := quiet_literal.append quiet_gather_iac
  induction payload generalizing kept with
  | nil =>
    have hse : Quiet (holding cr .gather (kept ++ [Code.iac])) [Code.se]
        (holding cr .gather (kept ++ [Code.iac] ++ [Code.se])) :=
      quiet_fragment (.plain Code.se (by decide))
    rw [List.append_assoc] at hse
    exact quiet_literal.append hse
  | cons byte rest ih =>
    by_cases hi : byte = Code.iac
    · subst hi
      have hmisread : misread kept (Code.iac :: rest) = misread (kept ++ [Code.iac]) rest := rfl
      have hdouble : doubleIac (Code.iac :: rest) = [Code.iac, Code.iac] ++ doubleIac rest := rfl
      have hrest := ih (kept ++ [Code.iac])
      rw [hmisread, hdouble]
      split at hrest
      · rw [List.append_assoc]
        exact hliteral.append hrest
      · obtain ⟨front, hfront, hquiet⟩ := hrest
        exact ⟨[Code.iac, Code.iac] ++ front, by rw [hfront]; simp, hliteral.append hquiet⟩
      · rw [List.append_assoc]
        exact hliteral.append hrest
    · have hdouble : doubleIac (byte :: rest) = [byte] ++ doubleIac rest := by
        simp [doubleIac, hi]
      rw [hdouble, misread, if_neg hi]
      by_cases hs : byte = Code.se
      · subst hs
        rw [if_pos rfl]
        exact ⟨[], rfl, .nil _⟩
      · rw [if_neg hs, List.append_assoc]
        exact (quiet_lost hi hs).append ((quiet_doubleIac rest).append quiet_gather_iac)

end Place

/-- The framed form of a text has every `IAC` doubled. -/
theorem exists_doubleIac_encode (binary : Bool) (data : Bytes) :
    ∃ text, encode binary data = doubleIac text := by
  have hcons {byte : UInt8} (h : byte ≠ Code.iac) (text : Bytes) :
      byte :: doubleIac text = doubleIac (byte :: text) := by simp [doubleIac, h]
  induction data using units_induction binary with
  | nil => exact ⟨[], rfl⟩
  | escape rest ih =>
    obtain ⟨text, htext⟩ := ih
    exact ⟨Code.iac :: text, by rw [encode_escape, htext]; rfl⟩
  | newline hb rest ih =>
    subst hb
    obtain ⟨text, htext⟩ := ih
    exact ⟨Code.cr :: Code.lf :: text, by
      rw [encode_newline, htext, hcons (by decide), hcons (by decide)]⟩
  | bare hb rest hn ih =>
    subst hb
    obtain ⟨text, htext⟩ := ih
    exact ⟨Code.cr :: Code.nul :: text, by
      rw [encode_bare hn, htext, hcons (by decide), hcons (by decide)]⟩
  | plain byte rest hi hc ih =>
    obtain ⟨text, htext⟩ := ih
    exact ⟨byte :: text, by rw [encode_plain _ hi hc, htext, hcons hi]⟩

namespace Codec

variable {c : Codec}

/-- **A frame is read as what it was made of, unless its option is `IAC`.**  Then the option is
taken for the first of two `IAC`: the frame is read as something else, or it does not end and
all that is framed after it is swallowed. -/
theorem frames_read (hstate : c.state = .data) (option : UInt8) (payload : Bytes) :
    (option ≠ Code.iac → c.ReadsAs (frame option payload) (option :: payload)) ∧
      (option = Code.iac →
        match misread [] payload with
        | .whole content =>
          content ≠ option :: payload ∧ c.ReadsAs (frame option payload) content
        | .early content more => ∃ wire,
          frame option payload = wire ++ doubleIac more ++ [Code.iac, Code.se] ∧
            c.ReadsAs wire content
        | .unended content => ∀ binary data, ∃ kept,
          let swallowed := c.decode (frame option payload ++ Telnet.encode binary data)
          swallowed.1.payload = [] ∧
            swallowed.2 = c.standing (.holding c.pendingCr .gather (content ++ kept))) := by
  constructor
  · intro hoption
    have hframe : frame option payload =
        [Code.iac, Code.sb] ++ (doubleIac (option :: payload) ++ [Code.iac]) ++ [Code.se] := by
      simp [frame, doubleIac, hoption]
    rw [hframe]
    exact .intro hstate ((Place.quiet_doubleIac _).append Place.quiet_gather_iac)
  · rintro rfl
    have hoption : (Place.holding c.pendingCr .gather []).Quiet [Code.iac]
        (.holding c.pendingCr .gatherCommand []) := Place.quiet_gather_iac
    have hpayload := Place.quiet_misread c.pendingCr payload []
    split at hpayload
    · rename_i content hmisread
      have hframe : frame Code.iac payload = [Code.iac, Code.sb] ++
          ([Code.iac] ++ (doubleIac payload ++ [Code.iac])) ++ [Code.se] := by simp [frame]
      refine ⟨fun hcontent => ?_, hframe ▸ .intro hstate (hoption.append hpayload)⟩
      have hlength := length_misread hmisread
      rw [hcontent, List.length_cons, List.length_nil] at hlength
      omega
    · obtain ⟨front, hfront, hquiet⟩ := hpayload
      refine ⟨_, ?_, .intro hstate (hoption.append hquiet)⟩
      simp [frame, hfront]
    · rename_i content hmisread
      intro binary data
      obtain ⟨text, htext⟩ := exists_doubleIac_encode binary data
      have hswallowed := (hoption.append hpayload).append (Place.quiet_doubleIac text) c
      have hframe : frame Code.iac payload ++ Telnet.encode binary data = [Code.iac, Code.sb] ++
          ([Code.iac] ++ (doubleIac payload ++ [Code.iac, Code.se]) ++ doubleIac text) := by
        simp [frame, htext]
      rw [hframe, decode_sb hstate]
      exact ⟨text, hswallowed⟩

/-- A server that is asked for a window of 255 columns by a frame. -/
theorem frames_read_windowReport :
    let server : Codec := { role := .server, pendingCr := true }
    server.state = .data ∧
      server.ReadsAs (frame TelnetOption.windowSize.toByte [0, 255, 0, 50]) [31, 0, 255, 0, 50] :=
  ⟨rfl, (frames_read rfl _ _).1 (by decide)⟩

/-- A letter is payload, but not after the empty frame of the option `IAC`. -/
theorem letter_swallowed :
    let client : Codec := {}
    let swallowed := client.decode (frame Code.iac [] ++ [65])
    client.state = .data ∧ (client.decode [65]).1.payload = [65] ∧
      swallowed.1.payload = [] ∧ swallowed.2.state = .gather ∧
      swallowed.2.gathered = [255, 240, 65] := by
  decide

end Codec
end Telnet
end RemoteTerminal
