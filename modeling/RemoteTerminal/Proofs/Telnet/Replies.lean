/-
# What a codec says by itself

A codec that is never told to leave binary mode never tells its peer to.  The bytes
that end binary mode are `WONT BINARY` and `DONT BINARY`, the two that do not sustain
it (`Verb.Sustains`); a stream `Keeps` the mode if no byte of it completes one of these.
What a codec says while it reads such a stream, or when it starts, is protocol from its
first byte to its last (`Lawful`): a reader gets no payload of it, stands between two
items after it as before, and keeps the mode in turn (`speaks_decode`, `speaks_start`).

The other way round, whoever has said `WILL BINARY` has switched its reader to binary
mode (`Raises`).  The codec's own record of what it said tells whether it has
(`Codec.OffersBinary`), and a start sees to it (`offersBinary_start`).
-/

import RemoteTerminal.Proofs.Telnet.Reader

namespace RemoteTerminal
namespace Telnet

/-! ### Streams that keep binary mode -/

/-- A verb other than `WONT BINARY` and `DONT BINARY`. -/
def Verb.Sustains (verb : Verb) (option : TelnetOption) : Prop :=
  option = .binary → verb.isPositive = true

/-- Such a verb leaves binary mode on. -/
theorem Flags.binaryMode_heed {role : Role} {verb : Verb} {option : TelnetOption} {f : Flags}
    (h : verb.Sustains option) (hb : f.binaryMode = true) :
    (f.heed role verb option).binaryMode = true := by
  by_cases ho : option = .binary
  · subst ho
    cases verb with
    | will | «do» => cases role <;> rfl
    | wont | dont => cases h rfl
  · unfold heed
    split
    · rename_i on answer next heq
      exact (isOn_set_of_ne f on (Ne.symm ho)).trans hb
    · exact hb

namespace Reader

/-- Whether a byte completes a verb that switches binary mode off. -/
def Drops (byte : UInt8) (r : Reader) : Prop :=
  ∃ verb, r.state = .negotiate verb ∧ ¬verb.Sustains (TelnetOption.ofByte byte)

/-- No byte of a stream completes such a verb. -/
def Keeps : Bytes → Reader → Prop
  | [], _ => True
  | byte :: rest, r => ¬r.Drops byte ∧ Keeps rest (r.step byte).2

theorem keeps_append (a b : Bytes) (r : Reader) :
    r.Keeps (a ++ b) ↔ r.Keeps a ∧ (r.read a).2.Keeps b := by
  induction a generalizing r with
  | nil => exact ⟨fun h => ⟨trivial, h⟩, fun h => h.2⟩
  | cons byte rest ih =>
    show ¬r.Drops byte ∧ (r.step byte).2.Keeps (rest ++ b) ↔ _
    rw [ih]
    exact and_assoc.symm

theorem not_drops_of_state {byte : UInt8} {r : Reader} (h : ∀ verb, r.state ≠ .negotiate verb) :
    ¬r.Drops byte := fun ⟨verb, hs, _⟩ => h verb hs

theorem sustains_of_not_drops {byte : UInt8} {r : Reader} (h : ¬r.Drops byte) {verb : Verb}
    (hs : r.state = .negotiate verb) : verb.Sustains (TelnetOption.ofByte byte) :=
  Classical.byContradiction fun hn => h ⟨verb, hs, hn⟩

/-- Only the byte that completes a verb changes a flag. -/
theorem flags_step {byte : UInt8} {r : Reader} (h : ∀ verb, r.state ≠ .negotiate verb) :
    (r.step byte).2.flags = r.flags := by
  unfold step
  split
  · split <;> rfl
  · split
    · rfl
    · split
      · rfl
      · split <;> rfl
  · rename_i verb hs
    exact absurd hs (h verb)
  · dsimp only
    split <;> rfl
  · rfl

/-- What only a verb can end goes on over a stream that keeps it. -/
theorem binaryMode_read {data : Bytes} {r : Reader} (h : r.Keeps data)
    (hb : r.flags.binaryMode = true) : (r.read data).2.flags.binaryMode = true := by
  induction data generalizing r with
  | nil => exact hb
  | cons byte rest ih =>
    have hstep : (r.step byte).2.flags.binaryMode = true := by
      by_cases hs : ∃ verb, r.state = .negotiate verb
      · obtain ⟨verb, hs⟩ := hs
        have hheed : (r.step byte).2.flags =
            r.flags.heed r.role verb (TelnetOption.ofByte byte) := by
          rw [step, hs]
        rw [hheed]
        exact Flags.binaryMode_heed (sustains_of_not_drops h.1 hs) hb
      · rw [flags_step fun verb he => hs ⟨verb, he⟩]
        exact hb
    exact ih h.2 hstep

/-- Bytes that take a reader to another one, all of them protocol, with no verb among
them that ends binary mode. -/
structure Passes (r : Reader) (bytes : Bytes) (r' : Reader) : Prop where
  keeps : r.Keeps bytes
  read_eq : r.read bytes = ([], r')

namespace Passes

theorem nil (r : Reader) : r.Passes [] r := ⟨trivial, rfl⟩

theorem append {r r' r'' : Reader} {a b : Bytes} (ha : r.Passes a r') (hb : r'.Passes b r'') :
    r.Passes (a ++ b) r'' := by
  refine ⟨(keeps_append a b r).2 ⟨ha.keeps, ?_⟩, ?_⟩
  · rw [ha.read_eq]
    exact hb.keeps
  · rw [read_append, ha.read_eq, hb.read_eq]
    rfl

/-- One byte, at a place where it cannot complete a verb. -/
theorem byte {r r' : Reader} {byte : UInt8} (hs : ∀ verb, r.state ≠ .negotiate verb)
    (h : r.step byte = ([], r')) : r.Passes [byte] r' := by
  refine ⟨⟨not_drops_of_state hs, trivial⟩, ?_⟩
  rw [read, h]
  rfl

/-- The byte that completes a verb. -/
theorem option {r : Reader} {byte : UInt8} {verb : Verb} (hs : r.state = .negotiate verb)
    (h : verb.Sustains (TelnetOption.ofByte byte)) :
    r.Passes [byte]
      { r with state := .data, flags := r.flags.heed r.role verb (TelnetOption.ofByte byte) } := by
  refine ⟨⟨?_, trivial⟩, ?_⟩
  · rintro ⟨verb', hs', hn⟩
    obtain rfl := DecoderState.negotiate.inj (hs.symm.trans hs')
    exact hn h
  · rw [read, step, hs]
    rfl

end Passes
end Reader

/-- Protocol from the first byte to the last: of a reader between two items it changes
no more than the flags, and it does not end binary mode. -/
def Lawful (bytes : Bytes) : Prop :=
  ∀ r : Reader, r.state = .data → ∃ flags, r.Passes bytes { r with flags }

/-- Bytes by which every reader comes to binary mode. -/
def Raises (bytes : Bytes) : Prop :=
  ∀ r : Reader, r.state = .data → (r.read bytes).2.flags.binaryMode = true

theorem lawful_nil : Lawful [] := fun r _ => ⟨r.flags, .nil r⟩

theorem Lawful.append {a b : Bytes} (ha : Lawful a) (hb : Lawful b) : Lawful (a ++ b) := by
  intro r hr
  obtain ⟨flags, ha⟩ := ha r hr
  obtain ⟨flags', hb⟩ := hb { r with flags } hr
  exact ⟨flags', ha.append hb⟩

theorem not_raises_nil : ¬Raises [] := fun h => nomatch h ⟨.client, {}, .data, false⟩ rfl

theorem Raises.append_lawful {a b : Bytes} (h : Raises a) (ha : Lawful a) (hb : Lawful b) :
    Raises (a ++ b) := by
  intro r hr
  have hraised := h r hr
  obtain ⟨flags, ha⟩ := ha r hr
  obtain ⟨flags', hb⟩ := hb { r with flags } hr
  rw [ha.read_eq] at hraised
  rw [Reader.read_append, ha.read_eq]
  exact Reader.binaryMode_read hb.keeps hraised

theorem Lawful.append_raises {a b : Bytes} (ha : Lawful a) (h : Raises b) : Raises (a ++ b) := by
  intro r hr
  obtain ⟨flags, ha⟩ := ha r hr
  rw [Reader.read_append, ha.read_eq]
  exact h { r with flags } hr

/-! ### The two things that are said -/

/-- The two bytes before the option of a verb. -/
theorem passes_verb (verb : Verb) {r : Reader} (hr : r.state = .data) :
    r.Passes [Code.iac, verb.toByte] { r with state := .negotiate verb } := by
  obtain ⟨role, flags, state, pendingCr⟩ := r
  subst hr
  have hiac : Reader.Passes ⟨role, flags, .data, pendingCr⟩ [Code.iac]
      ⟨role, flags, .command, pendingCr⟩ := .byte (fun _ => by simp) rfl
  exact hiac.append (.byte (fun _ => by simp) (by cases verb <;> rfl))

theorem lawful_verb {verb : Verb} {byte : UInt8} (h : verb.Sustains (TelnetOption.ofByte byte)) :
    Lawful [Code.iac, verb.toByte, byte] := by
  intro r hr
  have hoption := Reader.Passes.option (r := { r with state := .negotiate verb }) rfl h
  have hverb := (passes_verb verb hr).append hoption
  rw [← hr] at hverb
  exact ⟨_, hverb⟩

theorem raises_willBinary : Raises [Code.iac, Verb.will.toByte, TelnetOption.binary.toByte] := by
  intro r hr
  obtain ⟨role, flags, state, pendingCr⟩ := r
  subst hr
  cases role <;> rfl

/-- Inside a frame doubled bytes are kept, whatever they are. -/
theorem passes_doubleIac (payload : Bytes) {r : Reader} (hr : r.state = .gather) :
    r.Passes (doubleIac payload) r := by
  obtain ⟨role, flags, state, pendingCr⟩ := r
  subst hr
  induction payload with
  | nil => exact .nil _
  | cons byte rest ih =>
    have hone : Reader.Passes ⟨role, flags, .gather, pendingCr⟩ (doubleIac [byte])
        ⟨role, flags, .gather, pendingCr⟩ := by
      by_cases hi : byte = Code.iac
      · subst hi
        have hiac : Reader.Passes ⟨role, flags, .gather, pendingCr⟩ [Code.iac]
            ⟨role, flags, .gatherCommand, pendingCr⟩ := .byte (fun _ => by simp) rfl
        exact hiac.append (.byte (fun _ => by simp) rfl)
      · have hsingle : doubleIac [byte] = [byte] := by simp [doubleIac, hi]
        rw [hsingle]
        exact .byte (fun _ => by simp) (by simp [Reader.step, hi])
    exact doubleIac_append [byte] rest ▸ hone.append ih

/-- A frame is taken as a whole. -/
theorem lawful_frame {option : UInt8} (h : option ≠ Code.iac) (payload : Bytes) :
    Lawful (frame option payload) := by
  intro r hr
  obtain ⟨role, flags, state, pendingCr⟩ := r
  subst hr
  refine ⟨flags, ?_⟩
  have hiac : Reader.Passes ⟨role, flags, .data, pendingCr⟩ [Code.iac]
      ⟨role, flags, .command, pendingCr⟩ := .byte (fun _ => by simp) rfl
  have hsb : Reader.Passes ⟨role, flags, .command, pendingCr⟩ [Code.sb]
      ⟨role, flags, .gather, pendingCr⟩ := .byte (fun _ => by simp) rfl
  have hoption : Reader.Passes ⟨role, flags, .gather, pendingCr⟩ [option]
      ⟨role, flags, .gather, pendingCr⟩ := .byte (fun _ => by simp) (by simp [Reader.step, h])
  have hcontent := passes_doubleIac payload (r := ⟨role, flags, .gather, pendingCr⟩) rfl
  have hend : Reader.Passes ⟨role, flags, .gather, pendingCr⟩ [Code.iac]
      ⟨role, flags, .gatherCommand, pendingCr⟩ := .byte (fun _ => by simp) rfl
  have hse : Reader.Passes ⟨role, flags, .gatherCommand, pendingCr⟩ [Code.se]
      ⟨role, flags, .data, pendingCr⟩ := .byte (fun _ => by simp) rfl
  exact ((((hiac.append hsb).append hoption).append hcontent).append (hend.append hse))

namespace Codec

/-- Whether the last thing that was said about one's own binary mode is `WILL`. -/
def OffersBinary (c : Codec) : Prop :=
  c.announced .own TelnetOption.binary.toByte = some .will

/-- One codec becomes another and says `bytes`, which are lawful, and by which it
offers binary mode unless it has done so before. -/
structure Says (c : Codec) (bytes : Bytes) (c' : Codec) : Prop where
  replies_eq : c'.replies = c.replies ++ bytes
  lawful : Lawful bytes
  offers : c.OffersBinary → c'.OffersBinary
  raises : c'.OffersBinary → c.OffersBinary ∨ Raises bytes

/-- One codec becomes another by saying something lawful. -/
def Speaks (c c' : Codec) : Prop := ∃ bytes, c.Says bytes c'

namespace Speaks

variable {c c' c'' : Codec}

/-- Saying nothing. -/
theorem of_eq (hreplies : c'.replies = c.replies) (hannounced : c'.announced = c.announced) :
    c.Speaks c' := by
  have hoffers : c'.OffersBinary ↔ c.OffersBinary := by rw [OffersBinary, hannounced, OffersBinary]
  exact ⟨[], by rw [hreplies, List.append_nil], lawful_nil, hoffers.2, fun h => .inl (hoffers.1 h)⟩

theorem refl (c : Codec) : c.Speaks c := of_eq rfl rfl

theorem trans (h : c.Speaks c') (h' : c'.Speaks c'') : c.Speaks c'' := by
  obtain ⟨bytes, h⟩ := h
  obtain ⟨more, h'⟩ := h'
  refine ⟨bytes ++ more, ?_, h.lawful.append h'.lawful, fun ho => h'.offers (h.offers ho),
    fun ho => ?_⟩
  · rw [h'.replies_eq, h.replies_eq, List.append_assoc]
  · rcases h'.raises ho with ho | hraises
    · rcases h.raises ho with ho | hraises
      · exact .inl ho
      · exact .inr (hraises.append_lawful h.lawful h'.lawful)
    · exact .inr (h.lawful.append_raises hraises)

/-- Saying a frame, which leaves no record. -/
theorem frame {option : UInt8} (h : option ≠ Code.iac) (payload : Bytes) :
    c.Speaks (c.reply (Telnet.frame option payload)) :=
  ⟨_, rfl, lawful_frame h payload, id, .inl⟩

end Speaks

/-- What is said about one's own binary mode can only be `WILL`. -/
theorem eq_will {verb : Verb} {option : TelnetOption}
    (h : verb.Sustains (TelnetOption.ofByte option.toByte))
    (hown : Side.own = verb.side) (hbinary : TelnetOption.binary.toByte = option.toByte) :
    verb = .will :=
  Verb.eq_of_side_of_isPositive hown.symm (h (by rw [← hbinary]; rfl))

/-- Any verb may be said but one that ends binary mode. -/
theorem speaks_sayVerb {verb : Verb} {option : TelnetOption}
    (h : verb.Sustains (TelnetOption.ofByte option.toByte)) (c : Codec) :
    c.Speaks (c.sayVerb verb option).2 := by
  have hrecord : (c.sayVerb verb option).2.announced = c.announced.say verb option := rfl
  by_cases hsame : Side.own = verb.side ∧ TelnetOption.binary.toByte = option.toByte
  · have hwill : verb = .will := eq_will h hsame.1 hsame.2
    refine ⟨[Code.iac, verb.toByte, option.toByte], rfl, lawful_verb h, fun _ => ?_, fun _ => ?_⟩
    · rw [OffersBinary, hrecord, hsame.1, hsame.2, Announced.say_self, hwill]
    · rw [hwill, ← hsame.2]
      exact .inr raises_willBinary
  · refine ⟨[Code.iac, verb.toByte, option.toByte], rfl, lawful_verb h, fun ho => ?_, fun ho => ?_⟩
    · rw [OffersBinary, hrecord, Announced.say_of_ne _ _ _ hsame]
      exact ho
    · rw [OffersBinary, hrecord, Announced.say_of_ne _ _ _ hsame] at ho
      exact .inl ho

theorem speaks_announce {verb : Verb} {option : TelnetOption}
    (h : verb.Sustains (TelnetOption.ofByte option.toByte)) (c : Codec) :
    c.Speaks (c.announce verb option).2 := by
  unfold announce
  split
  · exact .refl c
  · exact speaks_sayVerb h c

theorem speaks_announceAll {verbs : List (Verb × TelnetOption)}
    (h : ∀ pair ∈ verbs, pair.1.isPositive = true) (c : Codec) :
    c.Speaks (c.announceAll verbs).2 := by
  induction verbs generalizing c with
  | nil => exact .refl c
  | cons pair rest ih =>
    have hfirst := h pair (List.mem_cons_self ..)
    exact (speaks_announce (fun _ => hfirst) c).trans
      (ih (fun other hmem => h other (List.mem_cons_of_mem _ hmem)) _)

theorem speaks_start (c : Codec) : c.Speaks c.start.2 :=
  speaks_announceAll (by cases c.role <;> decide) c

/-- The first request of either role is about binary mode, and the ones after it do
not take it back. -/
theorem offersBinary_start (c : Codec) : c.start.2.OffersBinary := by
  obtain ⟨rest, hrest, hpositive⟩ : ∃ rest, initialRequests c.role = (.will, .binary) :: rest ∧
      ∀ pair ∈ rest, pair.1.isPositive = true := by
    cases c.role
    · exact ⟨_, rfl, by decide⟩
    · exact ⟨_, rfl, by decide⟩
  have hoffer : (c.announce .will .binary).2.OffersBinary := by
    unfold announce
    split
    · rename_i hrepeats
      have hsaid : c.announced .own TelnetOption.binary.toByte = some .will :=
        of_decide_eq_true hrepeats
      exact hsaid
    · exact Announced.say_self c.announced .will .binary
  obtain ⟨bytes, hspoke⟩ := speaks_announceAll hpositive (c.announce .will .binary).2
  unfold start
  rw [hrest]
  exact hspoke.offers hoffer

/-! ### Speaking while reading -/

theorem speaks_followUp (next : FollowUp) (c : Codec) : c.Speaks (c.followUp next).2 := by
  cases next with
  | nothing => exact .refl c
  | reportWindow => exact .frame (by decide) _
  | askTerminalType => exact .frame (by decide) _

/-- Binary mode is agreed to, and never refused. -/
theorem respond_binary (role : Role) {verb : Verb} (h : verb.isPositive = true) :
    ∃ answer, respond role .binary verb = .agree true answer .nothing ∧
      answer.isPositive = true := by
  cases verb with
  | will => cases role <;> exact ⟨.do, rfl, rfl⟩
  | «do» => cases role <;> exact ⟨.will, rfl, rfl⟩
  | wont | dont => cases h

theorem speaks_negotiate {verb : Verb} {byte : UInt8}
    (h : verb.Sustains (TelnetOption.ofByte byte)) (c : Codec) :
    c.Speaks (c.negotiate verb (TelnetOption.ofByte byte)).2 := by
  have hbyte :
      TelnetOption.ofByte (TelnetOption.ofByte byte).toByte = TelnetOption.ofByte byte := by
    rw [TelnetOption.toByte_ofByte]
  unfold negotiate
  cases hr : respond c.role (TelnetOption.ofByte byte) verb with
  | ignore => exact .refl c
  | refuse answer =>
    have hsustains : answer.Sustains (TelnetOption.ofByte byte) := by
      intro hb
      obtain ⟨_, hagree, _⟩ := respond_binary c.role (h hb)
      rw [hb, hagree] at hr
      cases hr
    exact speaks_sayVerb (hbyte.symm ▸ hsustains) c
  | agree on answer next =>
    have hsustains : answer.Sustains (TelnetOption.ofByte byte) := by
      intro hb
      obtain ⟨answer', hagree, hpositive⟩ := respond_binary c.role (h hb)
      rw [hb, hagree] at hr
      cases hr
      exact hpositive
    have hset : c.Speaks { c with flags := c.flags.set (TelnetOption.ofByte byte) on } :=
      .of_eq rfl rfl
    have hannounce := hset.trans (speaks_announce (hbyte.symm ▸ hsustains) _)
    dsimp only
    split
    · exact hannounce.trans (speaks_followUp next _)
    · exact hannounce

theorem speaks_handle {option : UInt8} {data : Bytes} {c c' : Codec} {notes : List Note}
    (h : c.handle option data = .ok (notes, c')) : c.Speaks c' := by
  unfold handle at h
  split at h
  iterate 3
    · obtain ⟨_, ha⟩ := exists_of_map_eq_ok h
      obtain ⟨-, rfl⟩ := Prod.mk.inj ha
      exact .frame (by decide) _
  iterate 2
    · obtain ⟨_, ha⟩ := exists_of_map_eq_ok h
      obtain ⟨-, rfl⟩ := Prod.mk.inj ha
      exact .of_eq rfl rfl
  · obtain ⟨-, rfl⟩ := Prod.mk.inj (Except.ok.inj h)
    exact .refl c

theorem speaks_finish (c : Codec) : c.Speaks c.finish.2 := by
  have hforget : c.Speaks { c with gathered := [], overflow := false } := .of_eq rfl rfl
  unfold finish
  dsimp only
  split
  · exact hforget
  · split
    · exact hforget
    · split
      · rename_i hh
        exact hforget.trans (speaks_handle hh)
      · exact hforget

theorem speaks_gather (byte : UInt8) (c : Codec) : c.Speaks (c.gather byte).2 := by
  unfold gather
  split
  · exact .of_eq rfl rfl
  · exact .of_eq rfl rfl

theorem speaks_interpret (byte : UInt8) (c : Codec) : c.Speaks (c.interpret byte).2 := by
  unfold interpret
  split
  · exact .of_eq rfl rfl
  · split
    · exact .of_eq rfl rfl
    · exact .of_eq rfl rfl

theorem speaks_step {byte : UInt8} {c : Codec} (h : ¬c.reader.Drops byte) :
    c.Speaks (c.step byte).2 := by
  -- The state of the decoder is no part of what is said.
  have hstate (state : DecoderState) : c.Speaks { c with state } := .of_eq rfl rfl
  unfold step
  split
  · split
    · exact hstate .command
    · exact .of_eq rfl rfl
  · split
    · exact .of_eq rfl rfl
    · exact speaks_interpret byte c
  · rename_i verb hs
    have hsustains := Reader.sustains_of_not_drops h hs
    have hnegotiate := (hstate .data).trans (speaks_negotiate hsustains { c with state := .data })
    exact hnegotiate
  · split
    · exact hstate .gatherCommand
    · exact speaks_gather byte c
  · split
    · have hgather := (hstate .gather).trans (speaks_gather Code.iac { c with state := .gather })
      exact hgather
    · split
      · have hfinish := (hstate .data).trans (speaks_finish { c with state := .data })
        exact hfinish
      · exact hstate .gather

/-- **What is said while reading is lawful**, if what is read keeps binary mode. -/
theorem speaks_decode {data : Bytes} {c : Codec} (h : c.reader.Keeps data) :
    c.Speaks (c.decode data).2 := by
  induction data generalizing c with
  | nil => exact .refl c
  | cons byte rest ih =>
    obtain ⟨hfirst, hrest⟩ := h
    rw [← step_reader] at hrest
    exact (speaks_step hfirst).trans (ih hrest)

end Codec
end Telnet
end RemoteTerminal
