/-
# Decoding item by item

The decoder takes bytes; what it does is best told of whole items.  An item of the
grammar either carries a byte of payload, or is obeyed (`Codec.obey`), or means
nothing: `takes_item` says what the whole of an item does and `takes_items` puts items
together.

The payload of a stream is then the canonical form of its data alone, and
`decodeAll_grammar` is the decoder's whole account from its first byte on, however the
stream is cut.  What does not come into it may be left out: items that are not
`formative` make no payload, and only `meaningful` ones make any difference.
-/

import RemoteTerminal.Proofs.Telnet.Places
import RemoteTerminal.Proofs.Telnet.Returns

namespace RemoteTerminal
namespace Telnet

/-! ### Whole items -/

namespace Codec

/-- The data of some items, each byte with whether binary mode is on when it comes. -/
def data : List Item → Codec → List (Bool × UInt8)
  | [], _ => []
  | item :: rest, c =>
    item.datum?.toList.map (fun byte => (c.flags.binaryMode, byte)) ++ data rest (c.obey item)

theorem finish_holding (content : Bytes) (pendingCr : Bool) (c : Codec) :
    (c.standing (Place.holding pendingCr .data content)).finish.2 =
      (c.standing (Place.between pendingCr)).act content := by
  let c' := c.standing (Place.between pendingCr)
  have hfinish : (c.standing (Place.holding pendingCr .data content)).finish.2 =
      if subnegotiationLimit < content.length then c'
      else
        match content.take subnegotiationLimit with
        | [] => c'
        | option :: data => c'.outcome (c'.handle option data) := by
    unfold finish
    by_cases hlong : subnegotiationLimit < content.length
    · simp [standing, Place.holding, Place.between, hlong, c']
    · simp only [standing, Place.holding, Place.between, hlong, decide_false,
        Bool.false_eq_true, if_false, c']
      cases content.take subnegotiationLimit with
      | nil => rfl
      | cons option data =>
        dsimp only [outcome]
        split <;> simp_all
  rw [hfinish]
  unfold act
  split
  · rfl
  · rename_i hlong
    rw [List.take_of_length_le (by omega)]
    rfl

/-- A command means nothing. -/
theorem interpret_command {byte : UInt8} (h : byte < Code.sb) (c : Codec) :
    (c.interpret byte).2 = { c with state := .data } := by
  have hne (other : UInt8) (hother : ¬other < Code.sb) : byte ≠ other := fun h' => hother (h' ▸ h)
  have hverb : Verb.ofByte? byte = none := by
    simp [Verb.ofByte?, hne 251 (by decide), hne 252 (by decide), hne 253 (by decide),
      hne 254 (by decide)]
  unfold interpret
  rw [if_neg (hne _ (by decide)), hverb]

/-- What decoding some bytes comes to that are the given items.  Their data make payload,
they are obeyed, and the decoder is between two items again. -/
def Takes (bytes : Bytes) (items : List Item) (pendingCr : Bool) (c : Codec) : Prop :=
  let run := Return.run pendingCr (data items c)
  ((c.standing (.between pendingCr)).decode bytes).1.payload = run.1 ∧
    ((c.standing (.between pendingCr)).decode bytes).2 =
      (c.obeyAll items).standing (.between run.2)

/-- An item without a datum does all it does with its last byte. -/
theorem Takes.of_last {item : Item} {pendingCr : Bool} {p : Place} {front : Bytes} {last : UInt8}
    {c : Codec} (hdatum : item.datum? = none) (hfront : (Place.between pendingCr).Quiet front p)
    (hpayload : ((c.standing p).step last).1.payload = [])
    (hnext : ((c.standing p).step last).2 = (c.obey item).standing (.between pendingCr)) :
    c.Takes (front ++ [last]) [item] pendingCr := by
  obtain ⟨hp, hc⟩ := hfront.decode_concat last c
  have hdata : data [item] c = [] := by simp [data, hdatum]
  unfold Takes
  rw [hdata, hp, hc]
  exact ⟨hpayload, hnext⟩

/-- **Decoding an item**, whichever it is. -/
theorem takes_item (item : Item) (pendingCr : Bool) (c : Codec) :
    c.Takes item.bytes [item] pendingCr := by
  cases item with
  | data byte hb =>
    have hstep : (c.standing (.between pendingCr)).step byte =
        ({ payload := (Return.step c.flags.binaryMode pendingCr byte).1 },
          c.standing (.between (Return.step c.flags.binaryMode pendingCr byte).2)) := if_neg hb
    unfold Takes
    simp [Item.bytes, decode, hstep, data, Item.datum?, Return.run, obeyAll, obey]
  | literal =>
    have hstep : Return.step c.flags.binaryMode pendingCr Code.iac =
        (Return.release pendingCr ++ [Code.iac], false) := by
      cases c.flags.binaryMode <;> cases pendingCr <;> rfl
    have hrun : Return.run pendingCr (data [.literal] c) =
        (Return.release pendingCr ++ [Code.iac], false) := by
      simp [data, Item.datum?, Return.run, hstep]
    unfold Takes
    rw [hrun]
    exact ⟨by simp [Item.bytes, decode, step, standing, Place.between], rfl⟩
  | command byte h =>
    have hiac : byte ≠ Code.iac := by
      rintro rfl
      exact absurd h (by decide)
    let c' := c.standing { Place.between pendingCr with state := .command }
    have hstep : c'.step byte = ({ notes := (c'.interpret byte).1 }, (c'.interpret byte).2) :=
      if_neg hiac
    refine .of_last rfl Place.quiet_iac (congrArg (·.1.payload) hstep) ?_
    exact (congrArg Prod.snd hstep).trans (interpret_command h c')
  | negotiation verb option =>
    have hobey := obey_standing (.negotiation verb option) (.between pendingCr) c
    exact .of_last rfl (Place.quiet_verb verb) rfl hobey
  | subnegotiation body =>
    have hbytes : (Item.subnegotiation body).bytes =
        [Code.iac, Code.sb] ++ body.flatMap Fragment.bytes ++ [Code.iac] ++ [Code.se] := by
      simp [Item.bytes, Fragment.terminator]
    rw [hbytes]
    refine .of_last rfl
      ((Place.quiet_sb.append (Place.quiet_body body)).append Place.quiet_gather_iac) rfl ?_
    exact (finish_holding _ pendingCr c).trans (act_standing _ _ c)

theorem data_cons (item : Item) (rest : List Item) (c : Codec) :
    data (item :: rest) c = data [item] c ++ data rest (c.obey item) := by
  simp [data]

/-- **Decoding items**, one after the other. -/
theorem takes_items (items : List Item) (pendingCr : Bool) (c : Codec) :
    c.Takes (items.flatMap Item.bytes) items pendingCr := by
  induction items generalizing pendingCr c with
  | nil => exact ⟨rfl, rfl⟩
  | cons item rest ih =>
    obtain ⟨hpayload, hnext⟩ := takes_item item pendingCr c
    obtain ⟨hmore, hlast⟩ := ih (Return.run pendingCr (data [item] c)).2 (c.obey item)
    unfold Takes
    rw [List.flatMap_cons, decode_append, data_cons, Return.run_append, hnext,
      Decoded.payload_append, hpayload]
    exact ⟨congrArg _ hmore, hlast⟩

/-! ### Items that make no difference -/

/-- The items that are not commands. -/
def meaningful (items : List Item) : List Item := items.filter fun item => !item.isCommand

theorem obeyAll_meaningful (items : List Item) (c : Codec) :
    c.obeyAll (meaningful items) = c.obeyAll items := by
  induction items generalizing c with
  | nil => rfl
  | cons item rest ih => cases item <;> exact ih _

theorem data_meaningful (items : List Item) (c : Codec) :
    data (meaningful items) c = data items c := by
  induction items generalizing c with
  | nil => rfl
  | cons item rest ih =>
    have hcons (rest' : List Item) (h : data rest' (c.obey item) = data rest (c.obey item)) :
        data (item :: rest') c = data (item :: rest) c := by
      rw [data_cons, data_cons item rest, h]
    cases item with
    | command byte h => exact ih c
    | data | literal | negotiation | subnegotiation => exact hcons _ (ih _)

/-- The items that payload comes from: data, and what is said of binary mode. -/
def formative (items : List Item) : List Item :=
  items.filter fun item =>
    match item with
    | .data .. | .literal => true
    | .negotiation _ option => option = TelnetOption.binary.toByte
    | .command .. | .subnegotiation .. => false

/-- What an option other than binary mode comes to leaves binary mode alone. -/
theorem binaryMode_heed_of_ne (role : Role) (verb : Verb) {option : TelnetOption}
    (h : option ≠ .binary) (f : Flags) : (f.heed role verb option).binaryMode = f.binaryMode := by
  unfold Flags.heed
  split
  · exact f.isOn_set_of_ne _ (Ne.symm h)
  · rfl

/-- What is said of binary mode is heeded. -/
theorem binaryMode_heed (role : Role) (verb : Verb) (f : Flags) :
    (f.heed role verb .binary).binaryMode = verb.isPositive := by
  cases verb <;> rfl

theorem obey_negotiation (verb : Verb) (option : UInt8) (c : Codec) :
    (c.obey (.negotiation verb option)).role = c.role ∧
      (c.obey (.negotiation verb option)).flags =
        c.flags.heed c.role verb (TelnetOption.ofByte option) := by
  rw [obey_eq]
  exact ⟨rfl, rfl⟩

theorem obey_subnegotiation (body : List Fragment) (c : Codec) :
    (c.obey (.subnegotiation body)).role = c.role ∧
      (c.obey (.subnegotiation body)).flags = c.flags := by
  rw [obey_eq]
  have hnote := note_eq (body.flatMap Fragment.content) c
  have hrole : (c.note (body.flatMap Fragment.content)).role = c.role := by rw [hnote]
  have hflags : (c.note (body.flatMap Fragment.content)).flags = c.flags := by rw [hnote]
  exact ⟨hrole, hflags⟩

/-- Data and their modes come from the formative items alone. -/
theorem data_formative (items : List Item) {c c' : Codec} (hrole : c'.role = c.role)
    (hmode : c'.flags.binaryMode = c.flags.binaryMode) :
    data (formative items) c' = data items c := by
  induction items generalizing c c' with
  | nil => rfl
  | cons item rest ih =>
    cases item with
    | data byte h =>
      have hrest := ih hrole hmode
      simp only [formative, List.filter_cons, if_true, data, hmode]
      exact congrArg _ hrest
    | literal =>
      have hrest := ih hrole hmode
      simp only [formative, List.filter_cons, if_true, data, hmode]
      exact congrArg _ hrest
    | command byte h => exact ih hrole hmode
    | subnegotiation body =>
      obtain ⟨hr, hf⟩ := obey_subnegotiation body c
      exact ih (hrole.trans hr.symm) (hf ▸ hmode)
    | negotiation verb option =>
      obtain ⟨hr, hf⟩ := obey_negotiation verb option c
      by_cases hbinary : option = TelnetOption.binary.toByte
      · subst hbinary
        obtain ⟨hr', hf'⟩ := obey_negotiation verb TelnetOption.binary.toByte c'
        refine ih (hr'.trans (hrole.trans hr.symm)) ?_
        rw [hf, hf']
        exact (binaryMode_heed ..).trans (binaryMode_heed ..).symm
      · have hdrop : formative (.negotiation verb option :: rest) = formative rest :=
          List.filter_cons_of_neg (by simpa using hbinary)
        have hne : TelnetOption.ofByte option ≠ .binary := fun h =>
          hbinary ((TelnetOption.toByte_ofByte option).symm.trans (congrArg _ h))
        rw [hdrop]
        refine ih (hrole.trans hr.symm) ?_
        rw [hf, binaryMode_heed_of_ne c.role verb hne, hmode]

/-! ### Whole streams -/

/-- What a codec makes of a stream from its first byte on. -/
theorem decode_reads {stream rest : Bytes} {items : List Item} (h : Reads stream items rest)
    (role : Role) (terminal : Terminal) :
    let c : Codec := { role, terminal }
    (c.decode stream).1.payload = Return.canonical (data items c) ∧
      ∃ p : Place, p.pendingCr = Return.held (data items c) ∧
        (Place.between p.pendingCr).Quiet rest p ∧
        (c.decode stream).2 = (c.obeyAll items).standing p := by
  intro c
  obtain ⟨hpayload, hnext⟩ := takes_items items false c
  have hrun : Return.run false (data items c) =
      (Return.canonical (data items c), Return.held (data items c)) := Return.run_eq false _
  obtain ⟨p, hquiet, hcr, -⟩ := Place.quiet_begins h.begins (Return.held (data items c))
  rw [hrun] at hpayload hnext
  obtain ⟨hnone, hlast⟩ := hquiet (c.obeyAll items)
  have hfresh : c.standing (.between false) = c := rfl
  rw [hfresh] at hpayload hnext
  refine ⟨?_, p, hcr, hcr.symm ▸ hquiet, ?_⟩
  · rw [h.stream_eq, decode_append, Decoded.payload_append, hpayload, hnext, hnone, List.append_nil]
  · rw [h.stream_eq, decode_append, hnext, hlast]

/-- **The decoder's account of a stream.**  A stream that reaches a fresh codec, however
it is cut, is items and the beginning of one more, in one way only.  The payload is the
canonical form of the data, each byte in the mode in which it comes; the return that is
held back is the last of them; and all else about the codec is what came of obeying the
items in order.  So items that are not formative may come or go without a change of the
payload, and commands without a change of anything. -/
theorem decodeAll_grammar (role : Role) (terminal : Terminal) (pieces : List Bytes) :
    let c : Codec := { role, terminal }
    let decoded := c.decodeAll pieces
    ∃ items rest, Reads pieces.flatten items rest ∧
      (∀ items' rest', Reads pieces.flatten items' rest' → items' = items ∧ rest' = rest) ∧
      decoded.1.payload = Return.canonical (data items c) ∧
      decoded.2.pendingCr = Return.held (data items c) ∧
      decoded.2.settled = c.obeyAll items ∧
      ∀ items' rest' pieces', Reads pieces'.flatten items' rest' →
        (formative items' = formative items →
          (c.decodeAll pieces').1.payload = decoded.1.payload) ∧
        (meaningful items' = meaningful items → rest' = rest →
          (c.decodeAll pieces').1.payload = decoded.1.payload ∧
            (c.decodeAll pieces').2 = decoded.2) := by
  intro c decoded
  obtain ⟨items, rest, hreads⟩ := exists_reads pieces.flatten
  have hdecoded : decoded = c.decode pieces.flatten := decodeAll_eq_decode pieces c
  obtain ⟨hpayload, p, hcr, hquiet, hcodec⟩ := decode_reads hreads role terminal
  rw [hdecoded]
  refine ⟨items, rest, hreads, fun items' rest' h => h.unique hreads, hpayload, ?_, ?_, ?_⟩
  · rw [hcodec]
    exact hcr
  · rw [hcodec, settled_standing]
    exact (obeyAll_standing items {} c).symm
  · intro items' rest' pieces' hreads'
    obtain ⟨hpayload', p', hcr', hquiet', hcodec'⟩ := decode_reads hreads' role terminal
    rw [decodeAll_eq_decode]
    refine ⟨fun h => ?_, ?_⟩
    · rw [hpayload', hpayload, ← data_formative items' rfl rfl, h, data_formative items rfl rfl]
    · rintro h rfl
      have hdata : data items' c = data items c := by
        rw [← data_meaningful, h, data_meaningful]
      have hplace : p' = p := by
        have hsame : p'.pendingCr = p.pendingCr := by rw [hcr', hcr, hdata]
        rw [hsame] at hquiet'
        exact hquiet'.unique hquiet
      refine ⟨by rw [hpayload', hpayload, hdata], ?_⟩
      rw [hcodec', hcodec, hplace, ← obeyAll_meaningful, h, obeyAll_meaningful]

end Codec

end Telnet
end RemoteTerminal
