/-
# The grammar of a telnet stream

A stream is a sequence of items:

| item | bytes |
| --- | --- |
| `data` | one byte, not `IAC` |
| `literal` | `IAC IAC` |
| `command` | `IAC` and a byte below `SB` |
| `negotiation` | `IAC`, a verb, any byte |
| `subnegotiation` | `IAC SB`, a body, `IAC SE` |

and a body is a sequence of `Fragment`s: bytes other than `IAC`, `IAC IAC`, and an
`IAC` astray before any other byte but `SE`.  The type of items admits no others, so
nothing has to be said of their form later on.

No item is the beginning of another (`Item.eq_of_append`), and every stream that is not
empty begins with an item or is itself the beginning of one (`Item.exists_append_or_begins`).
Hence a stream can be read in one way and no other: as items, and the beginning of one
more (`exists_reads`, `Reads.unique`).
-/

import RemoteTerminal.Telnet.Negotiation
import RemoteTerminal.Telnet.Subnegotiation

namespace RemoteTerminal
namespace Telnet

/-! ### Bodies -/

/-- A piece of the body of a subnegotiation. -/
inductive Fragment where
  /-- A byte as it is. -/
  | plain (byte : UInt8) (h : byte ≠ Code.iac)
  /-- One `IAC`, doubled. -/
  | literal
  /-- An `IAC` that means nothing where it stands, and the byte after it. -/
  | stray (byte : UInt8) (hi : byte ≠ Code.iac) (hs : byte ≠ Code.se)
  deriving DecidableEq

namespace Fragment

/-- The fragment on the wire. -/
def bytes : Fragment → Bytes
  | plain byte _ => [byte]
  | literal => [Code.iac, Code.iac]
  | stray byte _ _ => [Code.iac, byte]

/-- The part of the parameters that the fragment stands for. -/
def content : Fragment → Bytes
  | plain byte _ => [byte]
  | literal => [Code.iac]
  | stray .. => []

/-- What ends a body. -/
def terminator : Bytes := [Code.iac, Code.se]

/-- No fragment is the beginning of another. -/
theorem eq_of_append {f f' : Fragment} {rest rest' : Bytes}
    (h : f.bytes ++ rest = f'.bytes ++ rest') : f = f' ∧ rest = rest' := by
  cases f with
  | plain byte hb => cases f' <;> simp_all [bytes]
  | literal | stray =>
    cases f' with
    | plain byte hb => exact absurd (List.cons.inj h).1.symm hb
    | literal => simp_all [bytes]
    | stray byte hi hs => simp_all [bytes, hi.symm]

/-- No fragment begins as the terminator does. -/
theorem append_ne_terminator (f : Fragment) (rest rest' : Bytes) :
    f.bytes ++ rest ≠ terminator ++ rest' := by
  cases f with
  | plain byte h => simp [bytes, terminator, h]
  | literal => simp [bytes, terminator, Code.iac, Code.se]
  | stray byte hi hs => simp [bytes, terminator, hs]

/-- So the terminator is found where the body ends. -/
theorem body_eq_of_append {body body' : List Fragment} {rest rest' : Bytes}
    (h : body.flatMap bytes ++ (terminator ++ rest) =
      body'.flatMap bytes ++ (terminator ++ rest')) :
    body = body' ∧ rest = rest' := by
  induction body generalizing body' with
  | nil =>
    cases body' with
    | nil => exact ⟨rfl, List.append_cancel_left h⟩
    | cons f' more' =>
      rw [List.flatMap_cons, List.append_assoc] at h
      exact absurd h.symm (append_ne_terminator f' _ _)
  | cons f more ih =>
    rw [List.flatMap_cons, List.append_assoc] at h
    cases body' with
    | nil => exact absurd h (append_ne_terminator f _ _)
    | cons f' more' =>
      rw [List.flatMap_cons, List.append_assoc] at h
      obtain ⟨rfl, hmore⟩ := eq_of_append h
      obtain ⟨rfl, hrest⟩ := ih hmore
      exact ⟨rfl, hrest⟩

/-- Any bytes are a whole body with its terminator and what follows them, or the
beginning of a body with its terminator. -/
theorem exists_body : ∀ stream : Bytes,
    (∃ body : List Fragment, ∃ rest, stream = body.flatMap bytes ++ (terminator ++ rest)) ∨
      ∃ body : List Fragment, ∃ more, more ≠ [] ∧ stream ++ more = body.flatMap bytes ++ terminator
  | [] => .inr ⟨[], terminator, by simp [terminator], rfl⟩
  | [byte] => by
    by_cases hi : byte = Code.iac
    · exact .inr ⟨[], [Code.se], by simp, by rw [hi]; rfl⟩
    · exact .inr ⟨[.plain byte hi], terminator, by simp [terminator], rfl⟩
  | byte :: next :: rest => by
    by_cases hi : byte = Code.iac
    · by_cases hs : next = Code.se
      · exact .inl ⟨[], rest, by rw [hi, hs]; rfl⟩
      · obtain ⟨f, hf⟩ : ∃ f : Fragment, f.bytes = [byte, next] := by
          by_cases hn : next = Code.iac
          · exact ⟨.literal, by rw [hi, hn]; rfl⟩
          · exact ⟨.stray next hn hs, by rw [hi]; rfl⟩
        have hfirst (tail : Bytes) : byte :: next :: tail = f.bytes ++ tail := by rw [hf]; rfl
        rcases exists_body rest with ⟨body, tail, h⟩ | ⟨body, more, hmore, h⟩
        · exact .inl ⟨f :: body, tail, by rw [hfirst, h]; simp⟩
        · exact .inr ⟨f :: body, more, hmore, by rw [hfirst, List.append_assoc, h]; simp⟩
    · rcases exists_body (next :: rest) with ⟨body, tail, h⟩ | ⟨body, more, hmore, h⟩
      · exact .inl ⟨.plain byte hi :: body, tail, by rw [h]; rfl⟩
      · exact .inr ⟨.plain byte hi :: body, more, hmore, by rw [List.cons_append, h]; rfl⟩

/-- A byte of parameters as it is written into a body. -/
def ofByte (byte : UInt8) : Fragment :=
  if h : byte = Code.iac then literal else plain byte h

@[simp] theorem content_ofByte (byte : UInt8) : (ofByte byte).content = [byte] := by
  unfold ofByte
  split
  · rename_i h
    rw [h]
    rfl
  · rfl

theorem flatMap_content_ofByte (data : Bytes) : (data.map ofByte).flatMap content = data := by
  induction data with
  | nil => rfl
  | cons byte rest ih => simp [ih]

theorem flatMap_bytes_ofByte (data : Bytes) : (data.map ofByte).flatMap bytes = doubleIac data := by
  induction data with
  | nil => rfl
  | cons byte rest ih =>
    have hone : (ofByte byte).bytes = if byte = Code.iac then [byte, byte] else [byte] := by
      unfold ofByte
      split
      · rename_i h
        rw [h]
        rfl
      · rfl
    rw [List.map_cons, List.flatMap_cons, ih, hone]
    rfl

end Fragment

/-! ### Items -/

/-- One item of a telnet stream. -/
inductive Item where
  /-- A byte of payload as it is. -/
  | data (byte : UInt8) (h : byte ≠ Code.iac)
  /-- One `IAC` of payload, doubled. -/
  | literal
  /-- A command without parameters, known or not. -/
  | command (byte : UInt8) (h : byte < Code.sb)
  /-- A verb about the option of a byte. -/
  | negotiation (verb : Verb) (option : UInt8)
  /-- The parameters of an option. -/
  | subnegotiation (body : List Fragment)
  deriving DecidableEq

namespace Item

/-- The item on the wire. -/
def bytes : Item → Bytes
  | data byte _ => [byte]
  | literal => [Code.iac, Code.iac]
  | command byte _ => [Code.iac, byte]
  | negotiation verb option => [Code.iac, verb.toByte, option]
  | subnegotiation body =>
    [Code.iac, Code.sb] ++ (body.flatMap Fragment.bytes ++ Fragment.terminator)

/-- The payload that the item carries. -/
def datum? : Item → Option UInt8
  | data byte _ => some byte
  | literal => some Code.iac
  | command .. | negotiation .. | subnegotiation .. => none

/-- Whether the item is a command without parameters. -/
def isCommand : Item → Bool
  | command .. => true
  | _ => false

theorem bytes_ne_nil (item : Item) : item.bytes ≠ [] := by
  cases item <;> simp [bytes]

/-- A byte after `IAC` is `IAC`, begins a subnegotiation, is a verb, or is a command. -/
theorem after_iac_cases (byte : UInt8) :
    byte < Code.sb ∨ byte = Code.sb ∨ byte = Code.iac ∨ ∃ verb : Verb, verb.toByte = byte := by
  by_cases hlow : byte < Code.sb
  · exact .inl hlow
  · have hrange : 250 ≤ byte.toNat := by
      have := UInt8.not_lt.1 hlow
      exact UInt8.le_iff_toNat_le.1 this
    have hmax := byte.toNat_lt
    have hbyte (n : UInt8) (h : byte.toNat = n.toNat) : byte = n := UInt8.toNat_inj.1 h
    have hcases : byte.toNat = 250 ∨ byte.toNat = 251 ∨ byte.toNat = 252 ∨ byte.toNat = 253 ∨
        byte.toNat = 254 ∨ byte.toNat = 255 := by omega
    rcases hcases with h | h | h | h | h | h
    · exact .inr (.inl (hbyte 250 h))
    · exact .inr (.inr (.inr ⟨.will, (hbyte 251 h).symm⟩))
    · exact .inr (.inr (.inr ⟨.wont, (hbyte 252 h).symm⟩))
    · exact .inr (.inr (.inr ⟨.do, (hbyte 253 h).symm⟩))
    · exact .inr (.inr (.inr ⟨.dont, (hbyte 254 h).symm⟩))
    · exact .inr (.inr (.inl (hbyte 255 h)))

/-- A verb is known by its byte. -/
theorem toByte_inj {verb verb' : Verb} (h : verb.toByte = verb'.toByte) : verb = verb' := by
  have := congrArg Verb.ofByte? h
  simpa using this

/-- **No item is the beginning of another.** -/
theorem eq_of_append {item item' : Item} {rest rest' : Bytes}
    (h : item.bytes ++ rest = item'.bytes ++ rest') : item = item' ∧ rest = rest' := by
  have hcommand {byte : UInt8} (hb : byte < Code.sb) : byte ≠ Code.iac ∧ byte ≠ Code.sb ∧
      ∀ verb : Verb, byte ≠ verb.toByte := by
    refine ⟨?_, ?_, fun verb => ?_⟩
    · rintro rfl
      exact absurd hb (by decide)
    · rintro rfl
      exact absurd hb (by decide)
    · rintro rfl
      exact absurd hb (by cases verb <;> decide)
  have hverb (verb : Verb) : verb.toByte ≠ Code.iac ∧ verb.toByte ≠ Code.sb := by
    cases verb <;> decide
  have hsb : Code.sb ≠ Code.iac := by decide
  -- The first byte tells plain data from the others, which differ in their second byte.
  cases item with
  | data byte hb => cases item' <;> simp_all [bytes]
  | literal =>
    cases item' with
    | data byte hb => exact absurd (List.cons.inj h).1.symm hb
    | negotiation verb option => simp_all [bytes, (hverb verb).1.symm]
    | command byte hb => simp_all [bytes, (hcommand hb).1.symm]
    | _ => simp_all [bytes, hsb.symm]
  | command byte hb =>
    cases item' with
    | data byte hb => exact absurd (List.cons.inj h).1.symm hb
    | negotiation verb option => simp_all [bytes, (hcommand hb).2.2 verb]
    | command byte' hb' => simp_all [bytes]
    | _ => simp_all [bytes, (hcommand hb).1, (hcommand hb).2.1]
  | negotiation verb option =>
    cases item' with
    | data byte hb => exact absurd (List.cons.inj h).1.symm hb
    | negotiation verb' option' =>
      simp only [bytes, List.cons_append, List.nil_append, List.cons.injEq, true_and] at h
      exact ⟨by rw [toByte_inj h.1, h.2.1], h.2.2⟩
    | command byte hb => simp_all [bytes, ((hcommand hb).2.2 verb).symm]
    | _ => simp_all [bytes, (hverb verb).1, (hverb verb).2]
  | subnegotiation body =>
    cases item' with
    | data byte hb => exact absurd (List.cons.inj h).1.symm hb
    | negotiation verb option => simp_all [bytes, (hverb verb).2.symm]
    | command byte hb => simp_all [bytes, (hcommand hb).2.1.symm]
    | subnegotiation body' =>
      simp only [bytes, List.append_assoc, List.append_cancel_left_eq] at h
      obtain ⟨rfl, hrest⟩ := Fragment.body_eq_of_append h
      exact ⟨rfl, hrest⟩
    | _ => simp_all [bytes]

/-- Some bytes are the beginning of an item, and not the whole of it. -/
def Begins (part : Bytes) : Prop := ∃ item : Item, ∃ more, more ≠ [] ∧ part ++ more = item.bytes

theorem begins_nil : Begins [] := ⟨.literal, _, bytes_ne_nil .literal, rfl⟩

/-- What has only begun contains no whole item. -/
theorem Begins.ne_append {part : Bytes} (h : Begins part) (item : Item) (rest : Bytes) :
    part ≠ item.bytes ++ rest := by
  rintro rfl
  obtain ⟨item', more, hmore, heq⟩ := h
  have hsame : item.bytes ++ (rest ++ more) = item'.bytes ++ [] := by
    rw [← heq, List.append_nil, List.append_assoc]
  exact hmore (List.append_eq_nil_iff.1 (eq_of_append hsame).2).2

/-- **A stream begins with an item, or is the beginning of one.** -/
theorem exists_append_or_begins (stream : Bytes) :
    (∃ item : Item, ∃ rest, stream = item.bytes ++ rest) ∨ Begins stream := by
  match stream with
  | [] => exact .inr begins_nil
  | byte :: rest =>
    by_cases hi : byte = Code.iac
    · subst hi
      match rest with
      | [] => exact .inr ⟨.literal, [Code.iac], by simp, rfl⟩
      | next :: rest =>
        rcases after_iac_cases next with hlow | rfl | rfl | ⟨verb, rfl⟩
        · exact .inl ⟨.command next hlow, rest, rfl⟩
        · rcases Fragment.exists_body rest with ⟨body, tail, rfl⟩ | ⟨body, more, hmore, h⟩
          · exact .inl ⟨.subnegotiation body, tail, by simp [bytes]⟩
          · exact .inr ⟨.subnegotiation body, more, hmore, by simp [bytes, h]⟩
        · exact .inl ⟨.literal, rest, rfl⟩
        · match rest with
          | [] => exact .inr ⟨.negotiation verb 0, [0], by simp, rfl⟩
          | option :: rest => exact .inl ⟨.negotiation verb option, rest, rfl⟩
    · exact .inl ⟨.data byte hi, rest, rfl⟩

end Item

/-- A stream reads as some items, and the beginning of one more. -/
structure Reads (stream : Bytes) (items : List Item) (rest : Bytes) : Prop where
  stream_eq : stream = items.flatMap Item.bytes ++ rest
  begins : Item.Begins rest

/-- **Every stream can be read**, by induction on its length. -/
theorem exists_reads (stream : Bytes) : ∃ items rest, Reads stream items rest := by
  induction h : stream.length using Nat.strongRecOn generalizing stream with
  | ind length ih =>
    rcases Item.exists_append_or_begins stream with ⟨item, tail, rfl⟩ | hbegins
    · have hpos := List.length_pos_iff.2 item.bytes_ne_nil
      rw [List.length_append] at h
      obtain ⟨items, rest, hreads⟩ := ih tail.length (by omega) tail rfl
      exact ⟨item :: items, rest, by rw [hreads.stream_eq]; simp, hreads.begins⟩
    · exact ⟨[], stream, rfl, hbegins⟩

/-- **A stream can be read in one way only.** -/
theorem Reads.unique {stream : Bytes} {items items' : List Item} {rest rest' : Bytes}
    (h : Reads stream items rest) (h' : Reads stream items' rest') :
    items = items' ∧ rest = rest' := by
  obtain ⟨rfl, hbegins⟩ := h
  obtain ⟨heq, hbegins'⟩ := h'
  induction items generalizing items' with
  | nil =>
    cases items' with
    | nil => exact ⟨rfl, heq⟩
    | cons item' more' =>
      rw [List.flatMap_cons, List.append_assoc] at heq
      exact absurd heq (hbegins.ne_append item' _)
  | cons item more ih =>
    rw [List.flatMap_cons, List.append_assoc] at heq
    cases items' with
    | nil => exact absurd heq.symm (hbegins'.ne_append item _)
    | cons item' more' =>
      rw [List.flatMap_cons, List.append_assoc] at heq
      obtain ⟨rfl, hmore⟩ := Item.eq_of_append heq
      obtain ⟨rfl, hrest⟩ := ih hmore
      exact ⟨rfl, hrest⟩

/-- A front of a stream of whole items is some of these items and the beginning of the
next one. -/
theorem exists_split {items : List Item} {front back : Bytes}
    (h : front ++ back = items.flatMap Item.bytes) :
    ∃ done todo part, items = done ++ todo ∧ front = done.flatMap Item.bytes ++ part ∧
      part ++ back = todo.flatMap Item.bytes ∧ Item.Begins part := by
  obtain ⟨done, part, hreads⟩ := exists_reads front
  obtain ⟨todo, rest, htail⟩ := exists_reads (part ++ back)
  have hall : Reads (items.flatMap Item.bytes) (done ++ todo) rest := by
    refine ⟨?_, htail.begins⟩
    rw [← h, hreads.stream_eq, List.append_assoc, htail.stream_eq, List.flatMap_append,
      List.append_assoc]
  obtain ⟨hitems, hrest⟩ := hall.unique ⟨(List.append_nil _).symm, Item.begins_nil⟩
  refine ⟨done, todo, part, hitems.symm, hreads.stream_eq, ?_, hreads.begins⟩
  rw [htail.stream_eq, hrest, List.append_nil]

end Telnet
end RemoteTerminal
