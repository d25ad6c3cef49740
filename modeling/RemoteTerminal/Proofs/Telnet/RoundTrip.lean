/-
# Payload that comes back as it went

Payload framed in a mode and decoded in the same mode is the payload, and decoding
it leaves the codec as it was: no text can be mistaken for protocol.  This holds of
a text in one piece (`decode_encode`) and of a list of texts that were framed one by
one, however the wire cuts what they come to (`decodeAll_framed_pieces`): a piece
that ends in `CR` has its filler, so an `LF` at the head of the next one stays apart.
-/

import RemoteTerminal.Proofs.Telnet.Framing
import RemoteTerminal.Telnet.Codec

namespace RemoteTerminal
namespace Telnet

/-- Two stretches of payload are one. -/
theorem Decoded.payload_append_payload (a b : Bytes) :
    ({ payload := a } : Decoded) ++ { payload := b } = { payload := a ++ b } := rfl

theorem Decoded.append_empty (a : Decoded) : a ++ {} = a := by
  show Decoded.mk _ _ = a
  simp

namespace Codec

/-- Between two items of the grammar, with no carriage return held back. -/
structure AtRest (c : Codec) : Prop where
  state : c.state = .data
  pendingCr : c.pendingCr = false

/-! ### Each unit by itself -/

theorem decode_escape {c : Codec} (h : c.AtRest) :
    c.decode [Code.iac, Code.iac] = ({ payload := [Code.iac] }, c) := by
  obtain ⟨hs, hp⟩ := h
  obtain ⟨role, terminal, flags, announced, state, pendingCr, gathered, overflow, replies⟩ := c
  subst hs hp
  rfl

/-- A carriage return outside binary mode is held back, and the byte after it says
what the two of them are. -/
theorem decode_return {c : Codec} (h : c.AtRest) (hm : c.flags.binaryMode = false) {byte : UInt8}
    {text : Bytes} (hb : byte ≠ Code.iac) (hr : Return.step false true byte = (text, false)) :
    c.decode [Code.cr, byte] = ({ payload := text }, c) := by
  have hheld : Return.step c.flags.binaryMode false Code.cr = ([], true) := by rw [hm]; rfl
  have hdone : Return.step c.flags.binaryMode true byte = (text, false) := by rw [hm, hr]
  obtain ⟨hs, hp⟩ := h
  obtain ⟨role, terminal, flags, announced, state, pendingCr, gathered, overflow, replies⟩ := c
  subst hs hp
  have hcr : Code.cr ≠ Code.iac := by decide
  simp only [decode, step, hcr, hb, hheld, hdone, if_false, Decoded.append_empty]
  rfl

theorem decode_plain {c : Codec} (h : c.AtRest) {byte : UInt8} (hi : byte ≠ Code.iac)
    (hc : byte = Code.cr → c.flags.binaryMode = true) :
    c.decode [byte] = ({ payload := [byte] }, c) := by
  have hstep : Return.step c.flags.binaryMode false byte = ([byte], false) := by
    cases hm : c.flags.binaryMode with
    | true => rfl
    | false =>
      have hn : byte ≠ Code.cr := fun he => by simp [hc he] at hm
      simp [Return.step, hn]
  obtain ⟨hs, hp⟩ := h
  obtain ⟨role, terminal, flags, announced, state, pendingCr, gathered, overflow, replies⟩ := c
  subst hs hp
  simp only [decode, step, hi, hstep, if_false]
  rfl

/-! ### A whole text -/

/-- Decoding what leaves the codec as it was changes nothing for what follows. -/
theorem decode_append_of_decode {c : Codec} {front back text more : Bytes}
    (hf : c.decode front = ({ payload := text }, c))
    (hb : c.decode back = ({ payload := more }, c)) :
    c.decode (front ++ back) = ({ payload := text ++ more }, c) := by
  rw [decode_append, hf, hb, Decoded.payload_append_payload]

/-- **Payload framed in a mode comes back in that mode**, and nothing but payload. -/
theorem decode_encode {c : Codec} (h : c.AtRest) (data : Bytes) :
    c.decode (c.encode data) = ({ payload := data }, c) := by
  unfold Codec.encode
  induction data using units_induction c.flags.binaryMode with
  | nil => rfl
  | escape rest ih =>
    rw [encode_escape]
    exact decode_append_of_decode (decode_escape h) ih
  | newline hb rest ih =>
    rw [hb] at ih ⊢
    rw [encode_newline]
    have hlf : Code.lf ≠ Code.iac := by decide
    exact decode_append_of_decode (decode_return h hb hlf rfl) ih
  | bare hb rest hn ih =>
    rw [hb] at ih ⊢
    rw [encode_bare hn]
    have hnul : Code.nul ≠ Code.iac := by decide
    exact decode_append_of_decode (decode_return h hb hnul rfl) ih
  | plain byte rest hi hc ih =>
    rw [encode_plain rest hi hc]
    exact decode_append_of_decode (decode_plain h hi hc) ih

/-- The same of texts that were framed one by one. -/
theorem decode_flatMap_encode {c : Codec} (h : c.AtRest) (texts : List Bytes) :
    c.decode (texts.flatMap c.encode) = ({ payload := texts.flatten }, c) := by
  induction texts with
  | nil => rfl
  | cons text rest ih => exact decode_append_of_decode (decode_encode h text) ih

/-- **Payload survives any cutting, of the text and of the wire.**  The pieces of a
text are framed one by one by a codec of some mode; what they come to reaches, in any
chunks, a codec of the same mode that stands between two items.  That one hands out
the pieces' bytes and nothing else, and is left as it was. -/
theorem decodeAll_framed_pieces {sender receiver : Codec}
    (hmode : sender.flags.binaryMode = receiver.flags.binaryMode)
    (hstate : receiver.state = .data) (hcr : receiver.pendingCr = false)
    {texts chunks : List Bytes} (hwire : chunks.flatten = texts.flatMap sender.encode) :
    receiver.decodeAll chunks = ({ payload := texts.flatten }, receiver) := by
  have hencode : sender.encode = receiver.encode := by
    funext data
    rw [Codec.encode, Codec.encode, hmode]
  rw [decodeAll_eq_decode, hwire, hencode]
  exact decode_flatMap_encode ⟨hstate, hcr⟩ texts

/-- The two bytes of an end of line in two pieces, on a wire that parts the return
from its filler and an escape from what it escapes. -/
theorem decodeAll_divided_newline :
    let sender : Codec := { role := .server }
    let receiver : Codec := { replies := [Code.iac, Code.sb], gathered := [Code.esc] }
    sender.flags.binaryMode = receiver.flags.binaryMode ∧ receiver.state = .data ∧
      receiver.pendingCr = false ∧
      [[13], [0, 10, 255], [255]].flatten = [[13], [10, 255]].flatMap sender.encode ∧
      receiver.decodeAll [[13], [0, 10, 255], [255]] =
        ({ payload := [13, 10, 255] }, receiver) := by
  intro sender receiver
  have hmode : sender.flags.binaryMode = receiver.flags.binaryMode := rfl
  have hwire : [[13], [0, 10, 255], [255]].flatten = [[13], [10, 255]].flatMap sender.encode := rfl
  exact ⟨hmode, rfl, rfl, hwire, decodeAll_framed_pieces hmode rfl rfl hwire⟩

end Codec

/-! ### Framed in one mode, decoded in the other -/

/-- A text with a filler after every return that does not end a line. -/
def fillReturns : Bytes → Bytes
  | [] => []
  | byte :: rest =>
    if byte = Code.cr ∧ rest.head? ≠ some Code.lf then byte :: Code.nul :: fillReturns rest
    else byte :: fillReturns rest

/-- Every return of a text ends a line. -/
def EndsLines : Bytes → Prop
  | [] => True
  | byte :: rest => (byte = Code.cr → rest.head? = some Code.lf) ∧ EndsLines rest

/-- Framing outside binary mode puts the fillers in and frames the rest as binary mode
would. -/
theorem encode_false_eq (data : Bytes) : encode false data = encode true (fillReturns data) := by
  induction data using units_induction false with
  | nil => rfl
  | escape rest ih =>
    have hfill : fillReturns (Code.iac :: rest) = Code.iac :: fillReturns rest := by
      simp [fillReturns, Code.iac, Code.cr]
    rw [hfill, encode_escape, encode_escape, ih]
  | newline hb rest ih =>
    have hfill : fillReturns (Code.cr :: Code.lf :: rest) =
        Code.cr :: Code.lf :: fillReturns rest := by
      simp [fillReturns, Code.lf, Code.cr]
    rw [hfill, encode_newline, encode_plain _ (by decide) (fun _ => rfl),
      encode_plain _ (by decide) (fun _ => rfl), ih]
  | bare hb rest hn ih =>
    have hfill : fillReturns (Code.cr :: rest) = Code.cr :: Code.nul :: fillReturns rest := by
      simp [fillReturns, hn]
    rw [hfill, encode_bare hn, encode_plain _ (by decide) (fun _ => rfl),
      encode_plain _ (by decide) (fun _ => rfl), ih]
  | plain byte rest hi hc ih =>
    have hcr : byte ≠ Code.cr := fun he => Bool.false_ne_true (hc he)
    have hfill : fillReturns (byte :: rest) = byte :: fillReturns rest := by
      simp [fillReturns, hcr]
    rw [hfill, encode_plain _ hi hc, encode_plain _ hi (fun _ => rfl), ih]

/-- **In binary mode the fillers of a text are payload.** -/
theorem Codec.decode_encode_crossed {c : Codec} (h : c.AtRest) (hb : c.flags.binaryMode = true)
    (data : Bytes) :
    c.decode (Telnet.encode false data) = ({ payload := fillReturns data }, c) := by
  have hencode : Telnet.encode false data = c.encode (fillReturns data) := by
    rw [encode_false_eq, Codec.encode, hb]
  rw [hencode]
  exact decode_encode h _

theorem length_le_fillReturns (data : Bytes) : data.length ≤ (fillReturns data).length := by
  induction data with
  | nil => exact Nat.le_refl _
  | cons byte rest ih =>
    unfold fillReturns
    split <;> simp only [List.length_cons] <;> omega

/-- Fillers are missed by a text exactly if all its returns end lines. -/
theorem fillReturns_eq_self_iff (data : Bytes) : fillReturns data = data ↔ EndsLines data := by
  induction data with
  | nil => exact ⟨fun _ => trivial, fun _ => rfl⟩
  | cons byte rest ih =>
    have hle := length_le_fillReturns rest
    unfold fillReturns EndsLines
    split
    · rename_i hbare
      refine ⟨fun h => ?_, fun h => absurd (h.1 hbare.1) hbare.2⟩
      have hlength := congrArg List.length h
      simp only [List.length_cons] at hlength
      omega
    · rename_i hends
      rw [List.cons.injEq, ih]
      exact ⟨fun h => ⟨fun hc => Classical.byContradiction fun hn => hends ⟨hc, hn⟩, h.2⟩,
        fun h => ⟨rfl, h.2⟩⟩

end Telnet
end RemoteTerminal
