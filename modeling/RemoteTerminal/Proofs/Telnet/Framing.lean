/-
# Units of framed payload

The encoder looks one byte ahead, so its recursion takes one byte or two at a
time.  A text falls into units of four kinds (`units_induction`), and each kind
has its equation:

| unit | mode | on the wire |
| --- | --- | --- |
| `IAC` | both | `IAC IAC` |
| `CR LF` | ASCII | `CR LF` |
| `CR`, no `LF` after it | ASCII | `CR NUL` |
| any other byte | both | itself |

A text may be cut wherever the cut does not part a `CR LF` (`CleanCut`): there the
framed form of the whole is the framed forms of the parts (`encode_append`).  A
limit makes such a cut (`encodeWithin_cut`), as far back as it goes.
-/

import RemoteTerminal.Telnet.Framing

namespace RemoteTerminal
namespace Telnet

/-- **Induction on the units of a text**, as the encoder of a mode takes them. -/
@[elab_as_elim]
theorem units_induction (binary : Bool) {P : Bytes → Prop} (nil : P [])
    (escape : ∀ rest, P rest → P (Code.iac :: rest))
    (newline : binary = false → ∀ rest, P rest → P (Code.cr :: Code.lf :: rest))
    (bare : binary = false → ∀ rest, rest.head? ≠ some Code.lf → P rest → P (Code.cr :: rest))
    (plain : ∀ byte rest, byte ≠ Code.iac → (byte = Code.cr → binary = true) → P rest →
      P (byte :: rest)) : ∀ data, P data
  | [] => nil
  | byte :: rest => by
      have ih := units_induction binary nil escape newline bare plain rest
      by_cases hi : byte = Code.iac
      · exact hi ▸ escape rest ih
      by_cases hc : byte = Code.cr ∧ binary = false
      · obtain ⟨rfl, hb⟩ := hc
        rcases rest with _ | ⟨next, rest⟩
        · exact bare hb [] (by simp) ih
        · by_cases hl : next = Code.lf
          · exact hl ▸ newline hb rest (units_induction binary nil escape newline bare plain rest)
          · exact bare hb (next :: rest) (by simpa using hl) ih
      · exact plain byte rest hi (by simpa using hc) ih

/-! ### The framed form of each unit -/

theorem encode_escape (binary : Bool) (rest : Bytes) :
    encode binary (Code.iac :: rest) = Code.iac :: Code.iac :: encode binary rest := by
  cases rest <;> simp [encode, encodeUnit]

theorem encode_newline (rest : Bytes) :
    encode false (Code.cr :: Code.lf :: rest) = Code.cr :: Code.lf :: encode false rest := by
  simp [encode, encodeUnit, Code.cr, Code.iac]

theorem encode_bare {rest : Bytes} (h : rest.head? ≠ some Code.lf) :
    encode false (Code.cr :: rest) = Code.cr :: Code.nul :: encode false rest := by
  cases rest with
  | nil => simp [encode, encodeUnit, Code.cr, Code.iac]
  | cons next rest =>
    have hl : next ≠ Code.lf := by simpa using h
    simp [encode, encodeUnit, hl, Code.cr, Code.iac]

theorem encode_plain {binary : Bool} {byte : UInt8} (rest : Bytes) (hi : byte ≠ Code.iac)
    (hc : byte = Code.cr → binary = true) :
    encode binary (byte :: rest) = byte :: encode binary rest := by
  have hn : ¬(byte = Code.cr ∧ binary = false) := by simpa using hc
  cases rest <;> simp [encode, encodeUnit, hi, hn]

/-! ### Cuts -/

/-- A cut of a text that does not part the two bytes of an end of line. -/
def CleanCut (binary : Bool) (front back : Bytes) : Prop :=
  binary = false → front.getLast? = some Code.cr → back.head? ≠ some Code.lf

theorem CleanCut.nil (binary : Bool) (back : Bytes) : CleanCut binary [] back := by
  simp [CleanCut]

/-- Whether a cut is clean depends on no more of the back than its first byte. -/
theorem CleanCut.take {binary : Bool} {front back : Bytes} (h : CleanCut binary front back)
    (count : Nat) : CleanCut binary front (back.take count) := by
  intro hb hl
  cases count with
  | zero => simp
  | succ count => cases back <;> simp_all [CleanCut]

theorem CleanCut.tail {binary : Bool} {byte : UInt8} {front back : Bytes}
    (h : CleanCut binary (byte :: front) back) : CleanCut binary front back :=
  fun hb hl => h hb (by simp [List.getLast?_cons, hl])

/-- Of two clean cuts in a row the second is one of the whole. -/
theorem CleanCut.append {binary : Bool} {front middle back : Bytes}
    (h : CleanCut binary front (middle ++ back)) (hm : CleanCut binary middle back) :
    CleanCut binary (front ++ middle) back := by
  rcases middle with _ | ⟨byte, middle⟩
  · simpa using h
  · intro hb hl
    refine hm hb ?_
    simpa [List.getLast?_append, List.getLast?_cons] using hl

/-- **The framed form of a text cut cleanly** is the framed forms of its parts. -/
theorem encode_append {binary : Bool} {front back : Bytes} (h : CleanCut binary front back) :
    encode binary (front ++ back) = encode binary front ++ encode binary back := by
  induction front using units_induction binary with
  | nil => rfl
  | escape rest ih =>
    rw [List.cons_append, encode_escape, encode_escape, ih h.tail]
    rfl
  | newline hb rest ih =>
    subst hb
    rw [List.cons_append, List.cons_append, encode_newline, encode_newline, ih h.tail.tail]
    rfl
  | bare hb rest hn ih =>
    subst hb
    -- The byte after this `CR` may be the first one behind the cut.
    have hnext : (rest ++ back).head? ≠ some Code.lf := by
      cases rest with
      | nil => exact h rfl rfl
      | cons next rest => simpa using hn
    rw [List.cons_append, encode_bare hnext, encode_bare hn, ih h.tail]
    rfl
  | plain byte rest hi hc ih =>
    rw [List.cons_append, encode_plain _ hi hc, encode_plain _ hi hc, ih h.tail]
    rfl

/-! ### Limits -/

/-- A cut of a text, clean, with no more than `limit` bytes of framed form in front
and with no room left for the unit behind it. -/
structure FillsLimit (binary : Bool) (limit : Nat) (data : Bytes) (used : Nat) : Prop where
  le_length : used ≤ data.length
  clean : CleanCut binary (data.take used) (data.drop used)
  fits : (encode binary (data.take used)).length ≤ limit
  full : ∀ byte rest, data.drop used = byte :: rest →
    limit < (encode binary (data.take used)).length + (encodeUnit binary byte rest.head?).1.length

/-- One unit more in front of a cut. -/
theorem FillsLimit.unit {binary : Bool} {limit used : Nat} {front rest : Bytes}
    (hclean : CleanCut binary front rest) (hfits : (encode binary front).length ≤ limit)
    (h : FillsLimit binary (limit - (encode binary front).length) rest used) :
    FillsLimit binary limit (front ++ rest) (front.length + used) := by
  have hlength : (encode binary (front ++ rest.take used)).length =
      (encode binary front).length + (encode binary (rest.take used)).length := by
    rw [encode_append (hclean.take used), List.length_append]
  refine ⟨by simpa using h.le_length, ?_, ?_, fun byte back hback => ?_⟩
  · rw [List.take_length_add_append, List.drop_length_add_append]
    exact CleanCut.append (by simpa using hclean) h.clean
  · have := h.fits
    rw [List.take_length_add_append, hlength]
    omega
  · have := h.full byte back (by simpa [List.drop_length_add_append] using hback)
    rw [List.take_length_add_append, hlength]
    omega

/-- What a limit does at one unit: either it is too small for the unit, or the unit
goes out and the rest has what is left of the limit. -/
theorem exists_cut_of_unit {binary : Bool} {limit : Nat} (front : Bytes) {rest framed : Bytes}
    (hframed : encode binary front = framed) (hclean : CleanCut binary front rest)
    (hhead : ∀ byte back, front ++ rest = byte :: back →
      (encodeUnit binary byte back.head?).1 = framed)
    (hunit : encodeWithin binary limit (front ++ rest) =
      if limit < framed.length then (0, [])
      else (front.length + (encodeWithin binary (limit - framed.length) rest).1,
        framed ++ (encodeWithin binary (limit - framed.length) rest).2))
    (ih : ∃ used, encodeWithin binary (limit - framed.length) rest =
      (used, encode binary (rest.take used)) ∧
        FillsLimit binary (limit - framed.length) rest used) :
    ∃ used, encodeWithin binary limit (front ++ rest) =
      (used, encode binary ((front ++ rest).take used)) ∧
        FillsLimit binary limit (front ++ rest) used := by
  subst hframed
  obtain ⟨used, he, h⟩ := ih
  rw [hunit]
  split
  · rename_i hsmall
    refine ⟨0, by simp [encode], Nat.zero_le _, CleanCut.nil _ _, by simp [encode],
      fun byte back hback => ?_⟩
    rw [hhead byte back hback]
    simpa [encode] using hsmall
  · refine ⟨front.length + used, ?_, h.unit hclean (by omega)⟩
    rw [he, List.take_length_add_append, encode_append (hclean.take used)]

theorem encodeWithin_escape (binary : Bool) (limit : Nat) (rest : Bytes) :
    encodeWithin binary limit (Code.iac :: rest) =
      if limit < 2 then (0, [])
      else (1 + (encodeWithin binary (limit - 2) rest).1,
        Code.iac :: Code.iac :: (encodeWithin binary (limit - 2) rest).2) := by
  cases rest <;> simp [encodeWithin, encodeUnit]

theorem encodeWithin_newline (limit : Nat) (rest : Bytes) :
    encodeWithin false limit (Code.cr :: Code.lf :: rest) =
      if limit < 2 then (0, [])
      else (2 + (encodeWithin false (limit - 2) rest).1,
        Code.cr :: Code.lf :: (encodeWithin false (limit - 2) rest).2) := by
  simp [encodeWithin, encodeUnit, Code.cr, Code.iac]

theorem encodeWithin_bare {rest : Bytes} (limit : Nat) (h : rest.head? ≠ some Code.lf) :
    encodeWithin false limit (Code.cr :: rest) =
      if limit < 2 then (0, [])
      else (1 + (encodeWithin false (limit - 2) rest).1,
        Code.cr :: Code.nul :: (encodeWithin false (limit - 2) rest).2) := by
  cases rest with
  | nil => simp [encodeWithin, encodeUnit, Code.cr, Code.iac]
  | cons next rest =>
    have hl : next ≠ Code.lf := by simpa using h
    simp [encodeWithin, encodeUnit, hl, Code.cr, Code.iac]

theorem encodeWithin_plain {binary : Bool} {byte : UInt8} (limit : Nat) (rest : Bytes)
    (hi : byte ≠ Code.iac) (hc : byte = Code.cr → binary = true) :
    encodeWithin binary limit (byte :: rest) =
      if limit < 1 then (0, [])
      else (1 + (encodeWithin binary (limit - 1) rest).1,
        byte :: (encodeWithin binary (limit - 1) rest).2) := by
  have hn : ¬(byte = Code.cr ∧ binary = false) := by simpa using hc
  cases rest <;> simp [encodeWithin, encodeUnit, hi, hn]

/-- **Framing within a limit cuts the text cleanly** and frames what is in front of
the cut: as many units as fit into `limit` bytes, and no more. -/
theorem encodeWithin_cut (binary : Bool) (limit : Nat) (data : Bytes) :
    ∃ used, encodeWithin binary limit data = (used, encode binary (data.take used)) ∧
      FillsLimit binary limit data used := by
  induction data using units_induction binary generalizing limit with
  | nil => exact ⟨0, by simp [encodeWithin, encode], by simp, CleanCut.nil _ _, by simp [encode],
      by simp⟩
  | escape rest ih =>
    exact exists_cut_of_unit [Code.iac] (encode_escape ..)
      (by simp [CleanCut, Code.iac, Code.cr]) (by simp [encodeUnit, encode])
      (encodeWithin_escape ..) (ih _)
  | newline hb rest ih =>
    subst hb
    exact exists_cut_of_unit [Code.cr, Code.lf] (encode_newline _)
      (by simp [CleanCut, Code.lf, Code.cr]) (by simp [encodeUnit, encode, Code.cr, Code.iac])
      (encodeWithin_newline ..) (ih _)
  | bare hb rest hn ih =>
    subst hb
    exact exists_cut_of_unit [Code.cr] (encode_bare (by simp))
      (fun _ _ => hn) (by simp [encodeUnit, encode, Code.cr, Code.iac, hn])
      (encodeWithin_bare _ hn) (ih _)
  | plain byte rest hi hc ih =>
    have hn : ¬(byte = Code.cr ∧ binary = false) := by simpa using hc
    exact exists_cut_of_unit [byte] (encode_plain _ hi hc)
      (fun hb hl => by simp_all) (by simp [encodeUnit, encode, hi, hn])
      (encodeWithin_plain _ _ hi hc) (ih _)

end Telnet
end RemoteTerminal
