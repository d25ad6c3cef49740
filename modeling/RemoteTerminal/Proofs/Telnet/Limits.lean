/-
# Framing under limits

A caller that has room for so many bytes and no more frames what fits of a text, and comes
back for the rest.  The bytes on the wire are those of the whole text framed at once
(`encodeInTurn_append`), for a limit cuts cleanly (`encodeWithin_cut`); and a caller who
has room for two bytes every time comes to the end (`length_left_le`), since no unit is longer.

The wire shows that what is on it was framed: every `IAC` is one of a pair (`Doubled`), and
outside binary mode every `CR` has its `LF` or `NUL` (`ReturnsCompleted`).
`limited_framing` puts all of this together.
-/

import RemoteTerminal.Proofs.Telnet.Framing
import RemoteTerminal.Telnet.Codec

namespace RemoteTerminal
namespace Telnet

/-! ### What framed payload looks like -/

/-- The `IAC`s among some bytes stand in pairs. -/
inductive Doubled : Bytes → Prop where
  | nil : Doubled []
  | pair {rest : Bytes} (h : Doubled rest) : Doubled (Code.iac :: Code.iac :: rest)
  | other {byte : UInt8} {rest : Bytes} (hb : byte ≠ Code.iac) (h : Doubled rest) :
      Doubled (byte :: rest)

/-- Every `CR` among some bytes is followed by `LF` or by `NUL`. -/
def ReturnsCompleted (bytes : Bytes) : Prop :=
  ∀ i, bytes[i]? = some Code.cr →
    bytes[i + 1]? = some Code.lf ∨ bytes[i + 1]? = some Code.nul

theorem doubled_encode (binary : Bool) (data : Bytes) : Doubled (encode binary data) := by
  induction data using units_induction binary with
  | nil => exact .nil
  | escape rest ih => exact encode_escape binary rest ▸ ih.pair
  | newline hb rest ih =>
    subst hb
    rw [encode_newline]
    exact .other (by decide) (.other (by decide) ih)
  | bare hb rest hn ih =>
    subst hb
    rw [encode_bare hn]
    exact .other (by decide) (.other (by decide) ih)
  | plain byte rest hi hc ih => exact encode_plain rest hi hc ▸ .other hi ih

/-- One more byte in front, which is no return. -/
theorem ReturnsCompleted.cons {byte : UInt8} {rest : Bytes} (hb : byte ≠ Code.cr)
    (h : ReturnsCompleted rest) : ReturnsCompleted (byte :: rest) := by
  intro i hi
  cases i with
  | zero => exact absurd (Option.some.inj hi) hb
  | succ i => exact h i hi

/-- A return in front, with what completes it. -/
theorem ReturnsCompleted.cr_cons {next : UInt8} {rest : Bytes}
    (hn : next = Code.lf ∨ next = Code.nul) (h : ReturnsCompleted rest) :
    ReturnsCompleted (Code.cr :: next :: rest) := by
  have hne : next ≠ Code.cr := by rcases hn with rfl | rfl <;> decide
  intro i hi
  cases i with
  | zero => exact hn.imp (congrArg some) (congrArg some)
  | succ i => exact h.cons hne i hi

theorem returnsCompleted_encode (data : Bytes) : ReturnsCompleted (encode false data) := by
  induction data using units_induction false with
  | nil => exact fun i hi => nomatch hi
  | escape rest ih =>
    rw [encode_escape]
    exact (ih.cons (by decide)).cons (by decide)
  | newline hb rest ih => exact encode_newline rest ▸ ih.cr_cons (.inl rfl)
  | bare hb rest hn ih => exact encode_bare hn ▸ ih.cr_cons (.inr rfl)
  | plain byte rest hi hc ih =>
    exact encode_plain rest hi hc ▸ ih.cons fun h => Bool.false_ne_true (hc h)

/-- The beginning of a text is no longer than the text, framed. -/
theorem length_encode_take_le (binary : Bool) (data : Bytes) (count : Nat) :
    (encode binary (data.take count)).length ≤ (encode binary data).length := by
  induction data using units_induction binary generalizing count with
  | nil => simp
  | escape rest ih =>
    cases count with
    | zero => exact Nat.zero_le _
    | succ count => simpa [encode_escape] using ih count
  | newline hb rest ih =>
    subst hb
    match count with
    | 0 => exact Nat.zero_le _
    -- The beginning is a return by itself, which takes two bytes as well.
    | 1 =>
      rw [encode_newline, List.take_succ_cons, List.take_zero, encode_bare (by simp)]
      simp [encode]
    | count + 2 => simpa [encode_newline] using ih count
  | bare hb rest hn ih =>
    subst hb
    cases count with
    | zero => exact Nat.zero_le _
    | succ count =>
      have hn' : (rest.take count).head? ≠ some Code.lf := by
        cases count <;> cases rest <;> simp_all
      simpa [encode_bare hn, encode_bare hn'] using ih count
  | plain byte rest hi hc ih =>
    cases count with
    | zero => exact Nat.zero_le _
    | succ count => simpa [encode_plain _ hi hc] using ih count

/-! ### One limit after the other -/

/-- A limit of two bytes takes up some of a text, if there is any. -/
theorem encodeWithin_pos {binary : Bool} {limit : Nat} {data : Bytes} (hl : 2 ≤ limit)
    (hd : data ≠ []) : 0 < (encodeWithin binary limit data).1 := by
  obtain ⟨used, he, hcut⟩ := encodeWithin_cut binary limit data
  obtain ⟨byte, rest, rfl⟩ := List.exists_cons_of_ne_nil hd
  rw [he]
  refine Nat.pos_of_ne_zero fun hnone => ?_
  subst hnone
  have hfull := hcut.full byte rest rfl
  have hunit := encodeUnit_length binary byte rest.head?
  simp only [List.take_zero, encode, List.length_nil] at hfull
  omega

/-- Frame a text under one limit after the other, each time what was left over: what goes
out, and what is left over in the end. -/
def encodeInTurn (binary : Bool) : List Nat → Bytes → Bytes × Bytes
  | [], data => ([], data)
  | limit :: limits, data =>
    let (used, out) := encodeWithin binary limit data
    let (more, left) := encodeInTurn binary limits (data.drop used)
    (out ++ more, left)

/-- **The limits do not show**: what went out, and what is left over, framed at once, is the
framed form of the whole. -/
theorem encodeInTurn_append (binary : Bool) (limits : List Nat) (data : Bytes) :
    (encodeInTurn binary limits data).1 ++ encode binary (encodeInTurn binary limits data).2 =
      encode binary data := by
  induction limits generalizing data with
  | nil => rfl
  | cons limit limits ih =>
    obtain ⟨used, he, hcut⟩ := encodeWithin_cut binary limit data
    have hwhole := encode_append hcut.clean
    rw [List.take_append_drop] at hwhole
    simp only [encodeInTurn, he]
    rw [List.append_assoc, ih, hwhole]

/-- Every limit of two bytes takes up a byte of the text at least. -/
theorem length_left_le (binary : Bool) {limits : List Nat} (hlimits : ∀ limit ∈ limits, 2 ≤ limit)
    (data : Bytes) : (encodeInTurn binary limits data).2.length ≤ data.length - limits.length := by
  induction limits generalizing data with
  | nil => exact Nat.le_refl _
  | cons limit limits ih =>
    obtain ⟨hlimit, hrest⟩ := List.forall_mem_cons.1 hlimits
    have hleft := ih hrest (data.drop (encodeWithin binary limit data).1)
    have hused : data.length ≤ (encodeWithin binary limit data).1 ∨
        0 < (encodeWithin binary limit data).1 := by
      by_cases hd : data = []
      · exact .inl (by simp [hd])
      · exact .inr (encodeWithin_pos hlimit hd)
    rw [List.length_drop] at hleft
    rw [List.length_cons]
    exact Nat.le_trans hleft (by omega)

/-- So as many of them as the text has bytes leave nothing over. -/
theorem encodeInTurn_of_length_le {binary : Bool} {limits : List Nat} {data : Bytes}
    (hlimits : ∀ limit ∈ limits, 2 ≤ limit) (h : data.length ≤ limits.length) :
    encodeInTurn binary limits data = (encode binary data, []) := by
  have hleft : (encodeInTurn binary limits data).2 = [] := by
    have := length_left_le binary hlimits data
    exact List.length_eq_zero_iff.1 (by omega)
  have hout := encodeInTurn_append binary limits data
  rw [hleft] at hout
  exact Prod.ext ((List.append_nil _).symm.trans hout) hleft

namespace Codec

/-- **Framing within a limit is framing, cut short where no more fits.**  This is so of every
codec, every text and every limit.

* What goes out is the framed form of the beginning of the text that is used up.  On the way
  there no more is framed at any time than the limit allows.
* The framed form of the whole is what goes out and the framed form of the rest, and if there
  is a rest its first unit has no room.
* Whatever limits the rest is framed under in turn, what went out goes on with it; and if
  each limit is two bytes or more, they come to its end, after as many as it has bytes at most.
* What goes out has its `IAC`s in pairs and outside binary mode its returns completed. -/
theorem limited_framing (c : Codec) (limit : Nat) (data : Bytes) :
    let used := (c.encodeWithin limit data).1
    let out := (c.encodeWithin limit data).2
    let rest := data.drop used
    let inTurn := fun limits => encodeInTurn c.flags.binaryMode limits rest
    (used ≤ data.length ∧ out = c.encode (data.take used) ∧
        ∀ done ≤ used, (c.encode (data.take done)).length ≤ limit) ∧
      (c.encode data = out ++ c.encode rest ∧
        ∀ byte more, rest = byte :: more →
          limit < out.length + (encodeUnit c.flags.binaryMode byte more.head?).1.length) ∧
      (∀ limits, c.encode data = out ++ (inTurn limits).1 ++ c.encode (inTurn limits).2 ∧
        ((∀ l ∈ limits, 2 ≤ l) → rest.length ≤ limits.length →
          (inTurn limits).2 = [] ∧ c.encode data = out ++ (inTurn limits).1)) ∧
      Doubled out ∧ (c.flags.binaryMode = false → ReturnsCompleted out) := by
  intro used out rest inTurn
  obtain ⟨count, he, hcut⟩ := encodeWithin_cut c.flags.binaryMode limit data
  obtain rfl : count = used := (congrArg Prod.fst he).symm
  have hout : out = c.encode (data.take used) := congrArg Prod.snd he
  have hwhole : c.encode data = out ++ c.encode rest := by
    have hparts := encode_append hcut.clean
    rw [List.take_append_drop] at hparts
    exact hout ▸ hparts
  refine ⟨⟨hcut.le_length, hout, fun done hdone => ?_⟩, ⟨hwhole, fun byte more hrest => ?_⟩,
    fun limits => ⟨?_, fun hlimits hlength => ?_⟩, ?_, fun hascii => ?_⟩
  · have hbegin := length_encode_take_le c.flags.binaryMode (data.take used) done
    rw [List.take_take, Nat.min_eq_left hdone] at hbegin
    exact Nat.le_trans hbegin hcut.fits
  · rw [hout]
    exact hcut.full byte more hrest
  · rw [List.append_assoc, hwhole]
    exact congrArg (out ++ ·) (encodeInTurn_append c.flags.binaryMode limits rest).symm
  · have hall : inTurn limits = (c.encode rest, []) := encodeInTurn_of_length_le hlimits hlength
    rw [hall]
    exact ⟨rfl, hwhole⟩
  · exact hout ▸ doubled_encode c.flags.binaryMode (data.take used)
  · have hcompleted := returnsCompleted_encode (data.take used)
    rw [← hascii] at hcompleted
    exact hout ▸ hcompleted

/-- An `IAC` does not fit into the byte that is left, and a `CR LF` not into one byte, which is
put off and not torn apart. -/
example :
    ({} : Codec).encodeWithin 2 [104, 0xFF, 13, 10] = (1, [104]) ∧
      encodeInTurn false [3, 1, 2] [0xFF, 13, 10] = ([0xFF, 0xFF, 13, 10], []) := by
  decide

end Codec
end Telnet
end RemoteTerminal
