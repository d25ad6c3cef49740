/-
# What announces a transfer first

A protocol opens with a signature (`Protocol.Opens`), and no bytes are opened by both:

| protocol | signature |
| --- | --- |
| Zmodem | the six bytes `**`, `18`, `B00` |
| Kermit | four bytes: `01`, any byte, a space, `S` |

`scan` gives the first place at which a signature stands (`IsFirst`).  More data does not bring
an earlier one (`IsFirst.append`): a Zmodem signature is two bytes longer than one of Kermit, so
it could be cut where the other is whole, but only if it began one byte before it, and there its
second byte would have to be `01`.
-/

import Mathlib.Data.List.Basic
import RemoteTerminal.Autostart

namespace RemoteTerminal
namespace Autostart

/-! ### Signatures -/

/-- The signature of a protocol stands in front. -/
def Protocol.Opens : Protocol → Bytes → Prop
  | .zmodem, data => [0x2A, 0x2A, 0x18, 0x42, 0x30, 0x30] <+: data
  | .kermit, data => ∃ length, [0x01, length, 0x20, 0x53] <+: data

/-- The length of a protocol's signature. -/
def Protocol.width : Protocol → Nat
  | .zmodem => 6
  | .kermit => 4

variable {p q : Protocol} {data more front : Bytes} {a : Announcement}

theorem atFront_eq_some_iff : atFront data = some p ↔ p.Opens data := by
  constructor
  · intro h
    unfold atFront at h
    split at h
    · obtain rfl := Option.some.inj h
      exact ⟨_, rfl⟩
    · obtain rfl := Option.some.inj h
      exact ⟨_, _, rfl⟩
    · cases h
  · intro h
    cases p with
    | zmodem =>
      obtain ⟨rest, rfl⟩ := h
      rfl
    | kermit =>
      obtain ⟨length, rest, rfl⟩ := h
      rfl

theorem atFront_eq_none_iff : atFront data = none ↔ ∀ p : Protocol, ¬p.Opens data := by
  simp only [← atFront_eq_some_iff, Option.eq_none_iff_forall_ne_some]

namespace Protocol

/-- Whether a signature stands in front can be looked up. -/
instance (p : Protocol) : DecidablePred p.Opens := fun _ => decidable_of_iff _ atFront_eq_some_iff

/-- **No bytes are opened by both protocols.** -/
theorem Opens.unique (h : p.Opens data) (h' : q.Opens data) : p = q :=
  Option.some.inj ((atFront_eq_some_iff.2 h).symm.trans (atFront_eq_some_iff.2 h'))

theorem Opens.width_le (h : p.Opens data) : p.width ≤ data.length := by
  cases p with
  | zmodem => exact List.IsPrefix.length_le h
  | kermit =>
    obtain ⟨length, h⟩ := h
    exact List.IsPrefix.length_le h

/-- What follows does not take a signature away. -/
theorem Opens.append (h : p.Opens data) (more : Bytes) : p.Opens (data ++ more) := by
  cases p with
  | zmodem => exact List.IsPrefix.trans h (List.prefix_append ..)
  | kermit =>
    obtain ⟨length, h⟩ := h
    exact ⟨length, h.trans (List.prefix_append ..)⟩

/-- Nor does it bring one to bytes that are as long as one. -/
theorem Opens.of_append (h : p.Opens (data ++ more)) (hwidth : p.width ≤ data.length) :
    p.Opens data := by
  cases p with
  | zmodem => exact List.prefix_of_prefix_length_le h (List.prefix_append ..) hwidth
  | kermit =>
    obtain ⟨length, h⟩ := h
    exact ⟨length, List.prefix_of_prefix_length_le h (List.prefix_append ..) hwidth⟩

/-- The second byte of a Zmodem signature begins none of Kermit. -/
theorem not_opens_kermit_tail (h : zmodem.Opens data) : ¬kermit.Opens data.tail := by
  obtain ⟨rest, rfl⟩ := h
  rintro ⟨length, rest', hrest⟩
  cases hrest

end Protocol

/-! ### The first signature -/

/-- The protocol's signature stands behind so many bytes. -/
def Protocol.StartsAt (p : Protocol) (data : Bytes) (offset : Nat) : Prop :=
  p.Opens (data.drop offset)

/-- An announcement is of a signature, and none stands before it. -/
structure IsFirst (a : Announcement) (data : Bytes) : Prop where
  starts : a.protocol.StartsAt data a.offset
  first : ∀ offset < a.offset, ∀ p : Protocol, ¬p.StartsAt data offset

theorem Protocol.StartsAt.offset_add_width_le {offset : Nat} (h : p.StartsAt data offset) :
    offset + p.width ≤ data.length := by
  have hwidth := h.width_le
  have hpos : 0 < p.width := by cases p <;> decide
  rw [List.length_drop] at hwidth
  omega

theorem IsFirst.unique {b : Announcement} (h : IsFirst a data) (h' : IsFirst b data) : a = b := by
  have hoffset : a.offset = b.offset := by
    rcases Nat.lt_trichotomy a.offset b.offset with hlt | heq | hgt
    · exact absurd h.starts (h'.first _ hlt _)
    · exact heq
    · exact absurd h'.starts (h.first _ hgt _)
  have hprotocol : a.protocol = b.protocol := by
    refine h.starts.unique ?_
    rw [hoffset]
    exact h'.starts
  cases a
  cases b
  simp_all

/-- With some bytes before it, in which no signature begins, the first one stands so much later. -/
theorem IsFirst.shift (h : IsFirst a data)
    (hfront : ∀ offset < front.length, ∀ p : Protocol, ¬p.StartsAt (front ++ data) offset) :
    IsFirst ⟨a.protocol, front.length + a.offset⟩ (front ++ data) := by
  have hdrop (offset : Nat) : (front ++ data).drop (front.length + offset) = data.drop offset :=
    List.drop_length_add_append ..
  refine ⟨?_, fun offset hlt p hp => ?_⟩
  · rw [Protocol.StartsAt, hdrop]
    exact h.starts
  · by_cases hin : offset < front.length
    · exact hfront offset hin p hp
    · obtain ⟨offset, rfl⟩ := Nat.exists_eq_add_of_le (Nat.le_of_not_lt hin)
      rw [Protocol.StartsAt, hdrop] at hp
      exact h.first offset (by dsimp only at hlt; omega) p hp

/-- **More data does not bring an earlier signature.** -/
theorem IsFirst.append (h : IsFirst a data) (more : Bytes) : IsFirst a (data ++ more) := by
  have hend := h.starts.offset_add_width_le
  have hdrop {offset : Nat} (hle : offset ≤ data.length) :
      (data ++ more).drop offset = data.drop offset ++ more :=
    List.drop_append_of_le_length hle
  refine ⟨?_, fun offset hlt p hp => ?_⟩
  · rw [Protocol.StartsAt, hdrop (by omega)]
    exact h.starts.append more
  · have hp' : p.Opens (data.drop offset ++ more) := by
      rwa [Protocol.StartsAt, hdrop (by omega)] at hp
    by_cases hwhole : p.width ≤ (data.drop offset).length
    · exact h.first offset hlt p (hp'.of_append hwhole)
    · -- It is cut in `data`, though a shorter one behind it is not.
      rw [List.length_drop] at hwhole
      cases p with
      | kermit =>
        have hleast : 4 ≤ a.protocol.width := by cases a.protocol <;> decide
        exact hwhole (show 4 ≤ _ by omega)
      | zmodem =>
        have hcut : ¬6 ≤ data.length - offset := hwhole
        cases hprotocol : a.protocol with
        | zmodem =>
          rw [hprotocol] at hend
          have hend : a.offset + 6 ≤ data.length := hend
          omega
        | kermit =>
          rw [hprotocol] at hend
          have hend : a.offset + 4 ≤ data.length := hend
          have hnext : a.offset = offset + 1 := by omega
          have hstarts := h.starts.append more
          rw [hprotocol, hnext, ← hdrop (by omega), ← List.tail_drop] at hstarts
          exact Protocol.not_opens_kermit_tail hp hstarts

/-! ### Scanning -/

/-- A scan finds the first signature, or there is none; by induction on the bytes. -/
theorem scan_cases (data : Bytes) :
    (∃ a, scan data = some a ∧ IsFirst a data) ∨
      scan data = none ∧ ∀ offset, ∀ p : Protocol, ¬p.StartsAt data offset := by
  induction data with
  | nil =>
    refine .inr ⟨rfl, fun offset p h => ?_⟩
    have hend := h.offset_add_width_le
    cases p <;> exact absurd hend (by simp [Protocol.width])
  | cons byte rest ih =>
    unfold scan
    cases hfront : atFront (byte :: rest) with
    | some p =>
      exact .inl ⟨⟨p, 0⟩, rfl, atFront_eq_some_iff.1 hfront, fun _ hlt => absurd hlt (by simp)⟩
    | none =>
      have hnone := atFront_eq_none_iff.1 hfront
      rcases ih with ⟨a, hscan, ha⟩ | ⟨hscan, hrest⟩
      · refine .inl ⟨⟨a.protocol, [byte].length + a.offset⟩, ?_, ha.shift fun offset hlt => ?_⟩
        · rw [hscan, Nat.add_comm]
          rfl
        · obtain rfl : offset = 0 := Nat.lt_one_iff.1 hlt
          exact hnone
      · refine .inr ⟨by rw [hscan]; rfl, fun offset => ?_⟩
        cases offset with
        | zero => exact hnone
        | succ offset => exact hrest offset

/-- **What a scan finds is the first signature.** -/
theorem scan_eq_some_iff : scan data = some a ↔ IsFirst a data := by
  rcases scan_cases data with ⟨b, hscan, hb⟩ | ⟨hscan, hnone⟩
  · rw [hscan, Option.some.injEq]
    exact ⟨fun h => h ▸ hb, fun h => hb.unique h⟩
  · rw [hscan]
    exact ⟨nofun, fun h => absurd h.starts (hnone _ _)⟩

theorem scan_eq_none_iff :
    scan data = none ↔ ∀ offset, ∀ p : Protocol, ¬p.StartsAt data offset := by
  rcases scan_cases data with ⟨b, hscan, hb⟩ | ⟨hscan, hnone⟩
  · rw [hscan]
    exact ⟨nofun, fun h => absurd hb.starts (h _ _)⟩
  · exact ⟨fun _ => hnone, fun _ => hscan⟩

/-- The first place at which the signature of one protocol stands. -/
def search (p : Protocol) (data : Bytes) : Option Nat :=
  (List.range data.length).find? fun offset => p.Opens (data.drop offset)

theorem search_eq_some_iff {offset : Nat} :
    search p data = some offset ↔
      p.StartsAt data offset ∧ ∀ before < offset, ¬p.StartsAt data before := by
  have hpos : 0 < p.width := by cases p <;> decide
  rw [search, List.find?_range_eq_some]
  simp only [decide_eq_true_eq, List.mem_range, Bool.not_eq_true', decide_eq_false_iff_not]
  constructor
  · exact fun h => ⟨h.1, h.2.2⟩
  · intro h
    have hend := h.1.offset_add_width_le
    exact ⟨h.1, by omega, h.2⟩

theorem search_eq_none_iff : search p data = none ↔ ∀ offset, ¬p.StartsAt data offset := by
  have hpos : 0 < p.width := by cases p <;> decide
  rw [search, List.find?_range_eq_none]
  simp only [Bool.not_eq_true', decide_eq_false_iff_not]
  refine ⟨fun h offset hstarts => ?_, fun h offset _ => h offset⟩
  have hend := hstarts.offset_add_width_le
  exact h offset (by omega) hstarts

/-- **One pass is as good as a search for each protocol**, of which the earlier one counts. -/
theorem scan_eq_earlier (data : Bytes) :
    scan data =
      match search .zmodem data, search .kermit data with
      | some z, some k => some (if k < z then ⟨.kermit, k⟩ else ⟨.zmodem, z⟩)
      | some z, none => some ⟨.zmodem, z⟩
      | none, some k => some ⟨.kermit, k⟩
      | none, none => none := by
  have hfirst {p q : Protocol} (hne : p ≠ q) {offset : Nat}
      (hp : search p data = some offset)
      (hq : ∀ before < offset, ¬q.StartsAt data before) : scan data = some ⟨p, offset⟩ := by
    obtain ⟨hstarts, hbefore⟩ := search_eq_some_iff.1 hp
    refine scan_eq_some_iff.2 ⟨hstarts, fun before hlt r => ?_⟩
    have hr : r = p ∨ r = q := by
      cases p <;> cases q <;> cases r <;> simp_all
    rcases hr with rfl | rfl
    · exact hbefore before hlt
    · exact hq before hlt
  cases hz : search .zmodem data with
  | some z =>
    cases hk : search .kermit data with
    | some k =>
      dsimp only
      split
      · rename_i hlt
        exact hfirst (by decide) hk fun before h => (search_eq_some_iff.1 hz).2 before (by omega)
      · rename_i hle
        exact hfirst (by decide) hz fun before h => (search_eq_some_iff.1 hk).2 before (by omega)
    | none => exact hfirst (by decide) hz fun before _ => search_eq_none_iff.1 hk before
  | none =>
    cases hk : search .kermit data with
    | some k => exact hfirst (by decide) hk fun before _ => search_eq_none_iff.1 hz before
    | none =>
      refine scan_eq_none_iff.2 fun offset p => ?_
      cases p with
      | zmodem => exact search_eq_none_iff.1 hz offset
      | kermit => exact search_eq_none_iff.1 hk offset

/-- **A scan finds the first announcement, and more data does not change it.**

* Nothing is found exactly if no signature begins anywhere.
* What is found is a signature, with its protocol and its place, and none begins before it.
* No two signatures begin at the same place.
* What is found in some data is found in all data that begin with them, and it is found so much
  later if other bytes come before them, in which no signature begins. -/
theorem scan_finds_first (data : Bytes) :
    (scan data = none ↔ ∀ offset, ∀ p : Protocol, ¬p.StartsAt data offset) ∧
      (∀ a, scan data = some a ↔
        a.protocol.StartsAt data a.offset ∧
          ∀ offset < a.offset, ∀ p : Protocol, ¬p.StartsAt data offset) ∧
      (∀ offset, ∀ p q : Protocol, p.StartsAt data offset → q.StartsAt data offset → p = q) ∧
      ∀ a, scan data = some a →
        (∀ more, scan (data ++ more) = some a) ∧
          ∀ front : Bytes,
            (∀ offset < front.length, ∀ p : Protocol, ¬p.StartsAt (front ++ data) offset) →
              scan (front ++ data) = some ⟨a.protocol, front.length + a.offset⟩ := by
  refine ⟨scan_eq_none_iff, fun a => ?_, fun offset p q hp hq => hp.unique hq, fun a ha => ?_⟩
  · rw [scan_eq_some_iff]
    exact ⟨fun h => ⟨h.starts, h.first⟩, fun h => ⟨h.1, h.2⟩⟩
  · have hfirst := scan_eq_some_iff.1 ha
    exact ⟨fun more => scan_eq_some_iff.2 (hfirst.append more),
      fun front hfront => scan_eq_some_iff.2 (hfirst.shift hfront)⟩

/-- A Kermit signature after a byte that could begin one of Zmodem, with more such bytes before it
and a whole one of Zmodem behind it. -/
theorem scan_finds_first_kermit :
    let data : Bytes := [0x2A, 0x01, 0x23, 0x20, 0x53]
    let front : Bytes := [0x01, 0x2A]
    (∀ offset < front.length, ∀ p : Protocol, ¬p.StartsAt (front ++ data) offset) ∧
      scan data = some ⟨.kermit, 1⟩ ∧
      scan (data ++ [0x2A, 0x2A, 0x18, 0x42, 0x30, 0x30]) = some ⟨.kermit, 1⟩ ∧
      scan (front ++ data) = some ⟨.kermit, 3⟩ := by
  intro data front
  have hfront : ∀ offset < front.length, ∀ p : Protocol, ¬p.StartsAt (front ++ data) offset := by
    intro offset hlt p
    rw [Protocol.StartsAt, ← atFront_eq_some_iff]
    have hnone : ∀ offset < 2, atFront ((front ++ data).drop offset) = none := by decide
    rw [hnone offset hlt]
    exact nofun
  have hscan : scan data = some ⟨.kermit, 1⟩ := by decide
  obtain ⟨hmore, hshift⟩ := (scan_finds_first data).2.2.2 _ hscan
  exact ⟨hfront, hscan, hmore _, hshift front hfront⟩

end Autostart
end RemoteTerminal
