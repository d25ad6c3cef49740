/-
# A login frame can be read in one way only

The frame has no lengths: four fields, each of which a zero ends, and in the last of them the
line speed behind the terminal's type.  As long as no text has a zero in it, a reader that
knows only this (`readLogin?`) gets back the texts.

| field | text |
| --- | --- |
| first | none |
| second | the account on the client's machine |
| third | the account on the server, which is the same if no other was given |
| fourth | the type of the terminal, then `/38400` |

A type may have slashes in it, and even end like the speed: the speed is what stands last.
The reader stops behind the fourth zero, so no frame is the beginning of another one's
(`login_frame_read`).
-/

import Mathlib.Data.List.Basic
import RemoteTerminal.Proofs.Text.Lossy
import RemoteTerminal.Rlogin.Login

namespace RemoteTerminal
namespace Rlogin

/-! ### Fields that a zero ends -/

/-- The field in front of the first zero, and what follows that. -/
def readField : Bytes → Option (Bytes × Bytes)
  | [] => none
  | byte :: rest =>
    if byte = 0 then some ([], rest) else (readField rest).map fun r => (byte :: r.1, r.2)

/-- So many fields, and what follows them. -/
def readFields : Nat → Bytes → Option (List Bytes × Bytes)
  | 0, bytes => some ([], bytes)
  | count + 1, bytes => do
    let (field, rest) ← readField bytes
    let (fields, rest) ← readFields count rest
    return (field :: fields, rest)

/-- Fields, each with a zero behind it. -/
def endedByZeros (fields : List Bytes) : Bytes := fields.flatMap fun field => field ++ [0]

/-- A field is read to its end, for the first zero is the one behind it. -/
theorem readField_append {field : Bytes} (h : 0 ∉ field) (rest : Bytes) :
    readField (field ++ ([0] ++ rest)) = some (field, rest) := by
  induction field with
  | nil => rfl
  | cons byte field ih =>
    obtain ⟨hbyte, hfield⟩ := not_or.1 (mt List.mem_cons.2 h)
    rw [List.cons_append, readField, if_neg (Ne.symm hbyte), ih hfield]
    rfl

/-- **Fields are read as what they are**, whatever follows. -/
theorem readFields_endedByZeros {fields : List Bytes} (h : ∀ field ∈ fields, 0 ∉ field)
    (rest : Bytes) :
    readFields fields.length (endedByZeros fields ++ rest) = some (fields, rest) := by
  induction fields with
  | nil => rfl
  | cons field fields ih =>
    obtain ⟨hfield, hfields⟩ := List.forall_mem_cons.1 h
    have hwire : endedByZeros (field :: fields) ++ rest =
        field ++ ([0] ++ (endedByZeros fields ++ rest)) := by
      simp [endedByZeros]
    rw [hwire, List.length_cons, readFields, readField_append hfield]
    show (readFields fields.length (endedByZeros fields ++ rest)).bind _ = _
    rw [ih hfields]
    rfl

/-! ### Reading a login -/

/-- How a client introduces itself. -/
structure Introduction where
  /-- The account on its machine. -/
  localUser : Bytes
  /-- The account on the server. -/
  remoteUser : Bytes
  terminalType : Bytes
  deriving DecidableEq, Repr

/-- The introduction in a login frame that stands at the front, and what follows it. -/
def readLogin? (wire : Bytes) : Option (Introduction × Bytes) :=
  match readFields 4 wire with
  | some ([[], localUser, remoteUser, typeAndSpeed], rest) =>
    (typeAndSpeed.dropSuffix? (ascii "/38400")).map fun terminalType =>
      (⟨localUser, remoteUser, terminalType⟩, rest)
  | _ => none

namespace Login

/-- There is no zero in what a client says of itself. -/
structure ZeroFree (l : Login) : Prop where
  localUser : 0 ∉ utf8 l.localUser
  remoteUser : ∀ user ∈ l.remoteUser, 0 ∉ utf8 user
  terminalType : 0 ∉ utf8 l.terminalType

/-- The four fields of a login. -/
def fields (l : Login) : List Bytes :=
  [[], utf8 l.localUser, utf8 l.effectiveRemoteUser, utf8 l.terminalType ++ ascii "/38400"]

theorem frame_eq (l : Login) : l.frame = endedByZeros l.fields := by
  have hspeed : ascii ("/" ++ terminalSpeed) = ascii "/38400" := by decide
  simp [frame, fields, endedByZeros, hspeed]

/-- The account on the server is one of the two that were given. -/
theorem ZeroFree.effectiveRemoteUser {l : Login} (h : l.ZeroFree) :
    0 ∉ utf8 l.effectiveRemoteUser := by
  unfold Login.effectiveRemoteUser
  cases hremote : l.remoteUser with
  | none => exact h.localUser
  | some user => exact h.remoteUser user hremote

theorem ZeroFree.fields {l : Login} (h : l.ZeroFree) : ∀ field ∈ l.fields, 0 ∉ field := by
  have hspeed : 0 ∉ ascii "/38400" := by decide
  have htype : 0 ∉ utf8 l.terminalType ++ ascii "/38400" := by
    rw [List.mem_append]
    exact not_or.2 ⟨h.terminalType, hspeed⟩
  simpa [Login.fields, -List.mem_append] using
    ⟨h.localUser, h.effectiveRemoteUser, htype⟩

/-- A login frame is read as the introduction it is made of. -/
theorem readLogin?_frame {l : Login} (h : l.ZeroFree) (rest : Bytes) :
    readLogin? (l.frame ++ rest) =
      some (⟨utf8 l.localUser, utf8 l.effectiveRemoteUser, utf8 l.terminalType⟩, rest) := by
  have hfields : readFields 4 (endedByZeros l.fields ++ rest) = some (l.fields, rest) :=
    readFields_endedByZeros h.fields rest
  have hspeed : (utf8 l.terminalType ++ ascii "/38400").dropSuffix? (ascii "/38400") =
      some (utf8 l.terminalType) :=
    List.dropSuffix?_eq_some_iff.2 ⟨_, rfl, beq_self_eq_true _⟩
  rw [frame_eq, readLogin?, hfields]
  show ((utf8 l.terminalType ++ ascii "/38400").dropSuffix? (ascii "/38400")).map _ = _
  rw [hspeed]
  rfl

/-- **What a login frame says can be read off it, in one way.**  This is so of every login with
no zero in its texts.

* It is four fields, none of which has a zero in it, each with a zero behind it.  The first is
  empty, and the account on the server is the one on the client's machine if no other was given.
* It is read as those texts, and what follows it is left over.
* Two logins make the same bytes, with anything behind them, exactly if they agree in the three
  texts and in what is behind them. -/
theorem login_frame_read {l : Login} (h : l.ZeroFree) :
    let remoteUser := l.remoteUser.getD l.localUser
    let fields :=
      [[], utf8 l.localUser, utf8 remoteUser, utf8 l.terminalType ++ ascii "/38400"]
    (l.frame = fields.flatMap (· ++ [0]) ∧ ∀ field ∈ fields, 0 ∉ field) ∧
      (∀ rest, readLogin? (l.frame ++ rest) =
        some (⟨utf8 l.localUser, utf8 remoteUser, utf8 l.terminalType⟩, rest)) ∧
      ∀ m : Login, m.ZeroFree → ∀ rest rest',
        l.frame ++ rest = m.frame ++ rest' ↔
          l.localUser = m.localUser ∧ remoteUser = m.remoteUser.getD m.localUser ∧
            l.terminalType = m.terminalType ∧ rest = rest' := by
  intro remoteUser fields
  refine ⟨⟨l.frame_eq, h.fields⟩, readLogin?_frame h, fun m hm rest rest' => ⟨fun heq => ?_, ?_⟩⟩
  · have hread := readLogin?_frame h rest
    rw [heq, readLogin?_frame hm] at hread
    obtain ⟨hsaid, hrest⟩ := Prod.mk.inj (Option.some.inj hread)
    obtain ⟨hlocal, hremote, htype⟩ := Introduction.mk.inj hsaid
    exact ⟨(utf8_inj hlocal).symm, (utf8_inj hremote).symm, (utf8_inj htype).symm, hrest.symm⟩
  · rintro ⟨hlocal, hremote, htype, rfl⟩
    have hremote : l.effectiveRemoteUser = m.effectiveRemoteUser := hremote
    rw [frame, frame, hlocal, hremote, htype]

/-- A type that ends like the speed, no account on this machine, and a window report behind the
frame. -/
theorem login_frame_read_speedTwice :
    let l : Login := { localUser := "", remoteUser := some "root", terminalType := "a/38400" }
    l.ZeroFree ∧ readLogin? (l.frame ++ windowMessage 24 80) =
      some (⟨[], ascii "root", ascii "a/38400"⟩, windowMessage 24 80) := by
  intro l
  have hfree : l.ZeroFree := ⟨by decide +kernel, by simp [l]; decide +kernel, by decide +kernel⟩
  have hread := (login_frame_read hfree).2.1 (windowMessage 24 80)
  have htexts : utf8 l.localUser = [] ∧ utf8 (l.remoteUser.getD l.localUser) = ascii "root" ∧
      utf8 l.terminalType = ascii "a/38400" := by
    decide +kernel
  rw [htexts.1, htexts.2.1, htexts.2.2] at hread
  exact ⟨hfree, hread⟩

end Login
end Rlogin
end RemoteTerminal
