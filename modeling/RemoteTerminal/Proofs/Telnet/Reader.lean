/-
# What reading depends on

A codec does two things at once: it reads, and it answers.  Reading by itself needs
four fields of it (`Reader`): the role, the flags, the place in the grammar and the
carriage return that is held back.  `step_reader` and `decode_reader` say that the
payload of a stream, and these four fields after it, come from the four fields before
it alone.  What a codec says, to whom, and what it was told of the peer has no part
in it: every operation that speaks leaves the reader as it was.
-/

import RemoteTerminal.Telnet.Codec

namespace RemoteTerminal
namespace Telnet

/-- The flags after a side of the given role was told a verb about an option. -/
def Flags.heed (role : Role) (verb : Verb) (option : TelnetOption) (f : Flags) : Flags :=
  match respond role option verb with
  | .agree on _ _ => f.set option on
  | _ => f

/-- The part of a codec that reading depends on. -/
structure Reader where
  role : Role
  flags : Flags
  state : DecoderState
  pendingCr : Bool
  deriving DecidableEq, Repr

namespace Reader

/-- Read one byte: the payload it makes, and the reader after it. -/
def step (byte : UInt8) (r : Reader) : Bytes × Reader :=
  match r.state with
  | .data =>
    if byte = Code.iac then ([], { r with state := .command })
    else
      let (payload, pendingCr) := Return.step r.flags.binaryMode r.pendingCr byte
      (payload, { r with pendingCr })
  | .command =>
    if byte = Code.iac then
      (Return.release r.pendingCr ++ [Code.iac], { r with state := .data, pendingCr := false })
    else if byte = Code.sb then ([], { r with state := .gather })
    else
      match Verb.ofByte? byte with
      | some verb => ([], { r with state := .negotiate verb })
      | none => ([], { r with state := .data })
  | .negotiate verb =>
    ([], { r with state := .data, flags := r.flags.heed r.role verb (TelnetOption.ofByte byte) })
  | .gather => ([], if byte = Code.iac then { r with state := .gatherCommand } else r)
  | .gatherCommand => ([], { r with state := if byte = Code.se then .data else .gather })

/-- Read bytes in order. -/
def read : Bytes → Reader → Bytes × Reader
  | [], r => ([], r)
  | byte :: rest, r =>
    let (first, r) := r.step byte
    let (more, r) := read rest r
    (first ++ more, r)

/-- A byte makes one byte of payload at most, and one more if a return was held back. -/
theorem length_step_le (byte : UInt8) (r : Reader) :
    (r.step byte).1.length ≤ 1 + r.pendingCr.toNat := by
  have hrelease : (Return.release r.pendingCr).length = r.pendingCr.toNat := by
    cases r.pendingCr <;> rfl
  have hreturn : (Return.step r.flags.binaryMode r.pendingCr byte).1.length ≤
      1 + r.pendingCr.toNat := by
    unfold Return.step
    split
    · rw [List.length_append, hrelease, Nat.add_comm]
      exact Nat.le_refl _
    · cases r.pendingCr with
      | false =>
        rw [if_neg Bool.false_ne_true]
        split <;> simp
      | true =>
        rw [if_pos rfl]
        split
        · simp
        · split
          · simp
          · split <;> simp
  unfold step
  split
  · split
    · exact Nat.zero_le _
    · exact hreturn
  · split
    · rw [List.length_append, hrelease, Nat.add_comm]
      exact Nat.le_refl _
    · split
      · exact Nat.zero_le _
      · split <;> exact Nat.zero_le _
  · exact Nat.zero_le _
  · exact Nat.zero_le _
  · exact Nat.zero_le _

theorem read_append (a b : Bytes) (r : Reader) :
    r.read (a ++ b) = ((r.read a).1 ++ ((r.read a).2.read b).1, ((r.read a).2.read b).2) := by
  induction a generalizing r with
  | nil => rfl
  | cons byte rest ih => simp [read, ih, List.append_assoc]

end Reader

/-- A result that comes from a function comes from a value of it. -/
theorem exists_of_map_eq_ok {ε α β : Type} {f : α → β} {x : Except ε α} {y : β}
    (h : x.map f = .ok y) : ∃ a, f a = y := by
  cases x with
  | error e => cases h
  | ok a => exact ⟨a, Except.ok.inj h⟩

namespace Codec

/-- The reader in a codec. -/
def reader (c : Codec) : Reader := ⟨c.role, c.flags, c.state, c.pendingCr⟩

/-! ### Speaking leaves the reader alone -/

@[simp] theorem reader_announce (verb : Verb) (option : TelnetOption) (c : Codec) :
    (c.announce verb option).2.reader = c.reader := by
  unfold announce
  split <;> rfl

theorem reader_announceAll (verbs : List (Verb × TelnetOption)) (c : Codec) :
    (c.announceAll verbs).2.reader = c.reader := by
  induction verbs generalizing c with
  | nil => rfl
  | cons first rest ih => exact (ih _).trans (reader_announce ..)

@[simp] theorem reader_start (c : Codec) : c.start.2.reader = c.reader := reader_announceAll ..

@[simp] theorem reader_setWindow (window : WindowSize) (c : Codec) :
    (c.setWindow window).2.2.reader = c.reader := by
  unfold setWindow
  dsimp only
  split <;> rfl

@[simp] theorem reader_followUp (next : FollowUp) (c : Codec) :
    (c.followUp next).2.reader = c.reader := by
  cases next <;> rfl

@[simp] theorem reader_gather (byte : UInt8) (c : Codec) : (c.gather byte).2.reader = c.reader := by
  unfold gather
  split <;> rfl

/-- A subnegotiation is answered, or recorded, and no more. -/
theorem reader_handle {option : UInt8} {data : Bytes} {c c' : Codec} {notes : List Note}
    (h : c.handle option data = .ok (notes, c')) : c'.reader = c.reader := by
  unfold handle at h
  split at h
  all_goals first
    | obtain ⟨_, ha⟩ := exists_of_map_eq_ok h
      obtain ⟨-, rfl⟩ := Prod.mk.inj ha
      rfl
    | obtain ⟨-, rfl⟩ := Prod.mk.inj (Except.ok.inj h)
      rfl

@[simp] theorem reader_finish (c : Codec) : c.finish.2.reader = c.reader := by
  unfold finish
  dsimp only
  split
  · rfl
  · split
    · rfl
    · split
      · rename_i hh
        exact (reader_handle hh :)
      · rfl

/-- A verb changes the flags as the response table has it, and nothing else that
reading depends on. -/
theorem reader_negotiate (verb : Verb) (option : TelnetOption) (c : Codec) :
    (c.negotiate verb option).2.reader =
      { c.reader with flags := c.flags.heed c.role verb option } := by
  unfold negotiate Flags.heed
  cases respond c.role option verb with
  | ignore => rfl
  | refuse answer => rfl
  | agree on answer next =>
    dsimp only
    split <;> simp <;> rfl

/-! ### A codec reads as its reader does -/

theorem step_reader (byte : UInt8) (c : Codec) :
    ((c.step byte).1.payload, (c.step byte).2.reader) = c.reader.step byte := by
  obtain ⟨role, terminal, flags, announced, state, pendingCr, gathered, overflow, replies⟩ := c
  cases state with
  | data =>
    by_cases hi : byte = Code.iac <;> simp [step, Reader.step, reader, hi]
  | command =>
    by_cases hi : byte = Code.iac
    · simp [step, Reader.step, reader, hi]
    · by_cases hb : byte = Code.sb
      · simp [step, interpret, Reader.step, reader, hb, Code.sb, Code.iac]
      · cases hv : Verb.ofByte? byte <;>
          simp [step, interpret, Reader.step, reader, hi, hb, hv]
  | negotiate verb =>
    simp [step, Reader.step, reader_negotiate]
    rfl
  | gather =>
    by_cases hi : byte = Code.iac <;> simp [step, Reader.step, hi] <;> rfl
  | gatherCommand =>
    by_cases hi : byte = Code.iac
    · have hs : Code.iac ≠ Code.se := by decide
      simp [step, Reader.step, hi, hs]
      rfl
    · by_cases hs : byte = Code.se
      · have hi : Code.se ≠ Code.iac := by decide
        simp [step, Reader.step, hs, hi]
        rfl
      · simp [step, Reader.step, hi, hs]
        rfl

/-- How much payload one byte makes. -/
theorem length_payload_step_le (byte : UInt8) (c : Codec) :
    (c.step byte).1.payload.length ≤ 1 + c.pendingCr.toNat := by
  have hreader : (c.step byte).1.payload = (c.reader.step byte).1 :=
    congrArg Prod.fst (step_reader byte c)
  rw [hreader]
  exact Reader.length_step_le byte c.reader

/-- **Reading a stream is the reader's work alone.** -/
theorem decode_reader (data : Bytes) (c : Codec) :
    ((c.decode data).1.payload, (c.decode data).2.reader) = c.reader.read data := by
  induction data generalizing c with
  | nil => rfl
  | cons byte rest ih =>
    simp only [decode, Reader.read, ← step_reader, ← ih]
    rfl

/-- Codecs with one reader read the same, and go on with one reader. -/
theorem decode_congr {c c' : Codec} (h : c.reader = c'.reader) (data : Bytes) :
    (c.decode data).1.payload = (c'.decode data).1.payload ∧
      (c.decode data).2.reader = (c'.decode data).2.reader := by
  have hread := (decode_reader data c).trans (h ▸ (decode_reader data c').symm)
  exact ⟨congrArg Prod.fst hread, congrArg Prod.snd hread⟩

end Codec
end Telnet
end RemoteTerminal
