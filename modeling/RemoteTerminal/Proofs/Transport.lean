/-
# Reading and writing keep to themselves

A transport's history holds the calls of both directions in one list.  The answers
to reads (`readAnswers`) are what a reader has to account for; the bytes accepted
(`Transport.accepted`) are what a writer has.  A read leaves the second as it was and
a write the first, so each side of a session can be followed by itself.
-/

import RemoteTerminal.Line

namespace RemoteTerminal

/-- The bytes of an answer; there are none in a failure. -/
def bytesOf {ε : Type} : Except ε Bytes → Bytes
  | .ok data => data
  | .error _ => []

/-- The answer to a read, if the call was one. -/
def Exchange.readAnswer? : Exchange → Option (Except Fault Bytes)
  | read _ answer => some answer
  | _ => none

namespace Transport

/-- The answers to all reads, the first one first. -/
def readAnswers (t : Transport) : List (Except Fault Bytes) :=
  t.history.filterMap Exchange.readAnswer?

/-- Whether a read has found the end of the stream. -/
def SawEnd (t : Transport) : Prop := .ok [] ∈ t.readAnswers

/-- The transport before any call is made to it. -/
def unused (t : Transport) : Transport := { t with history := [], collected := 0 }

/-- The bytes that reads have handed out are those of their answers. -/
theorem delivered_eq (t : Transport) : t.delivered = t.readAnswers.flatMap bytesOf := by
  unfold delivered readAnswers
  induction t.history with
  | nil => rfl
  | cons e rest ih =>
    rw [List.flatMap_cons, ih]
    cases e with
    | read room answer =>
      have hanswer : (Exchange.read room answer).readAnswer? = some answer := rfl
      rw [List.filterMap_cons_some hanswer, List.flatMap_cons]
      cases answer <;> rfl
    | urgent | write | shutdown =>
      rw [List.filterMap_cons_none rfl]
      rfl

/-! ### One read -/

theorem readAnswers_read (room : Nat) (t : Transport) :
    (t.read room).2.readAnswers = t.readAnswers ++ [(t.read room).1] := by
  unfold read
  split <;> simp [readAnswers, record, Exchange.readAnswer?]

@[simp] theorem accepted_read (room : Nat) (t : Transport) :
    (t.read room).2.accepted = t.accepted := by
  unfold read
  split <;> simp [accepted, record, Exchange.sent]

/-- Urgent bytes are no part of the output. -/
@[simp] theorem accepted_urgent (room : Nat) (t : Transport) :
    (t.urgent room).2.accepted = t.accepted := by
  unfold urgent
  split
  · rfl
  · split
    · simp [accepted, record, Exchange.sent]
    · split <;> simp [accepted, record, Exchange.sent]

/-! ### One write -/

@[simp] theorem readAnswers_write (offered : Bytes) (t : Transport) :
    (t.write offered).2.readAnswers = t.readAnswers := by
  unfold write
  split <;> simp [readAnswers, record, Exchange.readAnswer?]

/-- A write uses up one answer. -/
@[simp] theorem outgoing_write (offered : Bytes) (t : Transport) :
    (t.write offered).2.outgoing = t.outgoing.tail := by
  unfold write
  split <;> simp_all [record]

/-- Once the answers are used up a write takes everything. -/
theorem write_of_outgoing_nil (offered : Bytes) {t : Transport} (h : t.outgoing = []) :
    (t.write offered).1 = .ok offered.length := by
  simp [write, h]

end Transport

namespace Line

@[simp] theorem transport_log (notes : List Note) (l : Line) :
    (l.log notes).transport = l.transport := rfl

@[simp] theorem read_fst (room : Nat) (l : Line) :
    (l.read room).1 = (l.transport.read room).1 := rfl

@[simp] theorem transport_read (room : Nat) (l : Line) :
    (l.read room).2.transport = (l.transport.read room).2 := rfl

@[simp] theorem transport_urgent (room : Nat) (l : Line) :
    (l.urgent room).2.transport = (l.transport.urgent room).2 := rfl

section Write

variable {offered : Bytes} {l l' : Line} {count : Nat} {f : Fault} {answer : Except Fault Nat}

theorem accepted_of_write (h : l.write offered = (.ok count, l')) :
    l'.transport.accepted = l.transport.accepted ++ offered.take count := by
  have hanswer : (l.transport.write offered).1 = .ok count := congrArg Prod.fst h
  obtain rfl : (l.write offered).2 = l' := congrArg Prod.snd h
  exact (Transport.write_accepted ..).trans (by rw [hanswer])

theorem accepted_of_failed_write (h : l.write offered = (.error f, l')) :
    l'.transport.accepted = l.transport.accepted := by
  have hanswer : (l.transport.write offered).1 = .error f := congrArg Prod.fst h
  obtain rfl : (l.write offered).2 = l' := congrArg Prod.snd h
  exact (Transport.write_accepted ..).trans (by rw [hanswer, List.append_nil])

theorem readAnswers_of_write (h : l.write offered = (answer, l')) :
    l'.transport.readAnswers = l.transport.readAnswers := by
  obtain rfl : (l.write offered).2 = l' := congrArg Prod.snd h
  exact Transport.readAnswers_write ..

theorem outgoing_of_write (h : l.write offered = (answer, l')) :
    l'.transport.outgoing = l.transport.outgoing.tail := by
  obtain rfl : (l.write offered).2 = l' := congrArg Prod.snd h
  exact Transport.outgoing_write ..

theorem write_of_outgoing_nil (offered : Bytes) (h : l.transport.outgoing = []) :
    l.write offered = (.ok offered.length, (l.write offered).2) :=
  Prod.ext (Transport.write_of_outgoing_nil offered h) rfl

end Write

end Line
end RemoteTerminal
