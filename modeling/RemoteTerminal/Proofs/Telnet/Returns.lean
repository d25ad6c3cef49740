/-
# Carriage returns in data

`Return.step` takes data byte by byte and remembers one return.  `Return.canonical` says
the same of data as a whole, a return and the byte after it being told together, and
`Return.run_eq` that both are the same.  Each byte comes with the mode that is in effect
when it comes.
-/

import RemoteTerminal.Telnet.Framing

namespace RemoteTerminal
namespace Telnet

namespace Return

/-- The payload of some data, with whether a return is held back before them, and
whether one is after them. -/
def run : Bool → List (Bool × UInt8) → Bytes × Bool
  | pending, [] => ([], pending)
  | pending, (binary, byte) :: rest =>
    let (payload, pending) := step binary pending byte
    let (more, pending) := run pending rest
    (payload ++ more, pending)

theorem run_append (pending : Bool) (a b : List (Bool × UInt8)) :
    run pending (a ++ b) =
      ((run pending a).1 ++ (run (run pending a).2 b).1, (run (run pending a).2 b).2) := by
  induction a generalizing pending with
  | nil => rfl
  | cons first rest ih => simp [run, ih]

/-- The canonical form of some data, each byte with its mode.  Outside binary mode a
return is told together with what follows it there: `CR LF` is a line end, `CR NUL` a
bare return, in `CR CR` the first is bare and the second begins anew.  Before any other
byte a return is as it is, and one that nothing follows is held back.  So are all other
bytes as they are. -/
def canonical : List (Bool × UInt8) → Bytes
  | [] => []
  | [first] => if first = (false, Code.cr) then [] else [first.2]
  | first :: second :: rest =>
    if first = (false, Code.cr) then
      if second = (false, Code.lf) then Code.cr :: Code.lf :: canonical rest
      else if second = (false, Code.nul) then Code.cr :: canonical rest
      else if second = (false, Code.cr) then Code.cr :: Code.nul :: canonical (second :: rest)
      else Code.cr :: canonical (second :: rest)
    else first.2 :: canonical (second :: rest)

/-- Whether the last of some data is a return that is held back. -/
def held (data : List (Bool × UInt8)) : Bool := data.getLast? = some (false, Code.cr)

theorem canonical_cons {first : Bool × UInt8} (h : first ≠ (false, Code.cr))
    (rest : List (Bool × UInt8)) : canonical (first :: rest) = first.2 :: canonical rest := by
  cases rest <;> simp [canonical, h]

theorem held_cons {first : Bool × UInt8} (h : first ≠ (false, Code.cr))
    (rest : List (Bool × UInt8)) : held (first :: rest) = held rest := by
  cases rest <;> simp [held, h]

/-- The return that was held back, as the first of the data to come. -/
def kept (pending : Bool) : List (Bool × UInt8) := if pending then [(false, Code.cr)] else []

/-- A return that is held back is told together with the byte after it. -/
theorem canonical_return (second : Bool × UInt8) (rest : List (Bool × UInt8)) :
    canonical ((false, Code.cr) :: second :: rest) =
        (step second.1 true second.2).1 ++
          canonical (kept (step second.1 true second.2).2 ++ rest) ∧
      held ((false, Code.cr) :: second :: rest) =
        held (kept (step second.1 true second.2).2 ++ rest) := by
  obtain ⟨binary, byte⟩ := second
  have hheld : held ((false, Code.cr) :: (binary, byte) :: rest) = held ((binary, byte) :: rest) :=
    by simp [held]
  rw [hheld]
  cases binary with
  | true =>
    have hne : (true, byte) ≠ (false, Code.cr) := by simp
    exact ⟨by simp [canonical, step, release, kept, canonical_cons hne], held_cons hne rest⟩
  | false =>
    by_cases hlf : byte = Code.lf
    · subst hlf
      exact ⟨rfl, held_cons (by decide) rest⟩
    · by_cases hnul : byte = Code.nul
      · subst hnul
        exact ⟨rfl, held_cons (by decide) rest⟩
      · by_cases hcr : byte = Code.cr
        · subst hcr
          exact ⟨rfl, rfl⟩
        · have hne : (false, byte) ≠ (false, Code.cr) := by simp [hcr]
          have hstep : step false true byte = ([Code.cr, byte], false) := by
            simp [step, hlf, hnul, hcr]
          rw [hstep]
          exact ⟨by simp [canonical, hlf, hnul, hcr, kept, canonical_cons hne], held_cons hne rest⟩

/-- **Data make their canonical form.** -/
theorem run_eq (pending : Bool) (data : List (Bool × UInt8)) :
    run pending data = (canonical (kept pending ++ data), held (kept pending ++ data)) := by
  induction data generalizing pending with
  | nil => cases pending <;> rfl
  | cons first rest ih =>
    obtain ⟨binary, byte⟩ := first
    have hrun : run pending ((binary, byte) :: rest) =
        ((step binary pending byte).1 ++ (run (step binary pending byte).2 rest).1,
          (run (step binary pending byte).2 rest).2) := rfl
    rw [hrun, ih]
    cases pending with
    | true =>
      obtain ⟨hcanonical, hheld⟩ := canonical_return (binary, byte) rest
      rw [← hcanonical, ← hheld]
      rfl
    | false =>
      by_cases hfirst : (binary, byte) = (false, Code.cr)
      · obtain ⟨rfl, rfl⟩ := Prod.mk.inj hfirst
        rfl
      · have hstep : step binary false byte = ([byte], false) := by
          cases binary <;> simp_all [step, release]
        have hnone (data : List (Bool × UInt8)) : kept false ++ data = data := rfl
        rw [hstep, hnone, hnone, canonical_cons hfirst, held_cons hfirst]
        rfl

end Return

end Telnet
end RemoteTerminal
