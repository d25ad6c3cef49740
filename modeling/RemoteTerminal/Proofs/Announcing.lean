/-
# Announcing a value

A side that keeps a value may have to announce it: once when announcing comes on, and from
then on whenever the value changes.  What it announces in going from one state to another
is so if every announcement is of the value that there is in the end, and if none was made
while announcing is on in the end then it was on before, and the value is the same
(`Announcing.Tells`).  Then the last announcement is of the value that there is
(`Tells.getLast?_eq`).

The value is the size of a window here, in the two protocols that report it.
-/

namespace RemoteTerminal

/-- A value, and whether it is announced. -/
structure Announcing (α : Type) where
  on : Bool
  value : α

namespace Announcing

variable {α : Type} {new new' old : List α} {a a' a'' : Announcing α}

/-- What has to be announced in going from one state to another. -/
structure Tells (new : List α) (a a' : Announcing α) : Prop where
  /-- The announcements are all of the value that there is in the end. -/
  current : ∀ x ∈ new, x = a'.value
  /-- If there is none, there was no need of one. -/
  informed : a'.on = true → new ≠ [] ∨ a.on = true ∧ a.value = a'.value

theorem Tells.refl (a : Announcing α) : Tells [] a a where
  current _ h := nomatch h
  informed hon := .inr ⟨hon, rfl⟩

/-- Announcing twice, with no change of the value in between. -/
theorem Tells.trans (h : Tells new a a') (h' : Tells new' a' a'') (hsame : a'.value = a''.value) :
    Tells (new ++ new') a a'' where
  current x hx := by
    rcases List.mem_append.1 hx with hx | hx
    · exact (h.current x hx).trans hsame
    · exact h'.current x hx
  informed hon := by
    rcases h'.informed hon with hnew | ⟨hbefore, -⟩
    · exact .inl (List.append_ne_nil_of_right_ne_nil _ hnew)
    · rcases h.informed hbefore with hnew | ⟨hbefore, hvalue⟩
      · exact .inl (List.append_ne_nil_of_left_ne_nil hnew _)
      · exact .inr ⟨hbefore, hvalue.trans hsame⟩

/-- **The last announcement is of the value that there is**, if it was so before. -/
theorem Tells.getLast?_eq (h : Tells new a a')
    (hold : a.on = true → old.getLast? = some a.value) (hon : a'.on = true) :
    (old ++ new).getLast? = some a'.value := by
  cases hnew : new.getLast? with
  | some x =>
    rw [List.getLast?_append, hnew, h.current x (List.mem_of_getLast? hnew)]
    rfl
  | none =>
    obtain rfl := List.getLast?_eq_none_iff.1 hnew
    rcases h.informed hon with hne | ⟨hbefore, hvalue⟩
    · exact absurd rfl hne
    · rw [List.append_nil, hold hbefore, hvalue]

end Announcing
end RemoteTerminal
