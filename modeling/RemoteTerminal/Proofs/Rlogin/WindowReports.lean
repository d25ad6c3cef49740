/-
# What an rlogin client has told of its window

A report is a message of twelve bytes, in which a server finds the size in characters and
in pixels (`WindowReport.ofBytes?_windowMessage`).  It stands between plain bytes, and a
caller may write bytes that look like one.  So which reports were made cannot be told from
the output; the ledger tells it, where every stretch is entered for what it is
(`reports`).

Whatever is entered for a call, the size is announced as it has to be (`Ledger.Tells`).
Hence the last report is of the size that there is (`Ledger.Abreast`).
-/

import RemoteTerminal.Proofs.Announcing
import RemoteTerminal.Proofs.Rlogin.OutputStream

namespace RemoteTerminal
namespace Rlogin

/-! ### The message -/

/-- What a server finds in a report. -/
structure WindowReport where
  lines : Nat
  columns : Nat
  /-- The width in pixels. -/
  width : Nat
  /-- The height in pixels. -/
  height : Nat
  deriving DecidableEq, Repr

namespace WindowReport

/-- What is reported of a size: a character is nine pixels wide and sixteen high, and
what is longer than can be told is told as the greatest length. -/
def ofSize (lines columns : UInt16) : WindowReport where
  lines := lines.toNat
  columns := columns.toNat
  width := min (9 * columns.toNat) 65535
  height := min (16 * lines.toNat) 65535

/-- Read a report, which is opened by `FF FF` and `ss`. -/
def ofBytes? : Bytes → Option WindowReport
  | [a, b, c, d, l, l', m, m', w, w', h, h'] =>
    if [a, b, c, d] = [0xFF, 0xFF, 0x73, 0x73] then
      some
        { lines := (ofBigEndian l l').toNat
          columns := (ofBigEndian m m').toNat
          width := (ofBigEndian w w').toNat
          height := (ofBigEndian h h').toNat }
    else none
  | _ => none

theorem toNat_pixels (count : UInt16) (size : Nat) :
    (pixels count size).toNat = min (size * count.toNat) 65535 := by
  rw [pixels, Nat.mul_comm, UInt16.toNat_ofNat']
  exact Nat.mod_eq_of_lt (by omega)

/-- **A server reads what was reported.** -/
theorem ofBytes?_windowMessage (lines columns : UInt16) :
    ofBytes? (windowMessage lines columns) = some (ofSize lines columns) := by
  simp only [windowMessage, bigEndian, List.cons_append, List.nil_append, ofBytes?, if_true,
    ofBigEndian_bigEndian]
  rw [toNat_pixels, toNat_pixels]
  rfl

end WindowReport

/-! ### The ledger -/

/-- The message of a stretch that is a report. -/
def Stretch.report? : Stretch → Option Bytes
  | window lines columns => some (windowMessage lines columns)
  | login _ | text _ => none

/-- The reports among some stretches. -/
def reports (stretches : List Stretch) : List Bytes := stretches.filterMap Stretch.report?

@[simp] theorem reports_append (a b : List Stretch) :
    reports (a ++ b) = reports a ++ reports b :=
  List.filterMap_append ..

/-- What the next report will say after a call. -/
def Call.sized (call : Call) (login : Login) : Login :=
  match call with
  | .resize lines columns => { login with lines, columns }
  | _ => login

namespace Ledger

/-- The report of the window's size, as it is announced. -/
def announcing (l : Ledger) : Announcing Bytes :=
  ⟨l.reporting, windowMessage l.login.lines l.login.columns⟩

/-- A ledger that becomes another, in which the next report will say what a login does,
enters some stretches on the way, and all that has to be reported. -/
structure Tells (login : Login) (new : List Stretch) (l l' : Ledger) : Prop where
  login_eq : l'.login = login
  stretches_eq : l'.stretches = l.stretches ++ new
  announces : Announcing.Tells (reports new) l.announcing l'.announcing

/-- The last report is of the size that there is, if changes are reported. -/
def Abreast (l : Ledger) : Prop :=
  l.reporting = true →
    (reports l.stretches).getLast? = some (windowMessage l.login.lines l.login.columns)

variable {login : Login} {new new' : List Stretch} {l l' l'' : Ledger}

namespace Tells

theorem current (h : Tells login new l l') :
    ∀ message ∈ reports new, message = windowMessage login.lines login.columns := by
  intro message hmessage
  rw [← h.login_eq]
  exact h.announces.current message hmessage

theorem silent (hnew : reports new = []) (hlogin : l'.login = l.login)
    (hreporting : l'.reporting = l.reporting) (hstretches : l'.stretches = l.stretches ++ new) :
    Tells l.login new l l' where
  login_eq := hlogin
  stretches_eq := hstretches
  announces := by
    have hsame : l'.announcing = l.announcing := by rw [announcing, hreporting, hlogin]; rfl
    rw [hnew, hsame]
    exact .refl _

theorem refl (l : Ledger) : Tells l.login [] l l := silent rfl rfl rfl (List.append_nil _).symm

theorem trans (h : Tells login new l l') (h' : Tells login new' l' l'') :
    Tells login (new ++ new') l l'' where
  login_eq := h'.login_eq
  stretches_eq := by rw [h'.stretches_eq, h.stretches_eq, List.append_assoc]
  announces := by
    have hsame : l'.announcing.value = l''.announcing.value := by
      simp only [announcing, h.login_eq, h'.login_eq]
    rw [reports_append]
    exact h.announces.trans h'.announces hsame

/-- A report says what it has to, whether or not changes were reported before. -/
theorem report (reporting : Bool) (l : Ledger) :
    Tells l.login [.window l.login.lines l.login.columns] l
      { l with reporting }.report where
  login_eq := rfl
  stretches_eq := rfl
  announces := ⟨fun _ h => List.mem_singleton.1 h, fun _ => .inl (List.cons_ne_nil _ _)⟩

/-- **What is told keeps a ledger abreast.** -/
theorem abreast (h : Tells login new l l') (hl : l.Abreast) : l'.Abreast := by
  intro hon
  rw [h.stretches_eq, reports_append]
  exact h.announces.getLast?_eq hl hon

end Tells

theorem start_tells (l : Ledger) : ∃ new, Tells l.login new l l.start := by
  unfold start
  split
  · exact ⟨[.login l.login.frame], .silent rfl rfl rfl rfl⟩
  · exact ⟨[], .refl l⟩

theorem text_tells (l : Ledger) (data : Bytes) :
    ∃ new, Tells l.login new l (l.start.add (.text data)) := by
  obtain ⟨new, hstart⟩ := start_tells l
  have htext : Tells l.start.login [.text data] l.start (l.start.add (.text data)) :=
    .silent rfl rfl rfl rfl
  rw [hstart.login_eq] at htext
  exact ⟨new ++ [.text data], hstart.trans htext⟩

/-- **What is entered for a call**: of the window the size that there is after it, if
anything. -/
theorem enter_tells (l : Ledger) (e : Entry) :
    ∃ new, Tells (e.call.sized l.login) new l (l.enter e) := by
  obtain ⟨call, outcome, urgent⟩ := e
  cases call with
  | start | read room => exact start_tells l
  | readUrgent =>
    unfold enter
    dsimp only
    split
    · exact ⟨_, .report true l⟩
    · exact ⟨[], .refl l⟩
  | write data =>
    unfold enter
    dsimp only
    split
    · exact text_tells l _
    · exact start_tells l
  | flush => exact ⟨[], .refl l⟩
  | resize lines columns =>
    unfold enter
    dsimp only
    split
    · have hreport := Tells.report l.reporting (l.resize lines columns)
      exact ⟨_, rfl, rfl, hreport.announces.current, fun _ => .inl (List.cons_ne_nil _ _)⟩
    · rename_i hoff
      exact ⟨[], rfl, (List.append_nil _).symm, (fun _ h => nomatch h), fun hon => absurd hon hoff⟩

/-- A change that is not reported is not entered. -/
theorem stretches_enter_resize {e : Entry} {lines columns : UInt16}
    (hcall : e.call = .resize lines columns) (hoff : l.reporting = false) :
    (l.enter e).stretches = l.stretches := by
  simp [enter, hcall, hoff, resize]

end Ledger
end Rlogin
end RemoteTerminal
