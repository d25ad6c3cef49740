/-
# What an rlogin session writes comes to

Three kinds of bytes enter the output of a session: its login frame, what a caller
writes, and the reports of the window's size.  A `Ledger` keeps them in the order in
which they came up.  It is made from the calls alone, with their outcomes and what the
transport had to answer to an urgent read (`Entry`): a caller's bytes are entered once a
write has answered for them, and a report whenever the server asks for one or, from
then on, the size changes.

What the transport has accepted, followed by what is pending, is what the ledger holds
(`matches_run`), and what the ledger holds depends on what opens the session.  A start,
a read or a write logs in, which puts the frame before all else and is done once.  But an
urgent byte is acted on in a session that has not begun as well.  If it asks for the
window's size, the report is the first thing that is said, the session counts as begun,
and it never logs in (`login_first`).
-/

import RemoteTerminal.Proofs.Rlogin.Steps
import RemoteTerminal.Proofs.Stream.Intake
import RemoteTerminal.Proofs.Stream.Outbox
import RemoteTerminal.Rlogin.Run

namespace RemoteTerminal
namespace Rlogin

/-! ### The ledger -/

/-- A stretch of output. -/
inductive Stretch where
  /-- The login frame. -/
  | login (frame : Bytes)
  /-- A caller's bytes. -/
  | text (data : Bytes)
  /-- A report of the window's size. -/
  | window (lines columns : UInt16)
  deriving DecidableEq, Repr

namespace Stretch

/-- The bytes of a stretch on the wire. -/
def bytes : Stretch → Bytes
  | login frame => frame
  | text data => data
  | window lines columns => windowMessage lines columns

/-- Whether a stretch is a login frame. -/
def isLogin : Stretch → Bool
  | login _ => true
  | text _ | window _ _ => false

end Stretch

/-- What can open a session. -/
inductive Opening where
  /-- The client logs in. -/
  | login
  /-- The server asks for the window's size. -/
  | request
  deriving DecidableEq, Repr

/-- Whether a call logs in, unless something has opened the session before. -/
def Call.logsIn : Call → Bool
  | start | read _ | write _ => true
  | readUrgent | flush | resize _ _ => false

/-- A call, its outcome, and what the transport had to answer to an urgent read. -/
structure Entry where
  call : Call
  outcome : Outcome TransportError
  urgent : Except Fault Bytes

namespace Entry

/-- Whether a call has taken an urgent byte that asks for the window's size. -/
def asks (e : Entry) : Bool :=
  match e.call, e.urgent with
  | .readUrgent, .ok [byte] => Control.has byte Control.window
  | _, _ => false

/-- What a call opens a session with, if it is the first that does. -/
def opening? (e : Entry) : Option Opening :=
  if e.call.logsIn then some .login else if e.asks then some .request else none

end Entry

/-- The output so far, and what the next report will say. -/
structure Ledger where
  login : Login
  /-- Whether changes of the window's size are reported. -/
  reporting : Bool := false
  stretches : List Stretch := []

namespace Ledger

/-- All output, in order. -/
def output (l : Ledger) : Bytes := l.stretches.flatMap Stretch.bytes

/-- Enter a stretch. -/
def add (st : Stretch) (l : Ledger) : Ledger := { l with stretches := l.stretches ++ [st] }

/-- Log in, unless something was said before. -/
def start (l : Ledger) : Ledger := if l.stretches = [] then l.add (.login l.login.frame) else l

/-- Report the window's size. -/
def report (l : Ledger) : Ledger := l.add (.window l.login.lines l.login.columns)

/-- The window has another size. -/
def resize (lines columns : UInt16) (l : Ledger) : Ledger :=
  { l with login := { l.login with lines, columns } }

/-- Enter what comes of a call.  A write has put out the bytes that it answers for, and
none if it failed. -/
def enter (l : Ledger) (e : Entry) : Ledger :=
  match e.call with
  | .start | .read _ => l.start
  | .readUrgent => if e.asks then { l with reporting := true }.report else l
  | .write data =>
    match e.outcome with
    | .count (.ok count) => l.start.add (.text (data.take count))
    | _ => l.start
  | .flush => l
  | .resize lines columns =>
    if l.reporting then (l.resize lines columns).report else l.resize lines columns

/-- How a ledger begins, by what has opened the session. -/
def OpenedBy (l : Ledger) (frame : Bytes) : Option Opening → Prop
  | none => l.stretches = []
  | some .login =>
    ∃ rest, l.stretches = .login frame :: rest ∧ ∀ st ∈ rest, st.isLogin = false
  | some .request =>
    ∃ lines columns rest, l.stretches = .window lines columns :: rest ∧
      ∀ st ∈ rest, st.isLogin = false

end Ledger

namespace Session

/-- A session on a transport that nobody has used. -/
def fresh (login : Login) (size timeout : Nat) (t : Transport) : Session :=
  create login size timeout t.unused

/-- A call as it is entered. -/
def entry (call : Call) (s : Session) : Entry where
  call := call
  outcome := (s.perform call).1
  urgent := (s.line.urgent 1).1

/-- Calls as they are entered, made in order. -/
def entries : List Call → Session → List Entry
  | [], _ => []
  | call :: rest, s => s.entry call :: entries rest (s.perform call).2

end Session

/-! ### The calls, seen from the output -/

/-- What a session looks like from the output side. -/
structure View where
  login : Login
  progress : Progress
  output : Bytes

namespace View

/-- More output. -/
def queue (bytes : Bytes) (v : View) : View := { v with output := v.output ++ bytes }

/-- Log in, unless the session has begun. -/
def start (v : View) : View :=
  if v.progress.isStarted then v else { v with progress := .sentLogin }.queue v.login.frame

/-- Report the window's size. -/
def report (v : View) : View := v.queue (windowMessage v.login.lines v.login.columns)

/-- Act on an urgent byte. -/
def heed (byte : UInt8) (v : View) : View :=
  if Control.has byte Control.window then { v with progress := .established }.report else v

/-- Take what an urgent read was answered. -/
def take (answer : Except Fault Bytes) (v : View) : View :=
  match answer with
  | .ok [byte] => v.heed byte
  | _ => v

/-- The window has another size. -/
def resize (lines columns : UInt16) (v : View) : View :=
  { v with login := { v.login with lines, columns } }

@[simp] theorem queue_nil (v : View) : v.queue [] = v := by simp [queue]

theorem start_isStarted (v : View) : v.start.progress.isStarted = true := by
  unfold start
  split
  · assumption
  · rfl

end View

namespace Session

/-- What a session looks like from the output side. -/
def view (s : Session) : View where
  login := s.login
  progress := s.progress
  output := s.outbox.output s.line

/-- Bytes that moved from the outbox to the transport are not seen to have moved. -/
theorem view_of_conserves {s : Session} {data : Bytes} {outbox : Outbox} {line : Line}
    (h : (s.outbox.extend data).Conserves s.line outbox line) :
    { s with outbox, line }.view = s.view.queue data := by
  simp only [view, View.queue, h.output_eq, Outbox.output_extend]

@[simp] theorem view_push (bytes : Bytes) (s : Session) :
    (s.push bytes).2.view = s.view.queue bytes :=
  view_of_conserves (Outbox.flushRetry_conserves s.timeout (s.outbox.extend bytes) s.line)

@[simp] theorem view_start (s : Session) : s.start.2.view = s.view.start := by
  unfold start View.start
  by_cases h : s.progress.isStarted = true
  · rw [if_pos h, if_pos (show s.view.progress.isStarted = true from h)]
  · rw [if_neg h, if_neg (show ¬s.view.progress.isStarted = true from h), view_push]
    rfl

/-- A read is a start. -/
@[simp] theorem view_read (room : Nat) (s : Session) : (s.read room).2.view = s.view.start := by
  rw [← view_start]
  have hreads := read_readsBy room s
  generalize s.read room = result at hreads ⊢
  cases hreads with
  | unstarted hs => rfl
  | started hs =>
    have haccepted := Intake.accepted_read room s.start.2.intake s.start.2.line
    simp only [view, Outbox.output, haccepted]

@[simp] theorem view_sendWindow (s : Session) : s.sendWindow.2.view = s.view.report :=
  view_push ..

@[simp] theorem view_applyModes (byte : UInt8) (s : Session) :
    (s.applyModes byte).view = s.view := by
  unfold applyModes
  dsimp only
  split <;> split <;> split <;> split <;> rfl

@[simp] theorem view_handleControl (byte : UInt8) (s : Session) :
    (s.handleControl byte).2.view = s.view.heed byte := by
  have hsent : s.asked.sendWindow.2.view = View.report { s.view with progress := .established } :=
    view_sendWindow s.asked
  have hheeds := handleControl_heedsBy byte s
  generalize s.handleControl byte = result at hheeds ⊢
  unfold View.heed
  cases hheeds with
  | unreported hwindow hs =>
    rw [if_pos hwindow]
    exact hsent
  | reported hwindow hs =>
    rw [if_pos hwindow]
    exact (view_applyModes byte s.asked.sendWindow.2).trans hsent
  | unasked hwindow =>
    rw [if_neg (Bool.eq_false_iff.1 hwindow)]
    exact view_applyModes byte s

/-- An urgent read changes nothing unless it takes a byte. -/
@[simp] theorem view_readUrgent (s : Session) :
    s.readUrgent.2.view = s.view.take (s.line.urgent 1).1 := by
  have hview : s.polled.view = s.view := by
    simp only [polled, view, Outbox.output, Line.transport_urgent, Transport.accepted_urgent]
  have htakes := readUrgent_takesBy s
  generalize s.readUrgent = result at htakes ⊢
  cases htakes with
  | heeded hb hc =>
    rw [hb, ← hview]
    exact view_handleControl _ s.polled
  | unheeded hb hc =>
    rw [hb, ← hview]
    exact view_handleControl _ s.polled
  | nothing hb =>
    unfold View.take
    split
    · rename_i byte hanswer
      exact absurd hanswer (hb byte)
    · exact hview
  | failed hb =>
    rw [hb]
    exact hview

/-- A write is a start, and queues the bytes that it answers for. -/
theorem view_write (data : Bytes) (s : Session) :
    (s.write data).2.view = s.view.start.queue (Outbox.counted data (s.write data).1) := by
  rw [← view_start]
  have hwrites := write_writesBy data s
  generalize s.write data = result at hwrites ⊢
  cases hwrites with
  | unstarted hs => rw [Outbox.counted, View.queue_nil]
  | started hs =>
    exact view_of_conserves (Outbox.write_conserves data s.start.2.outbox s.start.2.line)

@[simp] theorem view_flush (s : Session) : s.flush.2.view = s.view := by
  have h := Outbox.flush_conserves s.outbox s.line
  simp only [flush, view, h.output_eq]

theorem view_resize (lines columns : UInt16) (s : Session) :
    (s.resize lines columns).2.view =
      if s.progress = .established then (s.view.resize lines columns).report
      else s.view.resize lines columns := by
  unfold resize
  dsimp only
  split
  · exact view_sendWindow _
  · rfl

end Session

/-! ### The ledger is right -/

/-- A ledger that holds the output of a view. -/
structure Matches (l : Ledger) (v : View) : Prop where
  login_eq : l.login = v.login
  reporting_iff : l.reporting = true ↔ v.progress = .established
  begun_iff : l.stretches ≠ [] ↔ v.progress.isStarted = true
  output_eq : l.output = v.output

namespace Matches

variable {l : Ledger} {v : View}

/-- A stretch is entered in a session that has begun. -/
theorem add (hlogin : l.login = v.login)
    (hreporting : l.reporting = true ↔ v.progress = .established) (houtput : l.output = v.output)
    (hbegun : v.progress.isStarted = true) (st : Stretch) :
    Matches (l.add st) (v.queue st.bytes) where
  login_eq := hlogin
  reporting_iff := hreporting
  begun_iff := by simp [Ledger.add, View.queue, hbegun]
  output_eq := by
    rw [Ledger.add, Ledger.output, List.flatMap_append, View.queue, ← houtput, Ledger.output,
      List.flatMap_singleton]

theorem start (h : Matches l v) : Matches l.start v.start := by
  unfold Ledger.start View.start
  by_cases hl : l.stretches = []
  · have hidle : ¬v.progress.isStarted = true := fun hv => h.begun_iff.2 hv hl
    have hquiet : ¬l.reporting = true := fun hr => hidle (by rw [h.reporting_iff.1 hr]; rfl)
    rw [if_pos hl, if_neg hidle, h.login_eq]
    refine add (v := { v with progress := .sentLogin }) h.login_eq ?_ h.output_eq rfl
      (.login v.login.frame)
    constructor
    · exact fun hr => absurd hr hquiet
    · exact fun hv => nomatch hv
  · rw [if_neg hl, if_pos (h.begun_iff.1 hl)]
    exact h

theorem text (h : Matches l v) (data : Bytes) :
    Matches (l.start.add (.text data)) (v.start.queue data) :=
  add h.start.login_eq h.start.reporting_iff h.start.output_eq v.start_isStarted (.text data)

theorem report (h : Matches l v) (hv : v.progress.isStarted = true) :
    Matches l.report v.report := by
  unfold Ledger.report View.report
  rw [h.login_eq]
  exact add h.login_eq h.reporting_iff h.output_eq hv (.window v.login.lines v.login.columns)

/-- The report that the server asks for may be the first thing that is said. -/
theorem request (h : Matches l v) :
    Matches { l with reporting := true }.report { v with progress := .established }.report := by
  obtain ⟨login, reporting, stretches⟩ := l
  obtain ⟨rfl, -, -, houtput⟩ := h
  exact add (l := ⟨v.login, true, stretches⟩) (v := { v with progress := .established }) rfl
    (by simp) houtput rfl (.window v.login.lines v.login.columns)

theorem resize (h : Matches l v) (lines columns : UInt16) :
    Matches (l.resize lines columns) (v.resize lines columns) :=
  ⟨by rw [Ledger.resize, View.resize, h.login_eq], h.reporting_iff, h.begun_iff, h.output_eq⟩

end Matches

namespace Session

variable {l : Ledger}

/-- **Every call adds to the output what is entered for it.** -/
theorem matches_perform (call : Call) {s : Session} (h : Matches l s.view) :
    Matches (l.enter (s.entry call)) (s.perform call).2.view := by
  cases call with
  | start => exact view_start s ▸ h.start
  | read room => exact view_read room s ▸ h.start
  | readUrgent =>
    have hview : (s.perform .readUrgent).2.view = _ := view_readUrgent s
    rw [hview]
    unfold Ledger.enter entry Entry.asks View.take
    dsimp only
    rcases (s.line.urgent 1).1 with f | _ | ⟨byte, _ | ⟨second, rest⟩⟩
    · exact h
    · exact h
    · dsimp only [View.heed]
      split
      · exact h.request
      · exact h
    · exact h
  | write data =>
    have hview : (s.perform (.write data)).2.view = _ := view_write data s
    have hentry : s.entry (.write data) =
      ⟨.write data, .count (s.write data).1, (s.line.urgent 1).1⟩ := rfl
    rw [hview, hentry]
    cases (s.write data).1 with
    | ok count => exact h.text (data.take count)
    | error e =>
      rw [Outbox.counted, View.queue_nil]
      exact h.start
  | flush => exact view_flush s ▸ h
  | resize lines columns =>
    have hview : (s.perform (.resize lines columns)).2.view = _ := view_resize lines columns s
    have hresized := h.resize lines columns
    rw [hview]
    unfold Ledger.enter entry
    dsimp only
    by_cases hp : s.progress = .established
    · rw [if_pos hp, if_pos (h.reporting_iff.2 hp)]
      exact hresized.report (by rw [View.resize, view, hp]; rfl)
    · rw [if_neg hp, if_neg fun hr => hp (h.reporting_iff.1 hr)]
      exact hresized

/-- So do runs. -/
theorem matches_run (calls : List Call) {s : Session} (h : Matches l s.view) :
    Matches ((entries calls s).foldl Ledger.enter l) (s.run calls).2.view := by
  induction calls generalizing s l with
  | nil => exact h
  | cons call rest ih => exact ih (matches_perform call h)

end Session

/-! ### What comes first -/

namespace Ledger

variable {l l' l'' : Ledger} {e : Entry} {frame : Bytes}

/-- Nothing but texts and reports was entered since. -/
def Continues (l l' : Ledger) : Prop :=
  ∃ more, l'.stretches = l.stretches ++ more ∧ ∀ st ∈ more, st.isLogin = false

namespace Continues

theorem refl (l : Ledger) : Continues l l := ⟨[], by simp, by simp⟩

theorem add (l : Ledger) {st : Stretch} (h : st.isLogin = false) : Continues l (l.add st) :=
  ⟨[st], rfl, by simpa using h⟩

theorem trans (h : Continues l l') (h' : Continues l' l'') : Continues l l'' := by
  obtain ⟨more, hmore, hlogin⟩ := h
  obtain ⟨rest, hrest, hlogin'⟩ := h'
  refine ⟨more ++ rest, by rw [hrest, hmore, List.append_assoc], fun st hst => ?_⟩
  rcases List.mem_append.1 hst with hst | hst
  · exact hlogin st hst
  · exact hlogin' st hst

theorem ne_nil (h : Continues l l') (hl : l.stretches ≠ []) : l'.stretches ≠ [] := by
  obtain ⟨more, hmore, -⟩ := h
  simp [hmore, hl]

end Continues

/-- A call that logs in enters its login first. -/
theorem continues_enter_of_logsIn (h : e.call.logsIn = true) : Continues l.start (l.enter e) := by
  unfold enter
  revert h
  cases e.call with
  | start | read room => exact fun _ => .refl _
  | write data =>
    intro _
    dsimp only
    split
    · exact .add _ rfl
    · exact .refl _
  | readUrgent | flush | resize lines columns => exact fun h => nomatch h

/-- Any other call enters reports at most. -/
theorem continues_enter_of_not_logsIn (h : e.call.logsIn = false) : Continues l (l.enter e) := by
  unfold enter
  revert h
  cases e.call with
  | readUrgent =>
    intro _
    dsimp only
    split
    · exact .add _ rfl
    · exact .refl _
  | flush => exact fun _ => .refl _
  | resize lines columns =>
    intro _
    dsimp only
    split
    · exact .add _ rfl
    · exact .refl _
  | start | read room | write data => exact fun h => nomatch h

/-- Once anything was said, there are no more logins. -/
theorem continues_foldl (es : List Entry) (h : l.stretches ≠ []) :
    Continues l (es.foldl enter l) := by
  induction es generalizing l with
  | nil => exact .refl l
  | cons e es ih =>
    have hone : Continues l (l.enter e) := by
      by_cases he : e.call.logsIn = true
      · have hstart : l.start = l := if_neg h
        have hlogin := continues_enter_of_logsIn (l := l) he
        rwa [hstart] at hlogin
      · exact continues_enter_of_not_logsIn (by simpa using he)
    exact hone.trans (ih (hone.ne_nil h))

theorem OpenedBy.ne_nil {o : Opening} (h : l.OpenedBy frame (some o)) : l.stretches ≠ [] := by
  cases o with
  | login =>
    obtain ⟨rest, hrest, -⟩ := h
    simp [hrest]
  | request =>
    obtain ⟨lines, columns, rest, hrest, -⟩ := h
    simp [hrest]

theorem OpenedBy.of_continues {o : Opening} (h : l.OpenedBy frame (some o))
    (hl : Continues l l') : l'.OpenedBy frame (some o) := by
  obtain ⟨more, hmore, hlogin⟩ := hl
  cases o with
  | login =>
    obtain ⟨rest, hrest, hnone⟩ := h
    refine ⟨rest ++ more, by rw [hmore, hrest, List.cons_append], fun st hst => ?_⟩
    rcases List.mem_append.1 hst with hst | hst
    · exact hnone st hst
    · exact hlogin st hst
  | request =>
    obtain ⟨lines, columns, rest, hrest, hnone⟩ := h
    refine ⟨lines, columns, rest ++ more, by rw [hmore, hrest, List.cons_append], fun st hst => ?_⟩
    rcases List.mem_append.1 hst with hst | hst
    · exact hnone st hst
    · exact hlogin st hst

/-- As long as nothing has opened the session, nothing is entered. -/
theorem enter_of_opening?_eq_none (hl : l.stretches = []) (hr : l.reporting = false)
    (h : e.opening? = none) :
    (l.enter e).stretches = [] ∧ (l.enter e).reporting = false ∧
      (l.enter e).login.frame = l.login.frame := by
  obtain ⟨call, outcome, urgent⟩ := e
  unfold Entry.opening? at h
  cases call with
  | start | read room | write data => exact nomatch h
  | readUrgent =>
    have hasks : Entry.asks ⟨.readUrgent, outcome, urgent⟩ = false := by
      simpa [Call.logsIn] using h
    simp [enter, hasks, hl, hr]
  | flush => exact ⟨hl, hr, rfl⟩
  | resize lines columns =>
    simp only [enter, hr]
    exact ⟨hl, hr, rfl⟩

/-- A request is answered with a report, whatever was said before. -/
theorem enter_of_asks (h : e.asks = true) : l.enter e = { l with reporting := true }.report := by
  obtain ⟨call, outcome, urgent⟩ := e
  cases call with
  | readUrgent => exact if_pos h
  | start | read room | write data | flush | resize lines columns => cases h

/-- The first login or request finds an empty ledger. -/
theorem openedBy_enter (hl : l.stretches = []) {o : Opening} (h : e.opening? = some o) :
    (l.enter e).OpenedBy l.login.frame (some o) := by
  unfold Entry.opening? at h
  by_cases hcall : e.call.logsIn = true
  · rw [if_pos hcall] at h
    obtain rfl := Option.some.inj h
    refine OpenedBy.of_continues ⟨[], ?_, by simp⟩ (continues_enter_of_logsIn hcall)
    rw [start, if_pos hl, add, hl, List.nil_append]
  · rw [if_neg hcall] at h
    by_cases hasks : e.asks = true
    · rw [if_pos hasks] at h
      obtain rfl := Option.some.inj h
      refine ⟨l.login.lines, l.login.columns, [], ?_, by simp⟩
      rw [enter_of_asks hasks, report, add, hl, List.nil_append]
    · rw [if_neg hasks] at h
      cases h

/-- **What opens a session is in the output before all else.**  By induction on the
entries: those before the opening enter nothing, and those after it no login. -/
theorem openedBy_foldl (es : List Entry) (hl : l.stretches = []) (hr : l.reporting = false) :
    (es.foldl enter l).OpenedBy l.login.frame (es.findSome? Entry.opening?) := by
  induction es generalizing l with
  | nil => exact hl
  | cons e es ih =>
    rw [List.foldl_cons, List.findSome?_cons]
    cases ho : e.opening? with
    | none =>
      obtain ⟨hnil, hquiet, hframe⟩ := enter_of_opening?_eq_none hl hr ho
      exact hframe ▸ ih hnil hquiet
    | some o =>
      have hopened := openedBy_enter hl ho
      exact hopened.of_continues (continues_foldl es hopened.ne_nil)

end Ledger

/-- **What a session says first is its login frame, unless the server was quicker.**  This
is so of every session from its beginning, of all calls in any order, and of all that a
transport may answer.  What the transport has accepted, followed by what is pending, is
what the ledger holds: nothing as long as nothing has opened the session; the login
frame and then texts and reports, if a start, a read or a write came first; and texts
and reports without any login, if an urgent byte came first that asks for the window's
size. -/
theorem Session.login_first (login : Login) (size timeout : Nat) (t : Transport)
    (calls : List Call) :
    let first := fresh login size timeout t
    let s := (first.run calls).2
    let made := entries calls first
    let ledger := made.foldl Ledger.enter { login }
    s.line.transport.accepted ++ s.outbox.pending = ledger.output ∧
      ledger.OpenedBy login.frame (made.findSome? Entry.opening?) := by
  intro first s made ledger
  have hfirst : Matches { login } first.view :=
    ⟨rfl, by simp [first, fresh, create, view],
      by simp [first, fresh, create, view, Progress.isStarted], rfl⟩
  constructor
  · exact (matches_run calls hfirst).output_eq.symm
  · exact Ledger.openedBy_foldl made rfl rfl

/-- The server is quicker: it asks for the window's size before the client has done
anything.  The text of the client is accepted, and the server never learns whose it is. -/
theorem Session.login_skipped :
    let first := fresh {} 4096 5000 { urgentIn := [.ok [0x80]] }
    let outcomes := (first.run [.readUrgent, .write [0x6C, 0x73]]).1
    let s := (first.run [.readUrgent, .write [0x6C, 0x73]]).2
    outcomes = [.data (.error .wouldBlock), .count (.ok 2)] ∧
      s.line.transport.accepted ++ s.outbox.pending = windowMessage 24 80 ++ [0x6C, 0x73] ∧
      ¬Login.frame {} <+: s.line.transport.accepted ++ s.outbox.pending := by
  intro first outcomes s
  have houtput : s.line.transport.accepted ++ s.outbox.pending =
      windowMessage 24 80 ++ [0x6C, 0x73] := by
    decide +kernel
  constructor
  · with_unfolding_all rfl
  · refine ⟨houtput, ?_⟩
    rw [houtput]
    simp [Login.frame, windowMessage]

end Rlogin
end RemoteTerminal
