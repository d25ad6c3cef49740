/-
# What the server has signalled

An urgent byte carries up to four signals, and some of them leave a trace in the session:
how often the server asked to discard output, who acts on flow control, and whether it
asked for the window's size.  A session acts on the byte in one go, but its first signal
calls for a report of the window, and a report that cannot be sent ends the handling there.
So of the bytes that were taken (`Entry.taken?`) only some were acted on to their end
(`Entry.heeded?`).

The session counts as established by all bytes that were taken; what it has counted and
noted down otherwise is what the heeded bytes say (`signals_heeded`).  A byte is taken and
not heeded exactly if it asks for the window's size and the report fails, which says so by
a fault.  What else such a byte has signalled is lost (`signals_lost`).
-/

import RemoteTerminal.Proofs.Connection.SessionFaults
import RemoteTerminal.Proofs.Rlogin.OutputStream

namespace RemoteTerminal
namespace Rlogin

/-! ### What bytes say -/

namespace Control

/-- The flow control that a byte asks for: of two signals in one byte the later counts. -/
def flow? (byte : UInt8) : Option FlowControl :=
  if has byte cooked then some .cooked else if has byte raw then some .raw else none

/-- The flow control that was asked for last. -/
def lastFlow (bytes : Bytes) : FlowControl := (bytes.filterMap flow?).getLast?.getD .cooked

end Control

namespace Entry

/-- The urgent byte that a call has taken. -/
def taken? (e : Entry) : Option UInt8 :=
  match e.call, e.urgent with
  | .readUrgent, .ok [byte] => some byte
  | _, _ => none

/-- The urgent byte that a call has taken and acted on to its end, after which it would
block. -/
def heeded? (e : Entry) : Option UInt8 :=
  match e.outcome with
  | .data (.error .wouldBlock) => e.taken?
  | _ => none

theorem heeded?_of_taken?_eq_none {e : Entry} (h : e.taken? = none) : e.heeded? = none := by
  unfold heeded?
  split
  · exact h
  · rfl

end Entry

/-! ### What a session notes down -/

/-- What a session has noted down of the signals other than the request for the window's
size. -/
structure Noted where
  discards : Nat := 0
  flow : FlowControl := .cooked
  deriving DecidableEq, Repr

namespace Noted

/-- Note down a byte. -/
def heed (n : Noted) (byte : UInt8) : Noted where
  discards := n.discards + if Control.has byte Control.discard then 1 else 0
  flow := (Control.flow? byte).getD n.flow

theorem discards_foldl (bytes : Bytes) (n : Noted) :
    (bytes.foldl heed n).discards =
      n.discards + bytes.countP fun byte => Control.has byte Control.discard := by
  induction bytes generalizing n with
  | nil => rfl
  | cons byte rest ih =>
    have hone : (n.heed byte).discards =
        n.discards + if Control.has byte Control.discard then 1 else 0 := rfl
    rw [List.foldl_cons, ih, hone, List.countP_cons]
    omega

theorem flow_foldl (bytes : Bytes) (n : Noted) :
    (bytes.foldl heed n).flow = (bytes.filterMap Control.flow?).getLast?.getD n.flow := by
  induction bytes generalizing n with
  | nil => rfl
  | cons byte rest ih =>
    rw [List.foldl_cons, ih, heed]
    cases hflow : Control.flow? byte with
    | none => rw [List.filterMap_cons_none hflow, Option.getD_none]
    | some flow =>
      rw [List.filterMap_cons_some hflow, List.getLast?_cons, Option.getD_some, Option.getD_some]

end Noted

/-! ### What a call notes down -/

namespace Session

/-- A send with retries does not block: what it could not send is pending. -/
theorem push_ne_wouldBlock (bytes : Bytes) (s : Session) :
    (s.push bytes).1 ≠ .error .wouldBlock := by
  have hflush := Outbox.flushRetry_ne_wouldBlock s.timeout (s.outbox.extend bytes) s.line
  unfold push
  generalize (s.outbox.extend bytes).flushRetry s.timeout s.line = flushed at hflush
  obtain ⟨e | sent, outbox, line⟩ := flushed
  · simpa [Except.map] using hflush
  · exact nofun

/-- What a session has noted down. -/
def noted (s : Session) : Noted := ⟨s.discards, s.flow⟩

theorem noted_start (s : Session) : s.start.2.noted = s.noted := by
  unfold start
  split <;> rfl

theorem noted_read (room : Nat) (s : Session) : (s.read room).2.noted = s.noted := by
  have hreads := read_readsBy room s
  generalize s.read room = result at hreads ⊢
  cases hreads with
  | unstarted hs => exact noted_start s
  | started hs => exact noted_start s

theorem noted_write (data : Bytes) (s : Session) : (s.write data).2.noted = s.noted := by
  have hwrites := write_writesBy data s
  generalize s.write data = result at hwrites ⊢
  cases hwrites with
  | unstarted hs => exact noted_start s
  | started hs => exact noted_start s

theorem noted_resize (lines columns : UInt16) (s : Session) :
    (s.resize lines columns).2.noted = s.noted := by
  unfold resize
  dsimp only
  split <;> rfl

theorem noted_applyModes (byte : UInt8) (s : Session) :
    (s.applyModes byte).noted = s.noted.heed byte := by
  unfold applyModes Noted.heed Control.flow?
  cases Control.has byte Control.discard <;> cases Control.has byte Control.raw <;>
    cases Control.has byte Control.cooked <;> dsimp only <;> split <;> rfl

/-- A report that fails has met a hard fault. -/
theorem exists_of_sendWindow_error {s : Session} {e : TransportError}
    (h : s.sendWindow.1 = .error e) : ∃ f, e = .io f ∧ f.isTransient = false := by
  have hbacks := sendWindow_backs s e h
  rcases hbacks with _ | ⟨hhard, -⟩
  · exact absurd h (push_ne_wouldBlock _ _)
  · exact ⟨_, rfl, hhard⟩

/-- **A byte is acted on to its end, or its report fails** and nothing is noted down. -/
theorem handleControl_cases (byte : UInt8) (s : Session) :
    (s.handleControl byte).1 = .ok () ∧ (s.handleControl byte).2.noted = s.noted.heed byte ∨
      (∃ f, (s.handleControl byte).1 = .error (.io f) ∧ f.isTransient = false) ∧
        Control.has byte Control.window = true ∧ (s.handleControl byte).2.noted = s.noted := by
  have hheeds := handleControl_heedsBy byte s
  generalize s.handleControl byte = result at hheeds ⊢
  cases hheeds with
  | unreported hwindow hs =>
    obtain ⟨f, rfl, hhard⟩ := exists_of_sendWindow_error hs
    exact .inr ⟨⟨f, rfl, hhard⟩, hwindow, rfl⟩
  | reported hwindow hs => exact .inl ⟨rfl, noted_applyModes byte s.asked.sendWindow.2⟩
  | unasked hwindow => exact .inl ⟨rfl, noted_applyModes byte s⟩

/-- An urgent read that takes no byte notes nothing down. -/
theorem noted_readUrgent_of_ne {s : Session} (h : ∀ byte, (s.line.urgent 1).1 ≠ .ok [byte]) :
    s.readUrgent.2.noted = s.noted := by
  have htakes := readUrgent_takesBy s
  generalize s.readUrgent = result at htakes ⊢
  cases htakes with
  | heeded hb hc => exact absurd hb (h _)
  | unheeded hb hc => exact absurd hb (h _)
  | nothing hb => rfl
  | failed hb => rfl

/-- An urgent read that takes a byte would block after it, or its report has failed. -/
theorem readUrgent_cases {byte : UInt8} {s : Session} (h : (s.line.urgent 1).1 = .ok [byte]) :
    s.readUrgent.1 = .wouldBlock ∧ s.readUrgent.2.noted = s.noted.heed byte ∨
      (∃ f, s.readUrgent.1 = .io f ∧ f.isTransient = false) ∧
        Control.has byte Control.window = true ∧ s.readUrgent.2.noted = s.noted := by
  have hcases := handleControl_cases byte s.polled
  have htakes := readUrgent_takesBy s
  generalize s.readUrgent = result at htakes ⊢
  cases htakes with
  | heeded hb hc =>
    obtain ⟨rfl⟩ : _ = [byte] := Except.ok.inj (hb.symm.trans h)
    rcases hcases with ⟨-, hnoted⟩ | ⟨⟨f, herror, -⟩, -⟩
    · exact .inl ⟨rfl, hnoted⟩
    · cases hc.symm.trans herror
  | unheeded hb hc =>
    obtain ⟨rfl⟩ : _ = [byte] := Except.ok.inj (hb.symm.trans h)
    rcases hcases with ⟨hok, -⟩ | ⟨⟨f, herror, hhard⟩, hwindow, hnoted⟩
    · cases hok.symm.trans hc
    · exact .inr ⟨⟨f, Except.error.inj (hc.symm.trans herror), hhard⟩, hwindow, hnoted⟩
  | nothing hb => exact absurd h (hb byte)
  | failed hb => cases h.symm.trans hb

/-- Only an urgent read takes an urgent byte. -/
theorem taken?_entry {call : Call} {s : Session} {byte : UInt8}
    (h : (s.entry call).taken? = some byte) :
    call = .readUrgent ∧ (s.line.urgent 1).1 = .ok [byte] := by
  unfold Entry.taken? at h
  split at h
  · rename_i byte' hcall hurgent
    exact ⟨hcall, Option.some.inj h ▸ hurgent⟩
  · cases h

/-- A byte that was taken was heeded, or its report has failed. -/
theorem heeded?_entry {call : Call} {s : Session} {byte : UInt8}
    (h : (s.entry call).taken? = some byte) :
    (s.entry call).heeded? = some byte ∨
      (s.entry call).heeded? = none ∧ Control.has byte Control.window = true ∧
        ∃ f, (s.entry call).outcome = .data (.error (.io f)) ∧ f.isTransient = false := by
  obtain ⟨rfl, hurgent⟩ := taken?_entry h
  have houtcome : (s.entry .readUrgent).outcome = .data (.error s.readUrgent.1) := rfl
  rcases readUrgent_cases hurgent with ⟨hblock, -⟩ | ⟨⟨f, hfault, hhard⟩, hwindow, -⟩
  · rw [hblock] at houtcome
    left
    rw [Entry.heeded?, houtcome]
    exact h
  · rw [hfault] at houtcome
    right
    rw [Entry.heeded?, houtcome]
    exact ⟨rfl, hwindow, f, rfl, hhard⟩

/-- **Every call notes down the byte that it heeds, and nothing else.** -/
theorem noted_perform (call : Call) (s : Session) :
    (s.perform call).2.noted = (s.entry call).heeded?.toList.foldl Noted.heed s.noted := by
  cases htaken : (s.entry call).taken? with
  | none =>
    rw [Entry.heeded?_of_taken?_eq_none htaken, Option.toList_none, List.foldl_nil]
    cases call with
    | start => exact noted_start s
    | read room => exact noted_read room s
    | write data => exact noted_write data s
    | flush => rfl
    | resize lines columns => exact noted_resize lines columns s
    | readUrgent =>
      refine noted_readUrgent_of_ne fun byte hurgent => ?_
      have htook : (s.entry .readUrgent).taken? = some byte := by
        simp only [entry, Entry.taken?, hurgent]
      rw [htaken] at htook
      cases htook
  | some byte =>
    obtain ⟨rfl, hurgent⟩ := taken?_entry htaken
    have hnoted := readUrgent_cases hurgent
    have houtcome : (s.entry .readUrgent).outcome = .data (.error s.readUrgent.1) := rfl
    rcases hnoted with ⟨hblock, hnoted⟩ | ⟨⟨f, hfault, -⟩, -, hnoted⟩
    · rw [hblock] at houtcome
      simp only [Entry.heeded?, houtcome, htaken]
      exact hnoted
    · rw [hfault] at houtcome
      simp only [Entry.heeded?, houtcome]
      exact hnoted

/-- So do runs. -/
theorem noted_run (calls : List Call) (s : Session) :
    (s.run calls).2.noted =
      ((entries calls s).filterMap Entry.heeded?).foldl Noted.heed s.noted := by
  induction calls generalizing s with
  | nil => rfl
  | cons call rest ih =>
    have hrun : (s.run (call :: rest)).2 = ((s.perform call).2.run rest).2 := rfl
    have hentries : entries (call :: rest) s =
        s.entry call :: entries rest (s.perform call).2 := rfl
    rw [hrun, ih, noted_perform, hentries]
    cases hheeded : (s.entry call).heeded? with
    | none => rw [List.filterMap_cons_none hheeded]; rfl
    | some byte => rw [List.filterMap_cons_some hheeded]; rfl

/-! ### What the server is told of the window -/

end Session

/-- A start does not establish a session. -/
theorem View.established_start (v : View) :
    v.start.progress = .established ↔ v.progress = .established := by
  unfold start
  split
  · exact Iff.rfl
  · rename_i hidle
    constructor
    · exact nofun
    · exact fun h => absurd (h ▸ rfl) hidle

namespace Session

/-- **A session is established by a byte that asks for its window**, whatever comes of it. -/
theorem established_perform (call : Call) (s : Session) :
    (s.perform call).2.progress = .established ↔
      s.progress = .established ∨
        ∃ byte, (s.entry call).taken? = some byte ∧ Control.has byte Control.window = true := by
  have hquiet (hnone : (s.entry call).taken? = none)
      (hprogress : (s.perform call).2.progress = .established ↔ s.progress = .established) :
      (s.perform call).2.progress = .established ↔
        s.progress = .established ∨
          ∃ byte, (s.entry call).taken? = some byte ∧ Control.has byte Control.window = true := by
    simp [hprogress, hnone]
  have hstart {progress : Progress} (h : progress = s.view.start.progress) :
      progress = .established ↔ s.progress = .established :=
    h ▸ s.view.established_start
  cases call with
  | start => exact hquiet rfl (hstart (congrArg View.progress (view_start s)))
  | read room => exact hquiet rfl (hstart (congrArg View.progress (view_read room s)))
  | write data => exact hquiet rfl (hstart (congrArg View.progress (view_write data s)))
  | flush => exact hquiet rfl Iff.rfl
  | resize lines columns =>
    refine hquiet rfl ?_
    have hview : (s.resize lines columns).2.progress = _ :=
      congrArg View.progress (view_resize lines columns s)
    show (s.resize lines columns).2.progress = .established ↔ _
    rw [hview]
    split <;> exact Iff.rfl
  | readUrgent =>
    have hview : (s.perform .readUrgent).2.progress = (s.view.take (s.line.urgent 1).1).progress :=
      congrArg View.progress (view_readUrgent s)
    have htaken (byte : UInt8) :
        (s.entry .readUrgent).taken? = some byte ↔ (s.line.urgent 1).1 = .ok [byte] :=
      ⟨fun h => (taken?_entry h).2, fun h => by simp only [entry, Entry.taken?, h]⟩
    simp only [hview, htaken]
    rcases (s.line.urgent 1).1 with f | _ | ⟨byte, _ | ⟨second, rest⟩⟩
    · simp [View.take, view]
    · simp [View.take, view]
    · by_cases hwindow : Control.has byte Control.window = true <;>
        simp [View.take, View.heed, View.report, View.queue, view, hwindow]
    · simp [View.take, view]

/-- So it is over runs. -/
theorem established_run (calls : List Call) (s : Session) :
    (s.run calls).2.progress = .established ↔
      s.progress = .established ∨
        ∃ byte ∈ (entries calls s).filterMap Entry.taken?,
          Control.has byte Control.window = true := by
  induction calls generalizing s with
  | nil => simp [run, entries]
  | cons call rest ih =>
    have hrun : (s.run (call :: rest)).2 = ((s.perform call).2.run rest).2 := rfl
    have hentries : entries (call :: rest) s =
        s.entry call :: entries rest (s.perform call).2 := rfl
    rw [hrun, ih, established_perform, hentries]
    cases htaken : (s.entry call).taken? with
    | none => simp [List.filterMap_cons_none htaken]
    | some byte => simp [List.filterMap_cons_some htaken, or_assoc]

end Session

/-! ### Every run -/

/-- What is so of every call is so of the calls of a run. -/
theorem Session.forall_mem_entries {P : Entry → Prop} (h : ∀ call s, P (entry call s))
    (calls : List Call) (s : Session) : ∀ e ∈ entries calls s, P e := by
  induction calls generalizing s with
  | nil => simp [entries]
  | cons call rest ih =>
    rw [entries]
    exact List.forall_mem_cons.2 ⟨h call s, ih _⟩

/-- **What a session shows of the server's signals**, over every run and whatever the
transport answers.  It is established exactly if it has taken a byte that asks for the
window's size.  Its count of discards and its flow control are those of the bytes that it
has heeded.  And it has heeded every byte that it has taken, but those that ask for the
window's size and whose report has failed. -/
theorem Session.signals_heeded (login : Login) (size timeout : Nat) (t : Transport)
    (calls : List Call) :
    let first := fresh login size timeout t
    let s := (first.run calls).2
    let made := entries calls first
    let heeded := made.filterMap Entry.heeded?
    s.discards = (heeded.countP fun byte => Control.has byte Control.discard) ∧
      s.flow = Control.lastFlow heeded ∧
      (s.progress = .established ↔
        ∃ byte ∈ made.filterMap Entry.taken?, Control.has byte Control.window = true) ∧
      ∀ e ∈ made, ∀ byte, e.taken? = some byte →
        e.heeded? = some byte ∨
          e.heeded? = none ∧ Control.has byte Control.window = true ∧
            ∃ f, e.outcome = .data (.error (.io f)) ∧ f.isTransient = false := by
  intro first s made heeded
  have hnoted : s.noted = heeded.foldl Noted.heed {} := noted_run calls first
  refine ⟨?_, ?_, ?_, ?_⟩
  · have hdiscards := congrArg Noted.discards hnoted
    rw [Noted.discards_foldl] at hdiscards
    exact hdiscards.trans (Nat.zero_add _)
  · have hflow := congrArg Noted.flow hnoted
    rw [Noted.flow_foldl] at hflow
    exact hflow
  · have hidle : ¬first.progress = .established := nofun
    exact (established_run calls first).trans (or_iff_right hidle)
  · exact forall_mem_entries (fun call s byte => heeded?_entry) calls first

/-- A byte that asks for the window, a discard and raw flow control at once.  The report
finds the connection reset; the byte is gone, and of its other signals nothing is left. -/
theorem Session.signals_lost :
    let first := fresh {} 4096 5000
      { urgentIn := [.ok [0x92]], outgoing := [.accept 4096, .fail .connectionReset 0] }
    let calls := [Call.start, .readUrgent]
    let s := (first.run calls).2
    let taken := (entries calls first).filterMap Entry.taken?
    (first.run calls).1.map Outcome.error? = [none, some (.io .connectionReset)] ∧
      taken = [0x92] ∧ s.progress = .established ∧
      s.discards = 0 ∧ (taken.countP fun byte => Control.has byte Control.discard) = 1 ∧
      s.flow = .cooked ∧ Control.lastFlow taken = .raw := by
  intro first calls s taken
  have htaken : taken = [0x92] := by decide +kernel
  refine ⟨by decide +kernel, htaken, by decide +kernel, by decide +kernel, ?_,
    by decide +kernel, ?_⟩
  · rw [htaken]
    rfl
  · rw [htaken]
    rfl

end Rlogin
end RemoteTerminal
