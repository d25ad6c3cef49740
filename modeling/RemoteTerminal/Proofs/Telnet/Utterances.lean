/-
# The items that are ever said

Whatever a dialogue comes to, a codec says no more than verbs and three kinds of
parameters (`Utterance`): it reports its window, asks for a terminal type, and reports
its own.  Only the request has an answer; a report that begins like a request is not
taken for one, as reports of windows have none.
-/

import RemoteTerminal.Proofs.Telnet.Stance

namespace RemoteTerminal
namespace Telnet

namespace Item

/-- The report of a terminal type. -/
def typeReport (name : String) : Item := parameters .terminalType (Code.is :: utf8 name)

/-- Whether an item is a verb. -/
def isVerb : Item → Bool
  | negotiation .. => true
  | _ => false

/-- Parameters are known by their option and what they are. -/
theorem parameters_inj {option option' : TelnetOption} {data data' : Bytes}
    (h : parameters option data = parameters option' data') :
    option.toByte = option'.toByte ∧ data = data' := by
  have hbody := congrArg (List.flatMap Fragment.content) (Item.subnegotiation.inj h)
  rw [Fragment.flatMap_content_ofByte, Fragment.flatMap_content_ofByte] at hbody
  exact List.cons.inj hbody

theorem windowReport_ne_typeRequest (window : WindowSize) : windowReport window ≠ typeRequest :=
  fun h => absurd (parameters_inj h).1 (by decide)

theorem typeReport_ne_typeRequest (name : String) : typeReport name ≠ typeRequest := fun h =>
  absurd (List.cons.inj (parameters_inj h).2).1 (by decide)

end Item

/-- An item that a codec with a terminal of the given type may say. -/
inductive Utterance (name : String) : Item → Prop where
  | verb (verb : Verb) (option : UInt8) : Utterance name (.negotiation verb option)
  | windowReport (window : WindowSize) : Utterance name (.windowReport window)
  | typeRequest : Utterance name .typeRequest
  | typeReport : Utterance name (.typeReport name)

/-! ### Answers to parameters -/

namespace Codec

theorem answersTo_parameters (option : TelnetOption) (data : Bytes) (c : Codec) :
    c.answersTo (.parameters option data) = c.replyTo (option.toByte :: data) := by
  have hcontent := Fragment.flatMap_content_ofByte (option.toByte :: data)
  exact congrArg c.replyTo hcontent

theorem answersTo_windowReport (window : WindowSize) (c : Codec) :
    c.answersTo (.windowReport window) = [] := by
  rw [Item.windowReport, answersTo_parameters]
  unfold replyTo
  have hnone : c.terminal.report? (.ofByte TelnetOption.windowSize.toByte) = none := rfl
  split
  · rfl
  · cases c.role with
    | client => simp [hnone]
    | server => rfl

theorem answersTo_typeReport (name : String) (c : Codec) :
    c.answersTo (.typeReport name) = [] := by
  rw [Item.typeReport, answersTo_parameters]
  unfold replyTo
  have hhead : Code.is ≠ Code.send := by decide
  split
  · rfl
  · cases c.role with
    | client => simp [hhead]
    | server => rfl

theorem answersTo_typeRequest (c : Codec) :
    c.answersTo .typeRequest =
      match c.role with
      | .client => [.typeReport c.terminal.terminalType]
      | .server => [] := by
  rw [Item.typeRequest, answersTo_parameters]
  unfold replyTo
  cases c.role <;> rfl

end Codec

/-! ### Every dialogue -/

namespace Utterance

variable {name : String}

theorem of_unsaid {a : Announced} {verb : Verb} {option : TelnetOption} {item : Item}
    (h : item ∈ a.unsaid verb option) : item.isVerb = true := by
  unfold Announced.unsaid at h
  split at h
  · cases h
  · rw [List.mem_singleton.1 h]
    rfl

theorem of_unsaidAll {list : List (Verb × TelnetOption)} {a : Announced} {item : Item}
    (h : item ∈ a.unsaidAll list) : item.isVerb = true := by
  induction list generalizing a with
  | nil => cases h
  | cons request rest ih =>
    rcases List.mem_append.1 h with hfirst | hrest
    · exact of_unsaid hfirst
    · exact ih hrest

theorem of_isVerb {item : Item} (h : item.isVerb = true) : Utterance name item := by
  cases item with
  | negotiation verb option => exact .verb verb option
  | data | literal | command | subnegotiation => cases h

theorem of_followUp {window : WindowSize} {next : FollowUp} {item : Item}
    (h : item ∈ next.items window) : Utterance name item := by
  cases next with
  | nothing => cases h
  | reportWindow => exact List.mem_singleton.1 h ▸ .windowReport window
  | askTerminalType => exact List.mem_singleton.1 h ▸ .typeRequest

theorem of_windowNews {window : WindowSize} {c : Codec} {item : Item}
    (h : item ∈ c.windowNews window) : item = .windowReport window := by
  unfold Codec.windowNews at h
  split at h
  · exact List.mem_singleton.1 h
  · cases h

/-- An answer to a verb is a verb, if anything, and what is said when the option comes on. -/
theorem exists_answers (verb : Verb) (option : TelnetOption) (c : Codec) :
    ∃ new next, c.answers verb option = new ++ FollowUp.items c.terminal.window next ∧
      ∀ item ∈ new, item.isVerb = true := by
  unfold Codec.answers
  split
  · exact ⟨[], .nothing, rfl, fun _ h => nomatch h⟩
  · exact ⟨_, .nothing, (List.append_nil _).symm, fun _ h => List.mem_singleton.1 h ▸ rfl⟩
  · split
    · exact ⟨_, _, rfl, fun _ h => of_unsaid h⟩
    · exact ⟨_, .nothing, rfl, fun _ h => of_unsaid h⟩

/-- What is said to something that the other side may say. -/
theorem of_answersTo {name' : String} {heard item : Item} (hheard : Utterance name' heard)
    {c : Codec} (hname : c.terminal.terminalType = name) (h : item ∈ c.answersTo heard) :
    Utterance name item := by
  cases hheard with
  | verb verb option =>
    obtain ⟨new, next, hanswers, hverbs⟩ := exists_answers verb (TelnetOption.ofByte option) c
    have hitem : item ∈ new ++ next.items c.terminal.window := hanswers ▸ h
    rcases List.mem_append.1 hitem with hnew | hnext
    · exact of_isVerb (hverbs item hnew)
    · exact of_followUp hnext
  | windowReport window => simp [Codec.answersTo_windowReport] at h
  | typeReport => simp [Codec.answersTo_typeReport] at h
  | typeRequest =>
    rw [Codec.answersTo_typeRequest, hname] at h
    cases hr : c.role with
    | client =>
      rw [hr] at h
      exact List.mem_singleton.1 h ▸ .typeReport
    | server =>
      rw [hr] at h
      cases h

end Utterance

namespace Dialogue

variable {role : End → Role} {terminal : End → Terminal} {d : Dialogue}

theorem Regular.terminalType_eq {role : Role} {terminal : Terminal} {x y : Speaker}
    (h : Regular role terminal x y) : x.codec.terminal.terminalType = terminal.terminalType := by
  rw [← h.terminal_eq]

/-- **Nothing else is ever said.** -/
theorem Arises.utterance (h : Arises role terminal d) (e : End) :
    ∀ item ∈ (d e).said, Utterance (terminal e).terminalType item := by
  refine h.invariant (P := fun e x _ => ∀ item ∈ x.said, Utterance (terminal e).terminalType item)
    (fun _ _ hitem => nomatch hitem) ?_ (fun _ _ _ _ hx _ _ => hx) e
  intro e d x hd hx hy hstep item hitem
  cases hstep with
  | start =>
    rcases List.mem_append.1 hitem with hsaid | hnew
    · exact hx item hsaid
    · exact .of_isVerb (Utterance.of_unsaidAll hnew)
  | resize window =>
    rcases List.mem_append.1 hitem with hsaid | hnew
    · exact hx item hsaid
    · exact Utterance.of_windowNews hnew ▸ .windowReport window
  | hear heard rest hothers =>
    rcases List.mem_append.1 hitem with hsaid | hnew
    · exact hx item hsaid
    · exact (hy heard (by simp [hothers])).of_answersTo (hd.regular e).terminalType_eq hnew

end Dialogue
end Telnet
end RemoteTerminal
