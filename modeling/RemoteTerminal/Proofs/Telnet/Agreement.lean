/-
# A client and a server agree

Between a client and a server no option is contested, so each is negotiated in harmony:
an option is on for a side exactly if the side has heard of it (`Arises.isOn_iff`), and
whatever one of them asks for at the beginning the other hears of and answers.  So when
all that was said has been heard, both have the same options on.

Three more things are so at all times, from one step to the next:

* a server knows of its peer what it heard last (`Arises.peer_eq`);
* a client that reports windows has reported the one that it has, last of all
  (`Arises.windows_said`), even if the window changes while that is being negotiated;
* a server that is told of types has asked for one, and a client that was asked has told
  it (`Arises.request_said`, `Arises.report_said`).

`agreement` says what comes of it on the wires.  A type may have 126 bytes, since with
two more it has to fit into what a server keeps of a subnegotiation.
-/

import RemoteTerminal.Proofs.Telnet.Encounter
import RemoteTerminal.Proofs.Telnet.Options
import RemoteTerminal.Proofs.Telnet.Utterances
import RemoteTerminal.Proofs.Text.Lossy

namespace RemoteTerminal
namespace Telnet

/-! ### What comes on -/

theorem Flags.heed_vocabulary {option : TelnetOption} {mine peer : Role}
    (h : ¬Contested option.performer mine peer) {verb : Verb}
    (hverb : verb ∈ vocabulary option.performer peer mine) (f : Flags) :
    f.heed mine verb option = f.set option true := by
  obtain ⟨answer, next, hrespond, -⟩ := respond_vocabulary h hverb
  unfold Flags.heed
  rw [hrespond]

/-- Two sets of flags are the same if the same options are on. -/
theorem Flags.ext_isOn {f g : Flags}
    (h : ∀ option ∈ TelnetOption.known, f.isOn option = g.isOn option) :
    f = g := by
  obtain ⟨echo, binary, goAhead, window, type, speed, environment⟩ := f
  obtain ⟨echo', binary', goAhead', window', type', speed', environment'⟩ := g
  simpa [TelnetOption.known, Flags.isOn, and_assoc, and_left_comm, and_comm] using h

namespace Codec

/-- What is said when an option comes on. -/
theorem answersTo_of_comes_on {c : Codec} {item : Item} {option : TelnetOption}
    (hsupported : option.isSupported = true) (hoff : c.flags.isOn option = false)
    (hon : (c.learn item).flags.isOn option = true) :
    ∃ verb answer next, respond c.role option verb = .agree true answer next ∧
      c.answersTo item = c.announced.unsaid answer option ++ next.items c.terminal.window := by
  cases item with
  | data | literal | command => simp [learn, hoff] at hon
  | subnegotiation body =>
    have hflags : (c.learn (.subnegotiation body)).flags = c.flags := by
      show (c.note _).flags = c.flags
      rw [note_eq]
    simp [hflags, hoff] at hon
  | negotiation verb byte =>
    have hflags : (c.learn (.negotiation verb byte)).flags =
        c.flags.heed c.role verb (TelnetOption.ofByte byte) := rfl
    have hanswers : c.answersTo (.negotiation verb byte) =
        c.answers verb (TelnetOption.ofByte byte) := rfl
    rw [hflags, Flags.heed] at hon
    cases hrespond : respond c.role (TelnetOption.ofByte byte) verb with
    | ignore | refuse => simp [hrespond, hoff] at hon
    | agree on answer next =>
      rw [hrespond] at hon
      dsimp only at hon
      by_cases hsame : option = TelnetOption.ofByte byte
      · subst hsame
        rw [Flags.isOn_set_self _ _ _ hsupported] at hon
        subst hon
        refine ⟨verb, answer, next, hrespond, ?_⟩
        rw [hanswers, answers, hrespond]
        simp [hoff]
      · rw [Flags.isOn_set_of_ne _ _ hsame, hoff] at hon
        cases hon

end Codec

/-! ### What a server learns -/

/-- What a server learns from an item. -/
def Item.peerNews? : Item → Option PeerNews
  | subnegotiation body => Telnet.peerNews? .server (body.flatMap Fragment.content)
  | _ => none

/-- The window that an item reports. -/
def Item.window? (item : Item) : Option WindowSize :=
  match item.peerNews? with
  | some (.window size) => some size
  | _ => none

/-- The terminal type that an item reports. -/
def Item.typeName? (item : Item) : Option String :=
  match item.peerNews? with
  | some (.terminalType name) => some name
  | _ => none

theorem Item.peerNews?_parameters (option : TelnetOption) (data : Bytes) :
    (parameters option data).peerNews? = Telnet.peerNews? .server (option.toByte :: data) :=
  congrArg (Telnet.peerNews? .server) (Fragment.flatMap_content_ofByte (option.toByte :: data))

theorem Item.peerNews?_windowReport (window : WindowSize) :
    (windowReport window).peerNews? = some (.window window) := by
  have hread := WindowSize.ofBytes_toBytes window []
  rw [List.append_nil] at hread
  have hoption : TelnetOption.ofByte TelnetOption.windowSize.toByte = .windowSize := rfl
  rw [windowReport, peerNews?_parameters]
  unfold Telnet.peerNews?
  rw [if_neg (by simp [WindowSize.toBytes, subnegotiationLimit])]
  simp only [hoption, hread]
  rfl

/-- A terminal type that fits is read as it is. -/
theorem Item.peerNews?_typeReport {name : String} (h : (utf8 name).length ≤ 126) :
    (typeReport name).peerNews? = some (.terminalType name) := by
  have hoption : TelnetOption.ofByte TelnetOption.terminalType.toByte = .terminalType := rfl
  have hread : readTerminalType (Code.is :: utf8 name) = .ok name := by
    have hlossy : lossyText (utf8 name) = name := lossyText_utf8 name
    simp [readTerminalType, afterVerb, Except.map, hlossy]
  have hfits : ¬subnegotiationLimit <
      (TelnetOption.terminalType.toByte :: Code.is :: utf8 name).length := by
    simp only [List.length_cons, subnegotiationLimit]
    omega
  rw [typeReport, peerNews?_parameters]
  unfold Telnet.peerNews?
  rw [if_neg hfits]
  simp only [hoption, hread]
  rfl

/-- The parameters of any other option report no window. -/
theorem Item.window?_parameters {option : TelnetOption}
    (h : TelnetOption.ofByte option.toByte ≠ .windowSize) (data : Bytes) :
    (parameters option data).window? = none := by
  have hnews (size : WindowSize) : (parameters option data).peerNews? ≠ some (.window size) := by
    rw [peerNews?_parameters]
    unfold Telnet.peerNews?
    split
    · exact fun hnone => nomatch hnone
    · cases hoption : TelnetOption.ofByte option.toByte with
      | windowSize => exact absurd hoption h
      | binary | echo | suppressGoAhead | terminalType | terminalSpeed | environment | unknown =>
        simp [hoption]
  unfold window?
  split
  · rename_i size hsome
    exact absurd hsome (hnews size)
  · rfl

theorem Item.window?_typeReport (name : String) : (typeReport name).window? = none :=
  window?_parameters (by decide) _

/-- The windows that some items report. -/
def windows (items : List Item) : List WindowSize := items.filterMap Item.window?

/-- The terminal types that some items report. -/
def typeNames (items : List Item) : List String := items.filterMap Item.typeName?

@[simp] theorem windows_append (a b : List Item) : windows (a ++ b) = windows a ++ windows b :=
  List.filterMap_append ..

@[simp] theorem typeNames_append (a b : List Item) :
    typeNames (a ++ b) = typeNames a ++ typeNames b :=
  List.filterMap_append ..

theorem windows_of_isVerb {items : List Item} (h : ∀ item ∈ items, item.isVerb = true) :
    windows items = [] := by
  refine List.filterMap_eq_nil_iff.2 fun item hitem => ?_
  have hverb := h item hitem
  cases item with
  | negotiation => rfl
  | data | literal | command | subnegotiation => cases hverb

theorem windows_windowReport (window : WindowSize) : windows [.windowReport window] = [window] := by
  simp [windows, Item.window?, Item.peerNews?_windowReport]

/-- What a server learns from an item. -/
theorem Codec.learn_server {c : Codec} (hr : c.role = .server) (item : Item) :
    (c.learn item).peerWindow = item.window?.or c.peerWindow ∧
      (c.learn item).peerTerminalType = item.typeName?.or c.peerTerminalType := by
  cases item with
  | data | literal | command | negotiation => exact ⟨rfl, rfl⟩
  | subnegotiation body =>
    have hlearn : c.learn (.subnegotiation body) = c.note (body.flatMap Fragment.content) := rfl
    have hnews : (Item.subnegotiation body).peerNews? =
        Telnet.peerNews? .server (body.flatMap Fragment.content) := rfl
    unfold Item.window? Item.typeName?
    rw [hlearn, hnews, note, hr]
    cases peerNews? .server (body.flatMap Fragment.content) with
    | none => exact ⟨rfl, rfl⟩
    | some news => cases news <;> exact ⟨rfl, rfl⟩

/-! ### A client and a server -/

/-- A client at one end, a server at the other. -/
def sides : End → Role
  | .a => .client
  | .b => .server

theorem not_contested_sides (performer : Performer) (e : End) :
    ¬Contested performer (sides e) (sides e.other) := by
  cases e <;> simp [Contested, sides, End.other]

namespace Dialogue

variable {terminal : End → Terminal} {d : Dialogue}

/-- **An option is on for a side that has heard of it**, and off for any other. -/
theorem Arises.isOn_iff (h : Arises sides terminal d) (e : End) :
    ∀ byte, (TelnetOption.ofByte byte).isSupported = true →
      ((d e).codec.flags.isOn (TelnetOption.ofByte byte) = true ↔ verbs byte (d e).heard ≠ []) := by
  refine h.invariant (P := fun _ x _ => ∀ byte, (TelnetOption.ofByte byte).isSupported = true →
    (x.codec.flags.isOn (TelnetOption.ofByte byte) = true ↔ verbs byte x.heard ≠ [])) ?_ ?_
    (fun _ _ _ _ hx _ _ => hx) e
  · intro e byte hsupported
    have hoff : ({} : Flags).isOn (TelnetOption.ofByte byte) = false := by
      cases TelnetOption.ofByte byte <;> rfl
    simp [Dialogue.fresh, hoff]
  · intro e d x hd hx _ hstep byte hsupported
    cases hstep with
    | start | resize => exact hx byte hsupported
    | hear item rest hothers =>
      have hflags : ((d e).hear item).codec.flags = ((d e).codec.learn item).flags := rfl
      have hheard : verbs byte ((d e).hear item).heard =
          verbs byte (d e).heard ++ verbs byte [item] := verbs_append ..
      have hsame (hverbs : verbs byte [item] = [])
          (hon : ((d e).codec.learn item).flags.isOn (TelnetOption.ofByte byte) =
            (d e).codec.flags.isOn (TelnetOption.ofByte byte)) :
          ((d e).hear item).codec.flags.isOn (TelnetOption.ofByte byte) = true ↔
            verbs byte ((d e).hear item).heard ≠ [] := by
        rw [hflags, hheard, hverbs, List.append_nil, hon]
        exact hx byte hsupported
      cases item with
      | data | literal | command => exact hsame rfl rfl
      | subnegotiation body =>
        refine hsame rfl ?_
        show ((d e).codec.note _).flags.isOn _ = _
        rw [Codec.note_eq]
      | negotiation verb option =>
        have hsaid : verb ∈ ((d e.other).stance option).said :=
          mem_verbs.2 (by simp [hothers])
        have hfree := not_contested_sides (TelnetOption.ofByte option).performer
        have hverb := (hd.harmonious (hfree e.other)).words verb hsaid
        rw [End.other_other] at hverb
        have hlearn : ((d e).codec.learn (.negotiation verb option)).flags =
            (d e).codec.flags.set (TelnetOption.ofByte option) true := by
          rw [← Flags.heed_vocabulary (hfree e) hverb, ← (hd.regular e).role_eq]
          rfl
        by_cases hbyte : option = byte
        · subst hbyte
          rw [hflags, hheard, hlearn, Flags.isOn_set_self _ _ _ hsupported]
          simp [verbs_negotiation]
        · refine hsame (by simp [verbs_negotiation, hbyte]) ?_
          rw [hlearn]
          refine Flags.isOn_set_of_ne _ _ fun heq => hbyte ?_
          rw [← TelnetOption.toByte_ofByte option, ← heq, TelnetOption.toByte_ofByte]

/-- Each has heard all that the other has said, and both have started. -/
structure Settled (d : Dialogue) : Prop where
  heard_eq : ∀ e, (d e).heard = (d e.other).said
  begun : ∀ e, (d e).begun = true

/-- What one of them asks for at the beginning, both have heard of in the end. -/
theorem Arises.heard_of_requests (h : Arises sides terminal d) (hs : d.Settled) {byte : UInt8}
    (hrequests : ∃ e, requests (sides e) (TelnetOption.ofByte byte) ≠ []) (e : End) :
    verbs byte (d e).heard ≠ [] := by
  obtain ⟨asker, hasks⟩ := hrequests
  obtain ⟨verb, hverb⟩ := List.exists_mem_of_ne_nil _ hasks
  have hfree := not_contested_sides (TelnetOption.ofByte byte).performer
  have hsaid : verb ∈ verbs byte (d asker).said :=
    (h.harmonious (hfree asker)).asked (hs.begun asker) verb hverb
  have hheard : verb ∈ verbs byte (d asker.other).heard := by
    rwa [hs.heard_eq, End.other_other]
  obtain ⟨answer, next, -, hanswer⟩ := (h.harmonious (hfree asker.other)).answered verb hheard
  have hback : answer ∈ verbs byte (d asker).heard := by
    rw [hs.heard_eq]
    exact hanswer
  rcases asker.eq_or_eq_other e with rfl | rfl
  · exact List.ne_nil_of_mem hback
  · exact List.ne_nil_of_mem hheard

/-- What none of them asks for is never spoken of. -/
theorem Arises.verbs_of_no_requests (h : Arises sides terminal d) {byte : UInt8}
    (hrequests : ∀ e, requests (sides e) (TelnetOption.ofByte byte) = []) (e : End) :
    verbs byte (d e).said = [] := by
  refine h.stances (P := fun _ x _ => x.said = []) byte (fun _ => rfl) ?_
    (fun _ _ _ _ hsilent _ _ => hsilent) e
  intro e x y x' hsilent hothers hstep
  cases hstep with
  | start => simp [hsilent, hrequests e]
  | hear verb rest hsaid => simp [hothers] at hsaid

/-- **In the end both have the same options on**: all but the reports of line speed. -/
theorem Arises.flags_of_settled (h : Arises sides terminal d) (hs : d.Settled) (e : End) :
    (d e).codec.flags =
      { echoMode := true, binaryMode := true, goAhead := false, windowSize := true,
        terminalType := true, terminalSpeed := false, environment := true } := by
  have hon {option : TelnetOption} (hbyte : TelnetOption.ofByte option.toByte = option)
      (hsupported : option.isSupported = true)
      (hrequests : ∃ e, requests (sides e) option ≠ []) :
      (d e).codec.flags.isOn option = true := by
    rw [← hbyte] at hsupported hrequests ⊢
    exact (h.isOn_iff e _ hsupported).2 (h.heard_of_requests hs hrequests e)
  have hoff : (d e).codec.flags.isOn .terminalSpeed = false := by
    have hrequests (e : End) :
        requests (sides e) (TelnetOption.ofByte TelnetOption.terminalSpeed.toByte) = [] := by
      cases e <;> rfl
    have hheard : verbs TelnetOption.terminalSpeed.toByte (d e).heard = [] := by
      rw [hs.heard_eq]
      exact h.verbs_of_no_requests hrequests e.other
    exact Bool.eq_false_iff.2 fun hon =>
      (h.isOn_iff e TelnetOption.terminalSpeed.toByte rfl).1 hon hheard
  refine Flags.ext_isOn fun option hoption => ?_
  simp only [TelnetOption.known, List.mem_cons, List.not_mem_nil, or_false] at hoption
  rcases hoption with rfl | rfl | rfl | rfl | rfl | rfl | rfl
  · exact hon rfl rfl ⟨.a, by decide⟩
  · exact hon rfl rfl ⟨.b, by decide⟩
  · exact hon rfl rfl ⟨.a, by decide⟩
  · exact hon rfl rfl ⟨.a, by decide⟩
  · exact hon rfl rfl ⟨.a, by decide⟩
  · exact hoff
  · exact hon rfl rfl ⟨.a, by decide⟩

/-! ### Reports -/

/-- What a server knows of its peer is what it heard last. -/
theorem Arises.peer_eq {role : End → Role} (h : Arises role terminal d) (e : End)
    (hr : role e = .server) :
    (d e).codec.peerWindow = (windows (d e).heard).getLast? ∧
      (d e).codec.peerTerminalType = (typeNames (d e).heard).getLast? := by
  refine h.invariant (P := fun e x _ => role e = .server →
    x.codec.peerWindow = (windows x.heard).getLast? ∧
      x.codec.peerTerminalType = (typeNames x.heard).getLast?) (fun _ _ => ⟨rfl, rfl⟩) ?_
    (fun _ _ _ _ hx _ _ => hx) e hr
  intro e d x hd hx _ hstep hr
  obtain ⟨hwindow, htype⟩ := hx hr
  cases hstep with
  | start | resize => exact ⟨hwindow, htype⟩
  | hear item rest hothers =>
    obtain ⟨hlearnWindow, hlearnType⟩ := Codec.learn_server ((hd.regular e).role_eq.trans hr) item
    refine ⟨hlearnWindow.trans ?_, hlearnType.trans ?_⟩
    · have hheard : windows ((d e).hear item).heard = windows (d e).heard ++ windows [item] :=
        windows_append ..
      rw [hheard, List.getLast?_append, ← hwindow]
      congr 1
      unfold windows
      cases hw : item.window? <;> simp [hw]
    · have hheard : typeNames ((d e).hear item).heard = typeNames (d e).heard ++ typeNames [item] :=
        typeNames_append ..
      rw [hheard, List.getLast?_append, ← htype]
      congr 1
      unfold typeNames
      cases hn : item.typeName? <;> simp [hn]

/-- A client reports its window when reports come on, and a server asks for the type. -/
theorem followUp_of_client {verb answer : Verb} {next : FollowUp}
    (h : respond .client .windowSize verb = .agree true answer next) : next = .reportWindow := by
  cases verb <;> simp_all [respond, TelnetOption.performer]

theorem followUp_of_server {verb answer : Verb} {next : FollowUp}
    (h : respond .server .terminalType verb = .agree true answer next) :
    next = .askTerminalType := by
  cases verb <;> simp_all [respond, TelnetOption.performer]

/-- Of windows, an answer reports the one there is, if any. -/
theorem windows_answersTo {name : String} {item : Item} (hitem : Utterance name item) (c : Codec) :
    windows (c.answersTo item) = [] ∨ windows (c.answersTo item) = [c.terminal.window] := by
  cases hitem with
  | verb verb option =>
    obtain ⟨new, next, hanswers, hverbs⟩ :=
      Utterance.exists_answers verb (TelnetOption.ofByte option) c
    have hall : c.answersTo (.negotiation verb option) = new ++ next.items c.terminal.window :=
      hanswers
    rw [hall, windows_append, windows_of_isVerb hverbs, List.nil_append]
    cases next with
    | nothing => exact .inl rfl
    | reportWindow => exact .inr (windows_windowReport _)
    | askTerminalType => exact .inl rfl
  | windowReport window =>
    rw [Codec.answersTo_windowReport]
    exact .inl rfl
  | typeReport =>
    rw [Codec.answersTo_typeReport]
    exact .inl rfl
  | typeRequest =>
    rw [Codec.answersTo_typeRequest]
    cases c.role with
    | client => exact .inl (by simp [windows, Item.window?_typeReport])
    | server => exact .inl rfl

/-- **While reports of windows are on, a client has reported the one it has.** -/
theorem Arises.windows_said {role : End → Role} (h : Arises role terminal d) (e : End)
    (hr : role e = .client) (hon : (d e).codec.flags.windowSize = true) :
    (windows (d e).said).getLast? = some (d e).codec.terminal.window := by
  refine h.invariant (P := fun e x _ => role e = .client → x.codec.flags.windowSize = true →
    (windows x.said).getLast? = some x.codec.terminal.window) (fun _ _ hon => nomatch hon) ?_
    (fun _ _ _ _ hx _ _ => hx) e hr hon
  intro e d x hd hx _ hstep hr hon
  have hrole : (d e).codec.role = .client := (hd.regular e).role_eq.trans hr
  cases hstep with
  | start =>
    have hnew : windows ((d e).codec.announced.unsaidAll (initialRequests (d e).codec.role)) = [] :=
      windows_of_isVerb fun _ => Utterance.of_unsaidAll
    have hsaid : windows (d e).start.said = windows (d e).said ++ windows _ := windows_append ..
    rw [hsaid, hnew, List.append_nil]
    exact hx hr hon
  | resize window =>
    have hnews : (d e).codec.windowNews window = [.windowReport window] := if_pos ⟨hrole, hon⟩
    have hsaid : ((d e).resize window).said = (d e).said ++ [.windowReport window] :=
      congrArg ((d e).said ++ ·) hnews
    rw [hsaid, windows_append, windows_windowReport, List.getLast?_concat]
    rfl
  | hear item rest hothers =>
    have hlearn := (d e).codec.learn_eq item
    have hterminal : ((d e).hear item).codec.terminal = (d e).codec.terminal := by
      show ((d e).codec.learn item).terminal = _
      rw [hlearn]
    have hsaid : windows ((d e).hear item).said =
        windows (d e).said ++ windows ((d e).codec.answersTo item) := windows_append ..
    rw [hsaid, hterminal]
    have hutterance := hd.utterance e.other item (by simp [hothers])
    rcases windows_answersTo hutterance (d e).codec with hnone | hone
    · -- Nothing is reported, so the option did not come on just now.
      rw [hnone, List.append_nil]
      by_cases hbefore : (d e).codec.flags.windowSize = true
      · exact hx hr hbefore
      · have hoff : (d e).codec.flags.isOn .windowSize = false := Bool.eq_false_iff.2 hbefore
        obtain ⟨verb, answer, next, hrespond, hanswers⟩ :=
          Codec.answersTo_of_comes_on rfl hoff hon
        rw [hrole] at hrespond
        rw [hanswers, followUp_of_client hrespond, windows_append] at hnone
        have hreport := (List.append_eq_nil_iff.1 hnone).2
        rw [FollowUp.items, windows_windowReport] at hreport
        cases hreport
    · rw [hone, List.getLast?_concat]

/-- **A server that is told of types has asked for one.** -/
theorem Arises.request_said {role : End → Role} (h : Arises role terminal d) (e : End)
    (hr : role e = .server) (hon : (d e).codec.flags.terminalType = true) :
    .typeRequest ∈ (d e).said := by
  refine h.invariant (P := fun e x _ => role e = .server → x.codec.flags.terminalType = true →
    .typeRequest ∈ x.said) (fun _ _ hon => nomatch hon) ?_ (fun _ _ _ _ hx _ _ => hx) e hr hon
  intro e d x hd hx _ hstep hr hon
  cases hstep with
  | start | resize => exact List.mem_append_left _ (hx hr hon)
  | hear item rest hothers =>
    by_cases hbefore : (d e).codec.flags.terminalType = true
    · exact List.mem_append_left _ (hx hr hbefore)
    · have hoff : (d e).codec.flags.isOn .terminalType = false := Bool.eq_false_iff.2 hbefore
      obtain ⟨verb, answer, next, hrespond, hanswers⟩ := Codec.answersTo_of_comes_on rfl hoff hon
      rw [(hd.regular e).role_eq, hr] at hrespond
      refine List.mem_append_right _ ?_
      rw [hanswers, followUp_of_server hrespond]
      exact List.mem_append_right _ (List.mem_singleton_self _)

/-- **A client that was asked for its type has reported it.** -/
theorem Arises.report_said {role : End → Role} (h : Arises role terminal d) (e : End)
    (hr : role e = .client) (hasked : .typeRequest ∈ (d e).heard) :
    .typeReport (terminal e).terminalType ∈ (d e).said := by
  refine h.invariant (P := fun e x _ => role e = .client → .typeRequest ∈ x.heard →
    .typeReport (terminal e).terminalType ∈ x.said) (fun _ _ hasked => nomatch hasked) ?_
    (fun _ _ _ _ hx _ _ => hx) e hr hasked
  intro e d x hd hx _ hstep hr hasked
  cases hstep with
  | start | resize => exact List.mem_append_left _ (hx hr hasked)
  | hear item rest hothers =>
    rcases List.mem_append.1 hasked with hbefore | hnow
    · exact List.mem_append_left _ (hx hr hbefore)
    · refine List.mem_append_right _ ?_
      rw [← List.mem_singleton.1 hnow, Codec.answersTo_typeRequest, (hd.regular e).role_eq, hr,
        (hd.regular e).terminalType_eq]
      exact List.mem_singleton_self _

/-- **In the end the server knows the client's terminal.** -/
theorem Arises.peer_of_settled (h : Arises sides terminal d) (hs : d.Settled)
    (hfits : (utf8 (terminal .a).terminalType).length ≤ 126) :
    (d .b).codec.peerTerminalType = some (terminal .a).terminalType ∧
      (d .b).codec.peerWindow = some (d .a).codec.terminal.window := by
  have hflags := h.flags_of_settled hs
  have hclient : (d .b).heard = (d .a).said := hs.heard_eq .b
  have hserver : (d .a).heard = (d .b).said := hs.heard_eq .a
  obtain ⟨hwindow, htype⟩ := h.peer_eq .b rfl
  rw [hwindow, htype, hclient]
  refine ⟨?_, h.windows_said .a rfl (by rw [hflags])⟩
  have hrequest : .typeRequest ∈ (d .a).heard := hserver ▸ h.request_said .b rfl (by rw [hflags])
  have hreport := h.report_said .a rfl hrequest
  have hname : (terminal .a).terminalType ∈ typeNames (d .a).said := by
    refine List.mem_filterMap.2 ⟨_, hreport, ?_⟩
    rw [Item.typeName?, Item.peerNews?_typeReport hfits]
  -- Whatever the client reports of its type is this.
  have hall : ∀ name ∈ typeNames (d .a).said, name = (terminal .a).terminalType := by
    intro name hmem
    obtain ⟨item, hitem, hsome⟩ := List.mem_filterMap.1 hmem
    have hutterance := h.utterance .a item hitem
    cases hutterance with
    | verb | typeRequest => cases hsome
    | windowReport window => simp [Item.typeName?, Item.peerNews?_windowReport] at hsome
    | typeReport =>
      rw [Item.typeName?, Item.peerNews?_typeReport hfits] at hsome
      exact (Option.some.inj hsome).symm
  cases hlast : (typeNames (d .a).said).getLast? with
  | none =>
    rw [List.getLast?_eq_none_iff.1 hlast] at hname
    cases hname
  | some name => rw [hall name (List.mem_of_getLast? hlast)]

end Dialogue

namespace Encounter

/-- **A client and a server agree.**  Whatever is said, however the windows change and
whichever way both wires are delivered: once both have started and nothing is on its way
or waits to be, the same options are on for both, and the server knows the client's
terminal type and the window that it has. -/
theorem agreement (terminal : End → Terminal) (turns : List Turn)
    (hfits : (utf8 (terminal .a).terminalType).length ≤ 126) :
    let c := (fresh sides terminal).playAll turns
    c.Quiet → (∀ e, (c e).begun = true) →
      (∀ e, (c e).codec.flags =
        { echoMode := true, binaryMode := true, goAhead := false, windowSize := true,
          terminalType := true, terminalSpeed := false, environment := true }) ∧
      (c .b).codec.peerTerminalType = some (terminal .a).terminalType ∧
      (c .b).codec.peerWindow = some (c .a).codec.terminal.window := by
  intro c hquiet hbegun
  obtain ⟨d, hd, hshows⟩ := exists_dialogue sides terminal turns
  have hcore (e : End) : (c e).codec.core = (d e).codec := (hshows e).1.core_eq
  have hsettled : d.Settled := by
    refine ⟨fun e => ?_, fun e => (hshows e).1.begun_eq ▸ hbegun e⟩
    exact ((hshows.link_in e).said_eq_heard (hquiet e.other).1 (hquiet e.other).2).symm
  obtain ⟨htype, hwindow⟩ := hd.peer_of_settled hsettled hfits
  have hflags (e : End) := hd.flags_of_settled hsettled e
  simp only [← hcore] at htype hwindow hflags
  exact ⟨hflags, htype, hwindow⟩

/-- Both start, the window changes on the way, and all is delivered. -/
def resizedEarly : List Turn :=
  [.start .a, .resize .a ⟨255, 511⟩, .start .b, .say .a [Code.cr], .carry .a, .carry .b,
    .deliver .a 10, .deliver .b 4, .deliver .a 100, .deliver .b 100, .carry .b, .deliver .b 100,
    .carry .a, .deliver .a 100, .carry .b, .deliver .b 100, .carry .a, .deliver .a 100]

/-- What both agree on after `resizedEarly`. -/
theorem agreement_resizedEarly :
    let c := (fresh sides fun _ => {}).playAll resizedEarly
    c.Quiet ∧ (∀ e, (c e).begun = true) ∧ (c .a).codec.flags = (c .b).codec.flags ∧
      (c .b).codec.peerTerminalType = some "xterm" ∧
      (c .b).codec.peerWindow = some ⟨255, 511⟩ := by
  intro c
  have hquiet : c.Quiet := by
    intro e
    cases e <;> decide +kernel
  have hbegun (e : End) : (c e).begun = true := by
    cases e <;> decide +kernel
  have hwindow : (c .a).codec.terminal.window = ⟨255, 511⟩ := by decide +kernel
  obtain ⟨hflags, htype, hknown⟩ :=
    agreement (fun _ => {}) resizedEarly (by decide +kernel) hquiet hbegun
  exact ⟨hquiet, hbegun, (hflags .a).trans (hflags .b).symm, htype,
    hknown.trans (congrArg _ hwindow)⟩

end Encounter
end Telnet
end RemoteTerminal
