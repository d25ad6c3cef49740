/-
# What a codec says, in items

Whatever a codec has to say by itself is a list of items: verbs, and frames.  Saying
them adds their bytes to the replies and enters the verbs into the record of what was
announced, and does nothing else (`Codec.tell`).  So each operation of a codec comes to
a change of what the codec knows, and a list of items that it says:

| operation | change | items |
| --- | --- | --- |
| `start` | | the initial requests that were not the last thing said |
| `setWindow` | the window | a report, from a client whose option is on |
| `obey` | `learn` | `answersTo` |

`obey_eq` is all that can come of hearing an item.
-/

import RemoteTerminal.Proofs.Telnet.Grammar
import RemoteTerminal.Proofs.Telnet.Reader

namespace RemoteTerminal
namespace Telnet

namespace Item

/-- The item that a verb about an option is. -/
def saying (verb : Verb) (option : TelnetOption) : Item := .negotiation verb option.toByte

/-- The item that the parameters of an option are. -/
def parameters (option : TelnetOption) (data : Bytes) : Item :=
  .subnegotiation ((option.toByte :: data).map Fragment.ofByte)

/-- Such an item is a frame. -/
theorem bytes_parameters {option : TelnetOption} (h : option.toByte ≠ Code.iac) (data : Bytes) :
    (parameters option data).bytes = frame option.toByte data := by
  have hoption : (Fragment.ofByte option.toByte).bytes = [option.toByte] := by
    rw [Fragment.ofByte, dif_neg h]
    rfl
  rw [parameters, bytes, List.map_cons, List.flatMap_cons, hoption, Fragment.flatMap_bytes_ofByte]
  rfl

/-- The report of a window's size. -/
def windowReport (w : WindowSize) : Item := parameters .windowSize w.toBytes

/-- The request for the terminal type. -/
def typeRequest : Item := parameters .terminalType [Code.send]

end Item

/-- The record after an item was said. -/
def Announced.enter (a : Announced) : Item → Announced
  | .negotiation verb option => a.say verb (TelnetOption.ofByte option)
  | _ => a

/-- The item of a verb, unless that is what was last said about the option. -/
def Announced.unsaid (a : Announced) (verb : Verb) (option : TelnetOption) : List Item :=
  if a.repeats verb option then [] else [.saying verb option]

/-- The items of several verbs, each said unless it was the last thing said by then. -/
def Announced.unsaidAll : List (Verb × TelnetOption) → Announced → List Item
  | [], _ => []
  | (verb, option) :: rest, a =>
    a.unsaid verb option ++ unsaidAll rest ((a.unsaid verb option).foldl enter a)

/-- What is said when an option comes on. -/
def FollowUp.items (window : WindowSize) : FollowUp → List Item
  | nothing => []
  | reportWindow => [.windowReport window]
  | askTerminalType => [.typeRequest]

/-- What a client reports of its terminal about an option. -/
def Terminal.report? (t : Terminal) : TelnetOption → Option Item
  | .terminalType => some (.parameters .terminalType (Code.is :: utf8 t.terminalType))
  | .terminalSpeed =>
    some (.parameters .terminalSpeed (Code.is :: ascii (terminalSpeed ++ "," ++ terminalSpeed)))
  | .environment => some (.parameters .environment (environmentContent t))
  | _ => none

/-- What a server learns of its peer. -/
inductive PeerNews where
  | terminalType (name : String)
  | window (size : WindowSize)
  deriving DecidableEq, Repr

/-- What a side of a role learns from the content of a subnegotiation. -/
def peerNews? (role : Role) (content : Bytes) : Option PeerNews :=
  if subnegotiationLimit < content.length then none
  else
    match role, content with
    | .server, option :: data =>
      match TelnetOption.ofByte option with
      | .terminalType => (readTerminalType data).toOption.map .terminalType
      | .windowSize => (WindowSize.ofBytes data).toOption.map .window
      | _ => none
    | _, _ => none

namespace Codec

/-- Say some items. -/
def tell (items : List Item) (c : Codec) : Codec :=
  { c with
    announced := items.foldl Announced.enter c.announced
    replies := c.replies ++ items.flatMap Item.bytes }

theorem tell_nil (c : Codec) : c.tell [] = c := by
  simp [tell]

theorem tell_tell (items more : List Item) (c : Codec) :
    (c.tell items).tell more = c.tell (items ++ more) := by
  simp [tell]

/-! ### Announcements -/

/-- What was announced is recorded by the option's byte. -/
theorem say_ofByte (a : Announced) (verb : Verb) (option : TelnetOption) :
    a.say verb (TelnetOption.ofByte option.toByte) = a.say verb option := by
  funext side byte
  simp [Announced.say]

theorem sayVerb_eq (verb : Verb) (option : TelnetOption) (c : Codec) :
    (c.sayVerb verb option).2 = c.tell [.saying verb option] := by
  simp [sayVerb, reply, tell, Item.saying, Item.bytes, Announced.enter, say_ofByte]

theorem announce_eq (verb : Verb) (option : TelnetOption) (c : Codec) :
    (c.announce verb option).2 = c.tell (c.announced.unsaid verb option) := by
  unfold announce Announced.unsaid
  split
  · exact (tell_nil c).symm
  · exact sayVerb_eq verb option c

theorem announceAll_eq (verbs : List (Verb × TelnetOption)) (c : Codec) :
    (c.announceAll verbs).2 = c.tell (c.announced.unsaidAll verbs) := by
  induction verbs generalizing c with
  | nil => exact (tell_nil c).symm
  | cons pair rest ih =>
    obtain ⟨verb, option⟩ := pair
    show (announceAll rest (c.announce verb option).2).2 = _
    rw [announce_eq, ih, tell_tell]
    rfl

/-- Starting says the initial requests. -/
theorem start_eq (c : Codec) :
    c.start.2 = c.tell (c.announced.unsaidAll (initialRequests c.role)) :=
  announceAll_eq _ c

/-! ### Reports -/

/-- Saying the parameters of an option. -/
theorem reply_frame (option : TelnetOption) (h : option.toByte ≠ Code.iac) (data : Bytes)
    (c : Codec) : c.reply (frame option.toByte data) = c.tell [.parameters option data] := by
  rw [tell, List.flatMap_cons, Item.bytes_parameters h, List.flatMap_nil, List.append_nil]
  rfl

theorem followUp_eq (next : FollowUp) (c : Codec) :
    (c.followUp next).2 = c.tell (next.items c.terminal.window) := by
  cases next with
  | nothing => exact (tell_nil c).symm
  | reportWindow => exact reply_frame .windowSize (by decide) _ c
  | askTerminalType => exact reply_frame .terminalType (by decide) _ c

/-- What is said of a new window size. -/
def windowNews (window : WindowSize) (c : Codec) : List Item :=
  if c.role = .client ∧ c.flags.windowSize then [.windowReport window] else []

theorem setWindow_eq (window : WindowSize) (c : Codec) :
    (c.setWindow window).2.2 =
      { c with terminal := { c.terminal with window } }.tell (c.windowNews window) := by
  unfold setWindow windowNews
  dsimp only
  split
  · exact followUp_eq .reportWindow { c with terminal := { c.terminal with window } }
  · exact (tell_nil _).symm

/-! ### Verbs -/

/-- What is said to a verb about an option. -/
def answers (verb : Verb) (option : TelnetOption) (c : Codec) : List Item :=
  match respond c.role option verb with
  | .ignore => []
  | .refuse answer => [.saying answer option]
  | .agree on answer next =>
    c.announced.unsaid answer option ++
      if on && !c.flags.isOn option then next.items c.terminal.window else []

theorem negotiate_eq (verb : Verb) (option : TelnetOption) (c : Codec) :
    (c.negotiate verb option).2 =
      { c with flags := c.flags.heed c.role verb option }.tell (c.answers verb option) := by
  unfold negotiate answers Flags.heed
  cases respond c.role option verb with
  | ignore => exact (tell_nil c).symm
  | refuse answer => exact sayVerb_eq answer option c
  | agree on answer next =>
    let c' : Codec := { c with flags := c.flags.set option on }
    have hannounce : (c'.announce answer option).2 = c'.tell (c.announced.unsaid answer option) :=
      announce_eq answer option c'
    dsimp only
    split
    · rw [followUp_eq, hannounce, tell_tell]
      rfl
    · rw [hannounce, List.append_nil]

/-! ### Parameters -/

/-- The codec after parameters were acted on; nothing comes of an error. -/
def outcome (c : Codec) : Except TelnetError (List Note × Codec) → Codec
  | .ok (_, c') => c'
  | .error _ => c

/-- Act on the content of a subnegotiation, unless it is too long. -/
def act (content : Bytes) (c : Codec) : Codec :=
  if subnegotiationLimit < content.length then c
  else
    match content with
    | [] => c
    | option :: data => c.outcome (c.handle option data)

/-- Take note of what was learned of the peer. -/
def note (content : Bytes) (c : Codec) : Codec :=
  match peerNews? c.role content with
  | none => c
  | some (.terminalType name) => { c with peerTerminalType := some name }
  | some (.window size) => { c with peerWindow := some size }

/-- Nothing else changes. -/
theorem note_eq (content : Bytes) (c : Codec) :
    c.note content =
      { c with
        peerTerminalType := (c.note content).peerTerminalType
        peerWindow := (c.note content).peerWindow } := by
  unfold note
  split <;> rfl

/-- What a client says to the content of a subnegotiation: it reports what it is asked
for. -/
def replyTo (content : Bytes) (c : Codec) : List Item :=
  if subnegotiationLimit < content.length then []
  else
    match c.role, content with
    | .client, option :: data =>
      if data.head? = some Code.send then (c.terminal.report? (TelnetOption.ofByte option)).toList
      else []
    | _, _ => []

/-- A report goes out if it was asked for. -/
theorem outcome_afterVerb {option : UInt8} {data bytes : Bytes} {item : Item} {c : Codec}
    (h : c.reply bytes = c.tell [item]) (notes : List Note) :
    c.outcome ((afterVerb option Code.send data).map fun _ => (notes, c.reply bytes)) =
      c.tell (if data.head? = some Code.send then [item] else []) := by
  cases data with
  | nil => exact (tell_nil c).symm
  | cons first rest =>
    unfold afterVerb
    by_cases hf : first = Code.send
    · simp only [hf, if_true, List.head?_cons]
      exact h
    · simp only [hf, if_false, List.head?_cons, Option.some.injEq]
      exact (tell_nil c).symm

theorem outcome_handle_client {c : Codec} (hr : c.role = .client) (option : UInt8) (data : Bytes) :
    c.outcome (c.handle option data) =
      c.tell (if data.head? = some Code.send then
          (c.terminal.report? (TelnetOption.ofByte option)).toList
        else []) := by
  unfold handle
  rw [hr]
  cases TelnetOption.ofByte option with
  | terminalType => exact outcome_afterVerb (reply_frame .terminalType (by decide) _ c) _
  | terminalSpeed =>
    exact outcome_afterVerb (reply_frame .terminalSpeed (by decide) _ c) _
  | environment => exact outcome_afterVerb (reply_frame .environment (by decide) _ c) _
  | binary | echo | suppressGoAhead | windowSize | unknown =>
    have hnone : c = c.tell (if data.head? = some Code.send then (none : Option Item).toList
        else []) := by
      rw [Option.toList_none, ite_self, tell_nil]
    exact hnone

theorem outcome_handle_server {c : Codec} (hr : c.role = .server) {option : UInt8} {data : Bytes}
    (h : (option :: data).length ≤ subnegotiationLimit) :
    c.outcome (c.handle option data) = c.note (option :: data) := by
  unfold note peerNews? handle
  rw [if_neg (Nat.not_lt.2 h), hr]
  dsimp only
  cases TelnetOption.ofByte option with
  | terminalType => cases readTerminalType data <;> rfl
  | windowSize => cases WindowSize.ofBytes data <;> rfl
  | binary | echo | suppressGoAhead | terminalSpeed | environment | unknown => rfl

/-- Acting on parameters comes to a report at most, or to news of the peer. -/
theorem exists_outcome (option : UInt8) (data : Bytes) (c : Codec) :
    ∃ (asked : Option TelnetOption) (name : Option String) (window : Option WindowSize),
      c.outcome (c.handle option data) =
        { c with peerTerminalType := name, peerWindow := window }.tell
          (asked.bind c.terminal.report?).toList := by
  have hrole : c.role = .client ∨ c.role = .server := by cases c.role <;> simp
  rcases hrole with hr | hr
  · rw [outcome_handle_client hr]
    split
    · exact ⟨some (TelnetOption.ofByte option), c.peerTerminalType, c.peerWindow, rfl⟩
    · exact ⟨none, c.peerTerminalType, c.peerWindow, rfl⟩
  · have hserver : ∃ name window, c.outcome (c.handle option data) =
        { c with peerTerminalType := name, peerWindow := window } := by
      obtain ⟨role⟩ := c
      obtain rfl : role = .server := hr
      unfold handle
      cases TelnetOption.ofByte option with
      | terminalType => cases readTerminalType data <;> exact ⟨_, _, rfl⟩
      | windowSize => cases WindowSize.ofBytes data <;> exact ⟨_, _, rfl⟩
      | binary | echo | suppressGoAhead | terminalSpeed | environment | unknown =>
        exact ⟨_, _, rfl⟩
    obtain ⟨name, window, houtcome⟩ := hserver
    exact ⟨none, name, window, by rw [houtcome, Option.bind_none, Option.toList_none, tell_nil]⟩

/-- **What ends a subnegotiation** forgets it, and comes to a report at most, or to news of
the peer. -/
theorem exists_finish (c : Codec) :
    ∃ (asked : Option TelnetOption) (name : Option String) (window : Option WindowSize),
      c.finish.2 =
        { c with
          gathered := [], overflow := false
          peerTerminalType := name, peerWindow := window }.tell
          (asked.bind c.terminal.report?).toList := by
  let kept : Codec := { c with gathered := [], overflow := false }
  have hkept : kept = kept.tell (none.bind c.terminal.report?).toList := (tell_nil kept).symm
  unfold finish
  dsimp only
  split
  · exact ⟨none, _, _, hkept⟩
  · split
    · exact ⟨none, _, _, hkept⟩
    · rename_i option data _
      obtain ⟨asked, name, window, houtcome⟩ := exists_outcome option data kept
      split
      · rename_i notes c' hok
        rw [hok] at houtcome
        exact ⟨asked, name, window, houtcome⟩
      · exact ⟨none, _, _, hkept⟩

/-- A client learns nothing, nor does anyone from what is too long or empty. -/
theorem note_of_peerNews?_eq_none {content : Bytes} {c : Codec}
    (h : peerNews? c.role content = none) : c.note content = c := by
  unfold note
  rw [h]

theorem act_eq (content : Bytes) (c : Codec) :
    c.act content = (c.note content).tell (c.replyTo content) := by
  by_cases hlong : subnegotiationLimit < content.length
  · have hnote : c.note content = c := note_of_peerNews?_eq_none (if_pos hlong)
    have hact : c.act content = c := if_pos hlong
    have hreply : c.replyTo content = [] := if_pos hlong
    rw [hact, hnote, hreply, tell_nil]
  · cases content with
    | nil =>
      have hnote : c.note [] = c := note_of_peerNews?_eq_none (by cases c.role <;> rfl)
      have hreply : c.replyTo [] = [] := by
        unfold replyTo
        cases c.role <;> rfl
      rw [hnote, hreply, tell_nil]
      rfl
    | cons option data =>
      have hact : c.act (option :: data) = c.outcome (c.handle option data) := if_neg hlong
      rw [hact]
      cases hr : c.role with
      | client =>
        have hnote : c.note (option :: data) = c :=
          note_of_peerNews?_eq_none (hr ▸ if_neg hlong)
        have hreply : c.replyTo (option :: data) = _ := if_neg hlong
        rw [outcome_handle_client hr, hnote, hreply, hr]
      | server =>
        have hreply : c.replyTo (option :: data) = [] := by
          unfold replyTo
          rw [if_neg hlong, hr]
        rw [outcome_handle_server hr (Nat.not_lt.1 hlong), hreply, tell_nil]

/-! ### Items -/

/-- Do what an item calls for: answer a verb, act on a subnegotiation. -/
def obey (item : Item) (c : Codec) : Codec :=
  match item with
  | .negotiation verb option => (c.negotiate verb (TelnetOption.ofByte option)).2
  | .subnegotiation body => c.act (body.flatMap Fragment.content)
  | _ => c

/-- What an item changes in a codec, what is said apart. -/
def learn (item : Item) (c : Codec) : Codec :=
  match item with
  | .negotiation verb option =>
    { c with flags := c.flags.heed c.role verb (TelnetOption.ofByte option) }
  | .subnegotiation body => c.note (body.flatMap Fragment.content)
  | _ => c

/-- Hearing an item changes the flags and what is known of the peer, and nothing else. -/
theorem learn_eq (item : Item) (c : Codec) :
    c.learn item =
      { c with
        flags := (c.learn item).flags
        peerTerminalType := (c.learn item).peerTerminalType
        peerWindow := (c.learn item).peerWindow } := by
  cases item with
  | subnegotiation body =>
    have hnote := note_eq (body.flatMap Fragment.content) c
    have hflags : (c.note (body.flatMap Fragment.content)).flags = c.flags := by rw [hnote]
    simpa only [learn, hflags] using hnote
  | data | literal | command | negotiation => rfl

/-- What is said to an item. -/
def answersTo (item : Item) (c : Codec) : List Item :=
  match item with
  | .negotiation verb option => c.answers verb (TelnetOption.ofByte option)
  | .subnegotiation body => c.replyTo (body.flatMap Fragment.content)
  | _ => []

/-- **What comes of hearing an item**, whatever it is. -/
theorem obey_eq (item : Item) (c : Codec) :
    c.obey item = (c.learn item).tell (c.answersTo item) := by
  cases item with
  | negotiation verb option => exact negotiate_eq verb _ c
  | subnegotiation body => exact act_eq _ c
  | data | literal | command => exact (tell_nil c).symm

end Codec
end Telnet
end RemoteTerminal
