/-
# What a client has told of its window

The output of a session is whole items at all times, framed payload among them.  So its
bytes report sizes of the window (`Reports`), and a server that decodes them knows the
last one (`Reports.peerWindow_eq`).

Whatever a client does, it announces the size of its window as it has to (`Codec.Tells`).
That is proved of every byte that is decoded, and passes from there to a whole call
(`perform_tells`).  It follows that as long as reports are on the last size that was
reported is the one that the window has (`View.Abreast`), whatever has become of the
bytes.
-/

import RemoteTerminal.Proofs.Announcing
import RemoteTerminal.Proofs.Telnet.Agreement
import RemoteTerminal.Proofs.Telnet.OutputStream

namespace RemoteTerminal
namespace Telnet

/-! ### Sizes in bytes -/

theorem windows_spoken (items : List Item) : windows (spoken items) = windows items := by
  induction items with
  | nil => rfl
  | cons item rest ih =>
    have hcons (rest' : List Item) : windows (item :: rest') = windows [item] ++ windows rest' :=
      windows_append [item] rest'
    cases hdatum : item.datum? with
    | none =>
      have hspoken : spoken (item :: rest) = item :: spoken rest :=
        List.filter_cons_of_pos (by simp [hdatum])
      rw [hspoken, hcons, ih, ← hcons]
    | some byte =>
      have hspoken : spoken (item :: rest) = spoken rest :=
        List.filter_cons_of_neg (by simp [hdatum])
      have hnone : windows [item] = [] := by
        cases item with
        | data | literal => rfl
        | command | negotiation | subnegotiation => cases hdatum
      rw [hspoken, hcons, ih, hnone, List.nil_append]

/-- Some bytes are whole items, which report these sizes of the window. -/
def Reports (bytes : Bytes) (sizes : List WindowSize) : Prop :=
  ∃ items : List Item, bytes = items.flatMap Item.bytes ∧ windows items = sizes

namespace Reports

variable {bytes bytes' : Bytes} {sizes sizes' : List WindowSize}

theorem nil : Reports [] [] := ⟨[], rfl, rfl⟩

theorem append (h : Reports bytes sizes) (h' : Reports bytes' sizes') :
    Reports (bytes ++ bytes') (sizes ++ sizes') := by
  obtain ⟨items, rfl, rfl⟩ := h
  obtain ⟨items', rfl, rfl⟩ := h'
  exact ⟨items ++ items', List.flatMap_append.symm, windows_append ..⟩

/-- Framed payload reports nothing. -/
theorem encode (binary : Bool) (data : Bytes) : Reports (Telnet.encode binary data) [] := by
  obtain ⟨items, hitems, hnone⟩ := exists_items_encode binary data
  refine ⟨items, hitems, ?_⟩
  rw [← windows_spoken, hnone]
  rfl

theorem command (command : Command) : Reports command.bytes [] := by
  have hlow : command.toByte < Code.sb := by cases command <;> decide
  exact ⟨[.command command.toByte hlow], (List.append_nil _).symm, rfl⟩

end Reports

/-- Of the sizes that it hears a server keeps the last. -/
theorem Codec.peerWindow_obeyAll (items : List Item) {c : Codec} (hr : c.role = .server) :
    (c.obeyAll items).peerWindow = (windows items).getLast?.or c.peerWindow := by
  induction items generalizing c with
  | nil => rfl
  | cons item rest ih =>
    have hlearned : (c.obey item).peerWindow = item.window?.or c.peerWindow := by
      rw [obey_eq]
      exact (learn_server hr item).1
    have hrole : (c.obey item).role = .server := by
      rw [obey_eq, learn_eq]
      exact hr
    have hrest : (c.obeyAll (item :: rest)).peerWindow =
        (windows rest).getLast?.or (c.obey item).peerWindow := ih hrole
    have hwindows : windows (item :: rest) = item.window?.toList ++ windows rest := by
      unfold windows
      cases hw : item.window? <;> simp [hw]
    have hlast : item.window?.toList.getLast? = item.window? := by
      cases item.window? <;> rfl
    rw [hrest, hlearned, hwindows, List.getLast?_append, hlast, Option.or_assoc]

/-- **A server that decodes the bytes knows the last size that they report.** -/
theorem Reports.peerWindow_eq {bytes : Bytes} {sizes : List WindowSize} (h : Reports bytes sizes)
    (terminal : Terminal) :
    (({ role := .server, terminal } : Codec).decode bytes).2.peerWindow = sizes.getLast? := by
  obtain ⟨items, hbytes, rfl⟩ := h
  have hreads : Telnet.Reads bytes items [] :=
    ⟨hbytes.trans (List.append_nil _).symm, Item.begins_nil⟩
  obtain ⟨-, p, -, -, hcodec⟩ := Codec.decode_reads hreads .server terminal
  have hlast := Codec.peerWindow_obeyAll items (c := { role := .server, terminal }) rfl
  rw [hcodec]
  exact hlast.trans Option.or_none

/-! ### What a codec tells -/

namespace Codec

/-- The size of the window, as it is announced. -/
def announcing (c : Codec) : Announcing WindowSize := ⟨c.flags.windowSize, c.terminal.window⟩

/-- A codec that becomes another, in which the window has a size, tells the peer some
sizes on the way, and all that has to be told. -/
structure Tells (window : WindowSize) (sizes : List WindowSize) (c c' : Codec) : Prop where
  role_eq : c'.role = c.role
  window_eq : c'.terminal.window = window
  reports : ∃ bytes, c'.replies = c.replies ++ bytes ∧ Reports bytes sizes
  announces : Announcing.Tells sizes c.announcing c'.announcing

namespace Tells

variable {window : WindowSize} {sizes sizes' : List WindowSize} {c c' c'' : Codec}

theorem current (h : Tells window sizes c c') : ∀ size ∈ sizes, size = window :=
  fun size hsize => (h.announces.current size hsize).trans h.window_eq

/-- Nothing is told where nothing is said, and nothing changes that is told of. -/
theorem silent (hrole : c'.role = c.role) (hterminal : c'.terminal = c.terminal)
    (hflags : c'.flags = c.flags) (hreplies : c'.replies = c.replies) :
    Tells c.terminal.window [] c c' where
  role_eq := hrole
  window_eq := by rw [hterminal]
  reports := ⟨[], by rw [hreplies, List.append_nil], .nil⟩
  announces := by
    have hsame : c'.announcing = c.announcing := by rw [announcing, hflags, hterminal]; rfl
    exact hsame ▸ .refl _

theorem refl (c : Codec) : Tells c.terminal.window [] c c := silent rfl rfl rfl rfl

theorem trans (h : Tells window sizes c c') (h' : Tells window sizes' c' c'') :
    Tells window (sizes ++ sizes') c c'' where
  role_eq := h'.role_eq.trans h.role_eq
  window_eq := h'.window_eq
  reports := by
    obtain ⟨bytes, hbytes, hreports⟩ := h.reports
    obtain ⟨bytes', hbytes', hreports'⟩ := h'.reports
    exact ⟨bytes ++ bytes', by rw [hbytes', hbytes, List.append_assoc], hreports.append hreports'⟩
  announces := h.announces.trans h'.announces (h.window_eq.trans h'.window_eq.symm)

/-- Saying items that report no size. -/
theorem tell {items : List Item} (h : windows items = []) (c : Codec) :
    Tells c.terminal.window [] c (c.tell items) :=
  ⟨rfl, rfl, ⟨_, rfl, items, rfl, h⟩, .refl c.announcing⟩

/-- What is told does not depend on what was said before. -/
theorem after (h : Tells window sizes c c') (output : Bytes) :
    Tells window sizes { c with replies := output ++ c.replies }
      { c' with replies := output ++ c'.replies } where
  role_eq := h.role_eq
  window_eq := h.window_eq
  reports := by
    obtain ⟨bytes, hbytes, hreports⟩ := h.reports
    exact ⟨bytes, by rw [hbytes, List.append_assoc], hreports⟩
  announces := h.announces

end Tells

variable {c : Codec}

/-- What a client reports of its terminal when it is asked is no window. -/
theorem windows_report? (terminal : Terminal) (option : TelnetOption) :
    windows (terminal.report? option).toList = [] := by
  have hparameters {option : TelnetOption} (h : TelnetOption.ofByte option.toByte ≠ .windowSize)
      (data : Bytes) : windows [.parameters option data] = [] := by
    simp [windows, Item.window?_parameters h]
  cases option with
  | terminalType | terminalSpeed | environment => exact hparameters (by decide) _
  | binary | echo | suppressGoAhead | windowSize | unknown => rfl

/-- **Reports come on with a report.** -/
theorem negotiate_tells (hr : c.role = .client) (verb : Verb) (byte : UInt8) :
    ∃ sizes, Tells c.terminal.window sizes c (c.negotiate verb (TelnetOption.ofByte byte)).2 := by
  let item : Item := .negotiation verb byte
  have hobey : (c.negotiate verb (TelnetOption.ofByte byte)).2 =
      (c.learn item).tell (c.answersTo item) := obey_eq item c
  rw [hobey]
  refine ⟨windows (c.answersTo item), rfl, rfl, ⟨_, rfl, _, rfl, rfl⟩, fun size hsize => ?_,
    fun hon => ?_⟩
  · have hutterance : Utterance c.terminal.terminalType item := .verb verb byte
    rcases Dialogue.windows_answersTo hutterance c with hnone | hone
    · rw [hnone] at hsize
      cases hsize
    · rw [hone] at hsize
      exact List.mem_singleton.1 hsize
  · by_cases hbefore : c.flags.windowSize = true
    · exact .inr ⟨hbefore, rfl⟩
    · have hoff : c.flags.isOn .windowSize = false := Bool.eq_false_iff.2 hbefore
      have hnow : (c.learn item).flags.isOn .windowSize = true := hon
      obtain ⟨verb', answer, next, hrespond, hanswers⟩ := answersTo_of_comes_on rfl hoff hnow
      rw [hr] at hrespond
      rw [hanswers, Dialogue.followUp_of_client hrespond, FollowUp.items, windows_append,
        windows_windowReport]
      exact .inl (List.append_ne_nil_of_right_ne_nil _ (List.cons_ne_nil _ _))

/-- The parameters of an option tell nothing of the window. -/
theorem finish_tells (c : Codec) : Tells c.terminal.window [] c c.finish.2 := by
  obtain ⟨asked, name, window, hfinish⟩ := exists_finish c
  rw [hfinish]
  let kept : Codec :=
    { c with gathered := [], overflow := false, peerTerminalType := name, peerWindow := window }
  have hkept : Tells c.terminal.window [] c kept := .silent rfl rfl rfl rfl
  refine hkept.trans (.tell ?_ kept)
  cases asked with
  | none => rfl
  | some option => exact windows_report? c.terminal option

/-- Whatever byte a client decodes, it tells of its window what there is to tell. -/
theorem step_tells (hr : c.role = .client) (byte : UInt8) :
    ∃ sizes, Tells c.terminal.window sizes c (c.step byte).2 := by
  have hdata : Tells c.terminal.window [] c { c with state := .data } := .silent rfl rfl rfl rfl
  rcases step_cases byte c with ⟨-, p, hstep⟩ | ⟨verb, -, hstep⟩ | ⟨-, hstep⟩
  · rw [hstep]
    exact ⟨[], .silent rfl rfl rfl rfl⟩
  · rw [hstep]
    obtain ⟨sizes, htells⟩ := negotiate_tells (c := { c with state := .data }) hr verb byte
    exact ⟨sizes, hdata.trans htells⟩
  · rw [hstep]
    exact ⟨[], hdata.trans (finish_tells { c with state := .data })⟩

/-- So it does of a stream. -/
theorem decode_tells (data : Bytes) {c : Codec} (hr : c.role = .client) :
    ∃ sizes, Tells c.terminal.window sizes c (c.decode data).2 := by
  induction data generalizing c with
  | nil => exact ⟨[], .refl c⟩
  | cons byte rest ih =>
    obtain ⟨first, hfirst⟩ := step_tells hr byte
    obtain ⟨more, hmore⟩ := ih (c := (c.step byte).2) (hfirst.role_eq.trans hr)
    rw [hfirst.window_eq] at hmore
    exact ⟨first ++ more, hfirst.trans hmore⟩

theorem start_tells (c : Codec) : Tells c.terminal.window [] c c.start.2 := by
  rw [start_eq]
  exact .tell (windows_of_isVerb fun _ => Utterance.of_unsaidAll) c

theorem sayCommand_tells (command : Command) (c : Codec) :
    Tells c.terminal.window [] c (c.sayCommand command).2 :=
  ⟨rfl, rfl, ⟨command.bytes, rfl, .command command⟩, .refl c.announcing⟩

/-- **A new size is told of if reports are on**, and if not it is kept. -/
theorem setWindow_tells (hr : c.role = .client) (window : WindowSize) :
    Tells window (if c.flags.windowSize then [window] else []) c (c.setWindow window).2.2 := by
  have hnews : c.windowNews window =
      if c.flags.windowSize then [.windowReport window] else [] := by
    simp [windowNews, hr]
  rw [setWindow_eq, hnews]
  split
  · rename_i hon
    exact ⟨rfl, rfl, ⟨_, rfl, _, rfl, windows_windowReport window⟩,
      fun _ hsize => List.mem_singleton.1 hsize, fun _ => .inl (List.cons_ne_nil _ _)⟩
  · rename_i hoff
    exact ⟨rfl, rfl, ⟨[], rfl, .nil⟩, (fun _ h => nomatch h), fun hon => absurd hon hoff⟩

end Codec

/-! ### What a session tells -/

namespace View

/-- The codec of a view, as if all output so far were still with it. -/
def speaker (v : View) : Codec := { v.codec with replies := v.output ++ v.codec.replies }

@[simp] theorem speaker_collect (v : View) : v.collect.speaker = v.speaker := by
  simp [collect, speaker, Codec.takeReplies]

variable {v v' : View} {window : WindowSize} {sizes : List WindowSize}

theorem speaker_tells (h : Codec.Tells window sizes v.codec v'.codec)
    (houtput : v'.output = v.output) : Codec.Tells window sizes v.speaker v'.speaker := by
  unfold speaker
  rw [houtput]
  exact h.after v.output

theorem start_tells (v : View) :
    Codec.Tells v.codec.terminal.window [] v.speaker v.start.speaker := by
  unfold start
  split
  · exact .refl v.speaker
  · rw [speaker_collect]
    exact speaker_tells v.codec.start_tells rfl

theorem hear_tells (hr : v.codec.role = .client) (answer : Except Fault Bytes) :
    ∃ sizes, Codec.Tells v.codec.terminal.window sizes v.speaker (v.hear answer).speaker := by
  match answer with
  | .error f => exact ⟨[], .refl v.speaker⟩
  | .ok [] => exact ⟨[], speaker_tells (.silent rfl rfl rfl rfl) rfl⟩
  | .ok (byte :: rest) =>
    obtain ⟨sizes, htells⟩ := Codec.decode_tells (byte :: rest) hr
    exact ⟨sizes, speaker_tells htells rfl⟩

/-- What is heard by a session that starts first. -/
theorem start_hear_tells (hr : v.codec.role = .client) (answer : Except Fault Bytes) :
    ∃ sizes, Codec.Tells v.codec.terminal.window sizes v.speaker (v.start.hear answer).speaker := by
  have hstart := start_tells v
  obtain ⟨sizes, htells⟩ := hear_tells (v := v.start) (hstart.role_eq.trans hr) answer
  have hwindow : v.start.codec.terminal.window = v.codec.terminal.window := hstart.window_eq
  rw [hwindow] at htells
  exact ⟨sizes, hstart.trans htells⟩

theorem Reads.tells (hr : v.codec.role = .client) {room : Nat}
    {result : Except TransportError Bytes} (h : Reads room v result v') :
    ∃ sizes, Codec.Tells v.codec.terminal.window sizes v.speaker v'.speaker := by
  cases h with
  | nothing => exact ⟨[], .refl v.speaker⟩
  | unsent | carried | notice | closed => exact ⟨[], start_tells v⟩
  | failed _ _ _ f => exact start_hear_tells hr (.error f)
  | heard _ _ _ data =>
    obtain ⟨sizes, htells⟩ := start_hear_tells hr (.ok data)
    rw [← speaker_collect (v.start.hear (.ok data))] at htells
    exact ⟨sizes, htells⟩

/-- Framed payload tells nothing. -/
theorem frame_tells (hs : v.codec.replies = []) (data : Bytes) (deferred : Option TransportError) :
    Codec.Tells v.codec.terminal.window [] v.speaker (v.frame data deferred).speaker := by
  have hreplies : (v.frame data deferred).speaker.replies =
      v.speaker.replies ++ v.codec.encode data := by
    simp [speaker, frame, hs]
  exact ⟨rfl, rfl, ⟨_, hreplies, .encode _ data⟩, .refl v.codec.announcing⟩

theorem Writes.tells (hs : v.codec.replies = []) {data : Bytes}
    {result : Except TransportError Nat} (h : Writes data v result v') :
    Codec.Tells v.codec.terminal.window [] v.speaker v'.speaker := by
  have hstart := start_tells v
  cases h with
  | reported | nothing => exact .refl v.speaker
  | unsent => exact hstart
  | framed _ _ count _ deferred =>
    have hwindow : v.start.codec.terminal.window = v.codec.terminal.window := hstart.window_eq
    have hframe := frame_tells (silent_start hs) (data.take count) deferred
    rw [hwindow] at hframe
    exact hstart.trans hframe

theorem resize_tells (hr : v.codec.role = .client) (window : WindowSize) :
    Codec.Tells window (if v.codec.flags.windowSize then [window] else []) v.speaker
      (v.resize window).speaker := by
  let resized : View := { v with codec := (v.codec.setWindow window).2.2 }
  have hspeaker : (v.resize window).speaker = resized.speaker := by
    unfold resize
    dsimp only
    split
    · exact speaker_collect resized
    · rfl
  rw [hspeaker]
  exact speaker_tells (Codec.setWindow_tells hr window) rfl

theorem output_resize_of_off (h : v.codec.flags.windowSize = false) (window : WindowSize) :
    (v.resize window).output = v.output := by
  unfold resize
  have hquiet : (v.codec.setWindow window).1 = false := by
    simp [Codec.setWindow, h]
  simp [hquiet]

theorem command_tells (c : Command) (v : View) :
    Codec.Tells v.codec.terminal.window [] v.speaker (v.command c).speaker := by
  unfold command
  rw [speaker_collect]
  exact speaker_tells (v.codec.sayCommand_tells c) rfl

/-- Between two calls, a client whose output has reported some sizes is abreast of its
window: while reports are on, the last of them is the size that it has. -/
structure Abreast (sizes : List WindowSize) (v : View) : Prop where
  settled : Settled v
  client : v.codec.role = .client
  reports : Reports v.output sizes
  last_eq : v.codec.flags.windowSize = true → sizes.getLast? = some v.codec.terminal.window

theorem Settled.speaker_replies (h : Settled v) : v.speaker.replies = v.output := by
  simp [speaker, h.silent]

/-- **What is told keeps a client abreast.** -/
theorem Abreast.tells (h : Abreast sizes v) (hs : Settled v') {new : List WindowSize}
    (ht : Codec.Tells window new v.speaker v'.speaker) :
    Abreast (sizes ++ new) v' ∧ ∃ more, v'.output = v.output ++ more ∧ Reports more new := by
  obtain ⟨more, hmore, hreports⟩ := ht.reports
  rw [hs.speaker_replies, h.settled.speaker_replies] at hmore
  refine ⟨⟨hs, ht.role_eq.trans h.client, ?_, ht.announces.getLast?_eq h.last_eq⟩, more, hmore,
    hreports⟩
  rw [hmore]
  exact h.reports.append hreports

end View

/-- The size of the window after a call. -/
def Call.sized (call : Call) (window : WindowSize) : WindowSize :=
  match call with
  | .resize window' => window'
  | _ => window

namespace Session

variable {s : Session}

theorem settled_perform (call : Call) (hs : s.view.Settled) :
    (s.perform call).2.view.Settled := by
  let ledger : Ledger :=
    { codec := s.codec, begun := s.progress.isStarted, stretches := [.said s.view.output] }
  have hmatches : View.Matches ledger s.view :=
    ⟨rfl, rfl, by simp [ledger, Ledger.output, Stretch.bytes]⟩
  exact (matches_perform call hmatches hs).1

/-- **What a call tells of the window**: the size that there is after it, if anything. -/
theorem perform_tells (call : Call) (hs : s.view.Settled) (hr : s.codec.role = .client) :
    ∃ new, Codec.Tells (call.sized s.codec.terminal.window) new s.view.speaker
      (s.perform call).2.view.speaker := by
  cases call with
  | start => exact ⟨[], view_start s ▸ View.start_tells s.view⟩
  | read room => exact (read_reads room hs.drained).tells hr
  | write data => exact ⟨[], (write_writes data s).tells hs.silent⟩
  | flush => exact ⟨[], view_flush s ▸ .refl s.view.speaker⟩
  | resize window => exact ⟨_, view_resize window s ▸ View.resize_tells hr window⟩
  | command c => exact ⟨[], view_sendCommand c s ▸ View.command_tells c s.view⟩

end Session
end Telnet
end RemoteTerminal
