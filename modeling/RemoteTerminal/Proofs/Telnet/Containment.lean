/-
# What a subnegotiation comes to

A subnegotiation makes no payload, and the decoder is between two items after it as it was
before.  What comes of it depends on its content alone:

| role | content | effect |
| --- | --- | --- |
| client | terminal type, speed or environment, `SEND` | the report is said (`askedReport?`) |
| server | terminal type, `IS`, a name | the peer has that type (`reportedType?`) |
| server | window size, four bytes | the peer has that window (`reportedWindow?`) |

Anything else, and whatever is longer than the limit, comes to nothing, and the next
subnegotiation finds nothing of it (`decodeAll_subnegotiation`).  No more than the limit is
ever kept (`gathered_decode_le`).
-/

import RemoteTerminal.Proofs.Telnet.Announcements

namespace RemoteTerminal
namespace Telnet

/-! ### The effect of a content -/

/-- The report that a client says to the content of a subnegotiation. -/
def askedReport? (role : Role) (terminal : Terminal) (content : Bytes) : Option Bytes :=
  if subnegotiationLimit < content.length then none
  else
    match role, content with
    | .client, option :: verb :: _ =>
      if verb = Code.send then
        match TelnetOption.ofByte option with
        | .terminalType => some (reportTerminalType terminal.terminalType)
        | .terminalSpeed => some reportSpeed
        | .environment => some (reportEnvironment terminal)
        | _ => none
      else none
    | _, _ => none

/-- The terminal type that a server learns from the content of a subnegotiation. -/
def reportedType? (role : Role) (content : Bytes) : Option String :=
  if subnegotiationLimit < content.length then none
  else
    match role, content with
    | .server, option :: data =>
      match TelnetOption.ofByte option, data with
      | .terminalType, verb :: name => if verb = Code.is then some (lossyText name) else none
      | _, _ => none
    | _, _ => none

/-- The window size that a server learns from the content of a subnegotiation. -/
def reportedWindow? (role : Role) (content : Bytes) : Option WindowSize :=
  if subnegotiationLimit < content.length then none
  else
    match role, content with
    | .server, option :: data =>
      match TelnetOption.ofByte option, data with
      | .windowSize, a :: b :: c :: d :: _ => some ⟨ofBigEndian a b, ofBigEndian c d⟩
      | _, _ => none
    | _, _ => none

/-- A report is a frame. -/
theorem Terminal.flatMap_report? (t : Terminal) (option : TelnetOption) :
    (t.report? option).toList.flatMap Item.bytes =
      match option with
      | .terminalType => reportTerminalType t.terminalType
      | .terminalSpeed => reportSpeed
      | .environment => reportEnvironment t
      | _ => [] := by
  have hbytes {option : TelnetOption} (h : option.toByte ≠ Code.iac) (data : Bytes) :
      [Item.parameters option data].flatMap Item.bytes = frame option.toByte data := by
    rw [List.flatMap_cons, Item.bytes_parameters h, List.flatMap_nil, List.append_nil]
  cases option with
  | terminalType | terminalSpeed | environment => exact hbytes (by decide) _
  | binary | echo | suppressGoAhead | windowSize | unknown => rfl

/-- What a server learns from a content is what it reports: a type or a window, and not
both. -/
theorem peerNews?_eq (role : Role) (content : Bytes) :
    peerNews? role content =
        ((reportedType? role content).map .terminalType).or
          ((reportedWindow? role content).map .window) ∧
      (reportedType? role content = none ∨ reportedWindow? role content = none) := by
  unfold peerNews? reportedType? reportedWindow?
  split
  · exact ⟨rfl, .inl rfl⟩
  · cases role with
    | client => exact ⟨rfl, .inl rfl⟩
    | server =>
      cases content with
      | nil => exact ⟨rfl, .inl rfl⟩
      | cons option data =>
        dsimp only
        cases TelnetOption.ofByte option with
        | terminalType =>
          refine ⟨?_, .inr rfl⟩
          cases data with
          | nil => rfl
          | cons verb name =>
            unfold readTerminalType afterVerb
            by_cases hverb : verb = Code.is
            · simp only [hverb, if_true]
              rfl
            · simp only [hverb, if_false]
              rfl
        | windowSize =>
          refine ⟨?_, .inl rfl⟩
          match data with
          | _ :: _ :: _ :: _ :: _ => rfl
          | [] | [_] | [_, _] | [_, _, _] => rfl
        | binary | echo | suppressGoAhead | terminalSpeed | environment | unknown =>
          exact ⟨rfl, .inl rfl⟩

namespace Codec

variable {c : Codec} {content : Bytes}

/-- What is said to a content is the report that it asks for. -/
theorem flatMap_replyTo (content : Bytes) (c : Codec) :
    (c.replyTo content).flatMap Item.bytes = (askedReport? c.role c.terminal content).getD [] := by
  unfold replyTo askedReport?
  split
  · rfl
  · cases c.role with
    | server => rfl
    | client =>
      match content with
      | [] | [_] => rfl
      | option :: verb :: rest =>
        by_cases hverb : verb = Code.send
        · simp only [List.head?_cons, hverb, if_true, Terminal.flatMap_report?]
          cases TelnetOption.ofByte option <;> rfl
        · simp [hverb]

theorem isVerb_replyTo {item : Item} (h : item ∈ c.replyTo content) : item.isVerb = false := by
  unfold replyTo at h
  split at h
  · cases h
  · split at h
    · split at h
      · exact Terminal.isVerb_report? h
      · cases h
    · cases h

/-- What is noted of a content is what it reports of the peer. -/
theorem note_eq_reported (content : Bytes) (c : Codec) :
    c.note content =
      { c with
        peerTerminalType := (reportedType? c.role content).or c.peerTerminalType
        peerWindow := (reportedWindow? c.role content).or c.peerWindow } := by
  obtain ⟨hnews, hone⟩ := peerNews?_eq c.role content
  unfold note
  rw [hnews]
  rcases hone with hnone | hnone
  · rw [hnone]
    cases reportedWindow? c.role content <;> rfl
  · rw [hnone]
    cases reportedType? c.role content <;> rfl

/-- What comes of a content. -/
theorem act_eq_reported (content : Bytes) (c : Codec) :
    c.act content =
      { c with
        replies := c.replies ++ (askedReport? c.role c.terminal content).getD []
        peerTerminalType := (reportedType? c.role content).or c.peerTerminalType
        peerWindow := (reportedWindow? c.role content).or c.peerWindow } := by
  have hannounced (a : Announced) : (c.replyTo content).foldl Announced.enter a = a := by
    funext side byte
    rw [foldl_enter, verbs_of_no_verb fun item hitem => isVerb_replyTo hitem]
    rfl
  rw [act_eq, tell, hannounced, flatMap_replyTo, note_eq_reported]

/-! ### What is kept -/

theorem gathered_finish (c : Codec) : c.finish.2.gathered = [] := by
  obtain ⟨asked, name, window, hfinish⟩ := exists_finish c
  rw [hfinish]
  rfl

theorem gathered_gather_le (h : c.gathered.length ≤ subnegotiationLimit) (byte : UInt8) :
    (c.gather byte).2.gathered.length ≤ subnegotiationLimit := by
  unfold gather
  split
  · exact h
  · simp
    omega

theorem gathered_interpret_le (h : c.gathered.length ≤ subnegotiationLimit) (byte : UInt8) :
    (c.interpret byte).2.gathered.length ≤ subnegotiationLimit := by
  unfold interpret
  split
  · exact Nat.zero_le _
  · split <;> exact h

/-- One more byte is kept only if there is room. -/
theorem gathered_step_le (h : c.gathered.length ≤ subnegotiationLimit) (byte : UInt8) :
    (c.step byte).2.gathered.length ≤ subnegotiationLimit := by
  unfold step
  split
  · split <;> exact h
  · split
    · exact h
    · exact gathered_interpret_le h byte
  · rename_i verb _
    dsimp only
    rw [negotiate_eq]
    exact h
  · split
    · exact h
    · exact gathered_gather_le h byte
  · split
    · exact gathered_gather_le (c := { c with state := .gather }) h Code.iac
    · split
      · show ({ c with state := .data } : Codec).finish.2.gathered.length ≤ _
        rw [gathered_finish]
        exact Nat.zero_le _
      · exact h

/-- **No more is kept than there is room for**, whatever the stream. -/
theorem gathered_decode_le (data : Bytes) {c : Codec}
    (h : c.gathered.length ≤ subnegotiationLimit) :
    (c.decode data).2.gathered.length ≤ subnegotiationLimit := by
  induction data generalizing c with
  | nil => exact h
  | cons byte rest ih => exact ih (gathered_step_le h byte)

/-! ### The whole of a subnegotiation -/

/-- A subnegotiation begins afresh, whatever was kept before. -/
theorem decode_sb (hstate : c.state = .data) (data : Bytes) :
    c.decode ([Code.iac, Code.sb] ++ data) =
      (c.standing (.holding c.pendingCr .gather [])).decode data := by
  have hiac : Code.sb ≠ Code.iac := by decide
  have hbegin : c.decode [Code.iac, Code.sb] =
      ({}, c.standing (.holding c.pendingCr .gather [])) := by
    simp only [decode, step, hstate, interpret, if_true, hiac, if_false]
    rfl
  rw [decode_append, hbegin]
  rfl

/-- Between two items, the decoder has only a carriage return. -/
theorem standing_between (hstate : c.state = .data) :
    c.standing (.between c.pendingCr) = { c with gathered := [], overflow := false } := by
  unfold standing Place.between
  rw [hstate]

/-- A subnegotiation of which all but the last byte only moves the decoder comes to what it
then holds. -/
theorem decode_held (hstate : c.state = .data) {front : Bytes}
    (hquiet : (Place.holding c.pendingCr .gather []).Quiet front
      (.holding c.pendingCr .gatherCommand content)) :
    let wire := [Code.iac, Code.sb] ++ (front ++ [Code.se])
    (c.decode wire).1.payload = [] ∧
      (c.decode wire).2 = { c with gathered := [], overflow := false }.act content := by
  intro wire
  obtain ⟨hpayload, hnext⟩ := hquiet.decode_concat Code.se c
  have hfinish := finish_holding content c.pendingCr c
  rw [standing_between hstate] at hfinish
  rw [decode_sb hstate]
  exact ⟨hpayload, hnext.trans hfinish⟩

/-- The frame of a content, as one stretch of bytes. -/
theorem decode_subnegotiation (hstate : c.state = .data) (content : Bytes) :
    let frame := [Code.iac, Code.sb] ++ (doubleIac content ++ [Code.iac] ++ [Code.se])
    (c.decode frame).1.payload = [] ∧
      (c.decode frame).2 = { c with gathered := [], overflow := false }.act content :=
  decode_held hstate ((Place.quiet_doubleIac content).append Place.quiet_gather_iac)

/-- Before a subnegotiation has begun nothing is kept, and after that no more than there is
room for. -/
theorem gathered_part (hstate : c.state = .data) {part rest : Bytes}
    (hpart : part <+: [Code.iac, Code.sb] ++ rest) :
    (c.decode part).2.gathered = c.gathered ∨
      (c.decode part).2.gathered.length ≤ subnegotiationLimit := by
  obtain ⟨tail, htail⟩ := hpart
  match part with
  | [] => exact .inl rfl
  | [first] =>
    obtain rfl := (List.cons.inj htail).1
    left
    simp [decode, step, hstate]
  | first :: second :: part =>
    obtain ⟨rfl, hsecond⟩ := List.cons.inj htail
    obtain ⟨rfl, -⟩ := List.cons.inj hsecond
    right
    have hbegun := decode_sb hstate part
    exact hbegun ▸ gathered_decode_le part (Nat.zero_le _)

/-- **A subnegotiation comes to what its content comes to.**  However the bytes are cut,
there is no payload, and the decoder is between two items again; all that has changed is
what the content calls for.  No more is kept than there is room for, and the next
subnegotiation finds nothing of this one. -/
theorem decodeAll_subnegotiation (hstate : c.state = .data) (content : Bytes)
    {pieces : List Bytes}
    (hwire : pieces.flatten = [Code.iac, Code.sb] ++ doubleIac content ++ [Code.iac, Code.se]) :
    let told : Codec :=
      { c with
        replies := c.replies ++ (askedReport? c.role c.terminal content).getD []
        peerTerminalType := (reportedType? c.role content).or c.peerTerminalType
        peerWindow := (reportedWindow? c.role content).or c.peerWindow }
    let decoded := c.decodeAll pieces
    decoded.1.payload = [] ∧ decoded.2 = { told with gathered := [], overflow := false } ∧
      (∀ part, part <+: pieces.flatten →
        (c.decode part).2.gathered = c.gathered ∨
          (c.decode part).2.gathered.length ≤ subnegotiationLimit) ∧
      ∀ more, decoded.2.decode ([Code.iac, Code.sb] ++ more) =
        told.decode ([Code.iac, Code.sb] ++ more) := by
  intro told decoded
  have hframe : pieces.flatten =
      [Code.iac, Code.sb] ++ (doubleIac content ++ [Code.iac] ++ [Code.se]) := by
    simp [hwire]
  have hdecoded : decoded = c.decode pieces.flatten := decodeAll_eq_decode pieces c
  obtain ⟨hpayload, hact⟩ := decode_subnegotiation hstate content
  rw [← hframe, ← hdecoded] at hpayload hact
  have hlast : decoded.2 = { told with gathered := [], overflow := false } :=
    hact.trans (act_eq_reported content _)
  refine ⟨hpayload, hlast, fun part hpart => gathered_part hstate (hframe ▸ hpart), fun more => ?_⟩
  have htold : told.state = .data := hstate
  have hafter : ({ told with gathered := [], overflow := false } : Codec).state = .data := hstate
  rw [hlast, decode_sb hafter, decode_sb htold]
  rfl

/-- The report of a window of 255 columns, in pieces that part the two `IAC` of a literal one
and those of the frame's end, to a server that has something kept and holds a return back. -/
theorem decodeAll_divided_windowReport :
    let server : Codec :=
      { role := .server, pendingCr := true, gathered := [24, 0], overflow := true }
    let pieces : List Bytes := [[255, 250, 31, 0, 255], [255, 0, 50, 255], [240]]
    server.state = .data ∧
      pieces.flatten =
        [Code.iac, Code.sb] ++ doubleIac [31, 0, 255, 0, 50] ++ [Code.iac, Code.se] ∧
      (server.decodeAll pieces).1.payload = [] ∧
      (server.decodeAll pieces).2 =
        { server with gathered := [], overflow := false, peerWindow := some ⟨255, 50⟩ } := by
  intro server pieces
  have hwire : pieces.flatten =
      [Code.iac, Code.sb] ++ doubleIac [31, 0, 255, 0, 50] ++ [Code.iac, Code.se] := rfl
  obtain ⟨hpayload, hlast, -, -⟩ := decodeAll_subnegotiation (c := server) rfl _ hwire
  exact ⟨rfl, hwire, hpayload, hlast⟩

end Codec
end Telnet
end RemoteTerminal
