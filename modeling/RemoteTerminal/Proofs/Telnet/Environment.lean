/-
# An environment report is read as what it reports

Two layers of escapes lie over the values of an environment report: `ESC` stands in front of
each byte of a value that could be a type code, and in the frame every `IAC` is doubled.  The
reader of both (`Environment.readReport?`) follows RFC 1572 and knows nothing of the writer:

| bytes | read as |
| --- | --- |
| `IAC SB option … IAC SE` | a payload, in which `IAC IAC` is one `IAC` |
| `IS …` | the variables that follow it |
| `VAR` or `USERVAR`, a name | a variable without a value |
| `VAR` or `USERVAR`, a name, `VALUE`, a value | a variable with a value |
| `ESC` and a byte, in a name or a value | that byte, whatever it is |

A value is text from its first byte to its last (`sections_escapeValue`), so a report is read
as the two variables of the terminal and nothing else (`environment_reported`).
-/

import RemoteTerminal.Proofs.Telnet.Containment
import RemoteTerminal.Proofs.Text.Lossy

namespace RemoteTerminal
namespace Telnet

/-! ### Reading a frame -/

/-- The payload in front of the end of a frame, and what follows that end. -/
def readPayload : Bytes → Option (Bytes × Bytes)
  | [] => none
  | byte :: rest =>
    if byte ≠ Code.iac then (readPayload rest).map fun r => (byte :: r.1, r.2)
    else
      match rest with
      | [] => none
      | next :: rest =>
        if next = Code.iac then (readPayload rest).map fun r => (Code.iac :: r.1, r.2)
        else if next = Code.se then some ([], rest)
        else none

/-- The payload of the frame of an option, and what follows the frame. -/
def unframe? (option : UInt8) (wire : Bytes) : Option (Bytes × Bytes) :=
  if [Code.iac, Code.sb, option] <+: wire then readPayload (wire.drop 3) else none

/-- One byte of a payload: an `IAC` has another before it, and no other byte is one. -/
theorem readPayload_doubledByte (byte : UInt8) (rest : Bytes) :
    readPayload (doubleIac [byte] ++ rest) =
      (readPayload rest).map fun r => (byte :: r.1, r.2) := by
  by_cases hbyte : byte = Code.iac
  · have hdoubled : doubleIac [byte] = [Code.iac, Code.iac] := by simp [doubleIac, hbyte]
    rw [hdoubled, hbyte, List.cons_append, List.cons_append, List.nil_append, readPayload]
    rfl
  · have hplain : doubleIac [byte] = [byte] := by simp [doubleIac, hbyte]
    rw [hplain, List.cons_append, List.nil_append, readPayload.eq_def]
    exact if_pos hbyte

/-- A payload is read to its end, whatever follows that. -/
theorem readPayload_doubleIac (payload rest : Bytes) :
    readPayload (doubleIac payload ++ ([Code.iac, Code.se] ++ rest)) = some (payload, rest) := by
  induction payload with
  | nil => rfl
  | cons byte payload ih =>
    have hcons : doubleIac (byte :: payload) = doubleIac [byte] ++ doubleIac payload :=
      doubleIac_append [byte] payload
    rw [hcons, List.append_assoc, readPayload_doubledByte, ih]
    rfl

/-- **A frame is read as its payload**, whatever follows. -/
theorem unframe?_frame (option : UInt8) (payload rest : Bytes) :
    unframe? option (frame option payload ++ rest) = some (payload, rest) := by
  have hwire : frame option payload ++ rest =
      [Code.iac, Code.sb, option] ++ (doubleIac payload ++ ([Code.iac, Code.se] ++ rest)) := by
    simp only [frame, List.append_assoc]
  rw [hwire, unframe?, if_pos (List.prefix_append ..)]
  exact readPayload_doubleIac payload rest

namespace Environment

/-! ### Reading variables -/

/-- The two kinds of variables. -/
inductive VariableKind where
  | wellKnown
  | user
  deriving DecidableEq, Repr

/-- What a type code says of the text behind it. -/
inductive Opening where
  /-- It is the name of a variable. -/
  | name (kind : VariableKind)
  /-- It is the value of the variable before it. -/
  | value
  deriving DecidableEq, Repr

/-- The type code that a byte is, if it is one. -/
def Opening.ofByte? (byte : UInt8) : Option Opening :=
  if byte = Code.var then some (.name .wellKnown)
  else if byte = Code.userVar then some (.name .user)
  else if byte = Code.value then some .value
  else none

/-- The text in front of the first type code, and each type code with the text behind it.
After `ESC` any byte is text. -/
def sections : Bytes → Option (Bytes × List (Opening × Bytes))
  | [] => some ([], [])
  | byte :: rest =>
    if byte = Code.esc then
      match rest with
      | [] => none
      | next :: rest => (sections rest).map fun s => (next :: s.1, s.2)
    else
      match Opening.ofByte? byte with
      | none => (sections rest).map fun s => (byte :: s.1, s.2)
      | some opening => (sections rest).map fun s => ([], (opening, s.1) :: s.2)

/-- A variable that is reported. -/
structure Variable where
  kind : VariableKind
  name : Bytes
  /-- There is none if the variable is not defined. -/
  value : Option Bytes
  deriving DecidableEq, Repr

/-- The variables that sections are about. -/
def gather? : List (Opening × Bytes) → Option (List Variable)
  | [] => some []
  | (.name kind, name) :: (.value, value) :: rest =>
    (gather? rest).map (⟨kind, name, some value⟩ :: ·)
  | (.name kind, name) :: rest => (gather? rest).map (⟨kind, name, none⟩ :: ·)
  | (.value, _) :: _ => none

/-- The variables in the content of a report. -/
def readContent? : Bytes → Option (List Variable)
  | [] => none
  | verb :: rest =>
    if verb = Code.is then
      match sections rest with
      | some ([], found) => gather? found
      | _ => none
    else none

/-- The variables of a report that stands at the front, and what follows it. -/
def readReport? (wire : Bytes) : Option (List Variable × Bytes) := do
  let (content, rest) ← unframe? TelnetOption.environment.toByte wire
  let found ← readContent? content
  return (found, rest)

/-! ### What was written is read -/

theorem sections_esc (byte : UInt8) (rest : Bytes) :
    sections (Code.esc :: byte :: rest) =
      (sections rest).map fun s => (byte :: s.1, s.2) := by
  rw [sections]
  rfl

theorem sections_plain {byte : UInt8} (hesc : byte ≠ Code.esc)
    (hcode : Opening.ofByte? byte = none) (rest : Bytes) :
    sections (byte :: rest) = (sections rest).map fun s => (byte :: s.1, s.2) := by
  rw [sections.eq_def]
  dsimp only
  rw [if_neg hesc, hcode]

theorem sections_code {byte : UInt8} {opening : Opening} (hesc : byte ≠ Code.esc)
    (hcode : Opening.ofByte? byte = some opening) (rest : Bytes) :
    sections (byte :: rest) = (sections rest).map fun s => ([], (opening, s.1) :: s.2) := by
  rw [sections.eq_def]
  dsimp only
  rw [if_neg hesc, hcode]

/-- One byte of a value is text: it has `ESC` before it, or is no code at all. -/
theorem sections_escapedByte (byte : UInt8) (rest : Bytes) :
    sections (escapeValue [byte] ++ rest) =
      (sections rest).map fun s => (byte :: s.1, s.2) := by
  by_cases hcode : byte = Code.var ∨ byte = Code.value ∨ byte = Code.esc ∨ byte = Code.userVar
  · have hescaped : escapeValue [byte] = [Code.esc, byte] := by simp [escapeValue, hcode]
    rw [hescaped]
    exact sections_esc byte rest
  · have hescaped : escapeValue [byte] = [byte] := by simp [escapeValue, hcode]
    simp only [not_or] at hcode
    obtain ⟨hvar, hvalue, hesc, huser⟩ := hcode
    have hnone : Opening.ofByte? byte = none := by
      simp only [Opening.ofByte?, hvar, huser, hvalue, if_false]
    rw [hescaped]
    exact sections_plain hesc hnone rest

/-- **A value is text from its first byte to its last.** -/
theorem sections_escapeValue (value rest : Bytes) :
    sections (escapeValue value ++ rest) =
      (sections rest).map fun s => (value ++ s.1, s.2) := by
  induction value with
  | nil => simp [escapeValue]
  | cons byte value ih =>
    have hcons : escapeValue (byte :: value) = escapeValue [byte] ++ escapeValue value := by
      simp [escapeValue]
    rw [hcons, List.append_assoc, sections_escapedByte, ih, Option.map_map]
    rfl

/-- A variable makes two sections.  Its name is written as it is, so it must have nothing in it
that is escaped. -/
theorem sections_userVariable {name : Bytes} (hname : escapeValue name = name)
    (value rest : Bytes) :
    sections (userVariable name value ++ rest) = (sections rest).map fun s =>
      ([], (.name .user, name) :: (.value, value ++ s.1) :: s.2) := by
  have hwire : userVariable name value ++ rest =
      Code.userVar :: (escapeValue name ++ (Code.value :: (escapeValue value ++ rest))) := by
    simp [userVariable, hname]
  rw [hwire, sections_code (by decide) (rfl : Opening.ofByte? Code.userVar = _),
    sections_escapeValue, sections_code (by decide) (rfl : Opening.ofByte? Code.value = _),
    sections_escapeValue]
  simp only [Option.map_map, Function.comp_def, List.append_nil]

/-- Variables of users, one after the other, are read as what they are. -/
theorem readContent?_userVariables {defined : List (Bytes × Bytes)}
    (h : ∀ d ∈ defined, escapeValue d.1 = d.1) :
    readContent? (Code.is :: defined.flatMap fun d => userVariable d.1 d.2) =
      some (defined.map fun d => ⟨.user, d.1, some d.2⟩) := by
  have hsections : sections (defined.flatMap fun d => userVariable d.1 d.2) =
      some ([], defined.flatMap fun d => [(.name .user, d.1), (.value, d.2)]) := by
    induction defined with
    | nil => rfl
    | cons d rest ih =>
      obtain ⟨hname, hrest⟩ := List.forall_mem_cons.1 h
      rw [List.flatMap_cons, sections_userVariable hname, ih hrest]
      simp
  have hgather : gather? (defined.flatMap fun d => [(.name .user, d.1), (.value, d.2)]) =
      some (defined.map fun d => ⟨.user, d.1, some d.2⟩) := by
    clear h hsections
    induction defined with
    | nil => rfl
    | cons d rest ih =>
      rw [List.flatMap_cons, List.cons_append, List.cons_append, List.nil_append, gather?, ih]
      rfl
  rw [readContent?, if_pos rfl, hsections]
  exact hgather

/-- The type and the language of a terminal, as variables of its user. -/
def describing (t : Terminal) : List Variable :=
  [⟨.user, ascii "TERM", some (utf8 t.terminalType)⟩, ⟨.user, ascii "LANG", some (utf8 t.lang)⟩]

/-- The content of a terminal's report is read as the variables that describe it. -/
theorem readContent?_environmentContent (t : Terminal) :
    readContent? (environmentContent t) = some (describing t) := by
  have hcontent : environmentContent t =
      Code.is :: [(ascii "TERM", utf8 t.terminalType), (ascii "LANG", utf8 t.lang)].flatMap
        fun d => userVariable d.1 d.2 := by
    simp [environmentContent]
  have hnames : escapeValue (ascii "TERM") = ascii "TERM" ∧
      escapeValue (ascii "LANG") = ascii "LANG" := by
    decide
  rw [hcontent, readContent?_userVariables (by simpa using hnames)]
  rfl

/-- And so is the report itself. -/
theorem readReport?_reportEnvironment (t : Terminal) (rest : Bytes) :
    readReport? (reportEnvironment t ++ rest) = some (describing t, rest) := by
  rw [readReport?, reportEnvironment, unframe?_frame]
  show (readContent? (environmentContent t)).bind (fun found => some (found, rest)) = _
  rw [readContent?_environmentContent]
  rfl

/-- The request for the variables of a terminal, with what is asked for. -/
def request (asked : Bytes) : Bytes :=
  frame TelnetOption.environment.toByte (Code.send :: asked)

/-- What a client says to a request is the report of its terminal. -/
theorem replies_request {c : Codec} (hrole : c.role = .client) (hstate : c.state = .data)
    {asked : Bytes} (hasked : asked.length + 2 ≤ subnegotiationLimit) :
    (c.decode (request asked)).2.replies = c.replies ++ reportEnvironment c.terminal := by
  let content := TelnetOption.environment.toByte :: Code.send :: asked
  have hframe : request asked =
      [Code.iac, Code.sb] ++ (doubleIac content ++ [Code.iac] ++ [Code.se]) := by
    have hoption : TelnetOption.environment.toByte ≠ Code.iac := by decide
    simp [request, frame, content, doubleIac, hoption]
  have hanswer : askedReport? .client c.terminal content = some (reportEnvironment c.terminal) := by
    have hshort : ¬subnegotiationLimit < content.length := by
      simp only [content, List.length_cons]
      omega
    rw [askedReport?, if_neg hshort]
    rfl
  rw [hframe, (Codec.decode_subnegotiation hstate content).2, Codec.act_eq_reported]
  dsimp only
  rw [hrole, hanswer]
  rfl

/-- **An environment report says what the terminal is, and nothing else.**  This is so of every
terminal, whatever is in its texts.

* The report is read as two variables of the user, `TERM` with the type of the terminal and
  `LANG` with its language, in this order.  What follows it is left over.
* Terminals that differ in one of the two have different reports.
* A client that is asked for its environment between two items, in any pieces, says this report. -/
theorem environment_reported (t : Terminal) :
    let told : List Variable :=
      [⟨.user, ascii "TERM", some (utf8 t.terminalType)⟩,
        ⟨.user, ascii "LANG", some (utf8 t.lang)⟩]
    (∀ rest, readReport? (reportEnvironment t ++ rest) = some (told, rest)) ∧
      (∀ t', reportEnvironment t' = reportEnvironment t →
        t'.terminalType = t.terminalType ∧ t'.lang = t.lang) ∧
      ∀ c : Codec, c.role = .client → c.terminal = t → c.state = .data →
        ∀ asked pieces, asked.length + 2 ≤ subnegotiationLimit → pieces.flatten = request asked →
          ∃ answer, (c.decodeAll pieces).2.replies = c.replies ++ answer ∧
            readReport? answer = some (told, []) := by
  intro told
  refine ⟨readReport?_reportEnvironment t, fun t' h => ?_, ?_⟩
  · have hread := readReport?_reportEnvironment t []
    rw [← h, readReport?_reportEnvironment] at hread
    have htold : describing t' = describing t := congrArg Prod.fst (Option.some.inj hread)
    simp only [describing, List.cons.injEq, Variable.mk.injEq, Option.some.injEq, true_and,
      and_true] at htold
    exact ⟨utf8_inj htold.1, utf8_inj htold.2⟩
  · rintro c hrole rfl hstate asked pieces hasked hpieces
    refine ⟨reportEnvironment c.terminal, ?_, ?_⟩
    · rw [Codec.decodeAll_eq_decode, hpieces]
      exact replies_request hrole hstate hasked
    · have hread := readReport?_reportEnvironment c.terminal []
      rwa [List.append_nil] at hread

/-- A type that would begin another variable, a language of type codes alone, and a request in
two pieces. -/
theorem environment_reported_codes :
    let terminal : Terminal := { terminalType := "a\x03LANG\x01C", lang := "\x02\x03" }
    let pieces : List Bytes := [[255, 250, 39], [1, 255, 240]]
    pieces.flatten = request [] ∧
      ∃ answer, (({ terminal } : Codec).decodeAll pieces).2.replies = answer ∧
        readReport? answer =
          some ([⟨.user, ascii "TERM", some [97, 3, 76, 65, 78, 71, 1, 67]⟩,
            ⟨.user, ascii "LANG", some [2, 3]⟩], []) := by
  intro terminal pieces
  have hpieces : pieces.flatten = request [] := by decide
  obtain ⟨answer, hsaid, hread⟩ := (environment_reported terminal).2.2 { terminal } rfl rfl rfl []
    pieces (by decide) hpieces
  have htype : utf8 terminal.terminalType = [97, 3, 76, 65, 78, 71, 1, 67] := by decide +kernel
  have hlang : utf8 terminal.lang = [2, 3] := by decide +kernel
  rw [htype, hlang] at hread
  exact ⟨hpieces, answer, hsaid, hread⟩

end Environment
end Telnet
end RemoteTerminal
