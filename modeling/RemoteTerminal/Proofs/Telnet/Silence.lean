/-
# Negotiation comes to an end

No two codecs go on talking to each other for ever.  A side says each verb about an
option once, so it says 28 verbs at most, and what it says besides is a report or a
request for each verb that it hears, and a report for each request.  That bounds the
bytes of all its replies, whatever the schedule (`Dialogue.Arises.size_le`); a change of
the window is worth one more report.

So every transfer gets closer to the end: replies that are put on the wire use up some of
what a side can say at all, and counted double that outweighs the wire's growth
(`Encounter.effort`).  `negotiation_ends` puts it together: as long as each side's
replies are taken, and something of each wire is delivered, again and again, both wires
and both queues fall empty.
-/

import Mathlib.Data.List.Perm.Subperm
import RemoteTerminal.Proofs.Telnet.Encounter
import RemoteTerminal.Proofs.Telnet.Options
import RemoteTerminal.Proofs.Telnet.Utterances

namespace RemoteTerminal
namespace Telnet

/-! ### Sizes -/

/-- How many verbs there are among some items. -/
def verbCount (items : List Item) : Nat := items.countP Item.isVerb

/-- How many requests for a terminal type there are among some items. -/
def requestCount (items : List Item) : Nat := items.count .typeRequest

/-- How many bytes some items take. -/
def size (items : List Item) : Nat := (items.flatMap Item.bytes).length

@[simp] theorem verbCount_append (a b : List Item) :
    verbCount (a ++ b) = verbCount a + verbCount b :=
  List.countP_append

@[simp] theorem requestCount_append (a b : List Item) :
    requestCount (a ++ b) = requestCount a + requestCount b :=
  List.count_append

@[simp] theorem size_append (a b : List Item) : size (a ++ b) = size a + size b := by
  simp [size]

theorem doubleIac_length_le (data : Bytes) : (doubleIac data).length ≤ 2 * data.length := by
  induction data with
  | nil => exact Nat.le_refl 0
  | cons byte rest ih =>
    have hcons : doubleIac (byte :: rest) = doubleIac [byte] ++ doubleIac rest :=
      doubleIac_append [byte] rest
    have hone : (doubleIac [byte]).length ≤ 2 := by
      unfold doubleIac
      by_cases h : byte = Code.iac <;> simp [h]
    rw [hcons, List.length_append, List.length_cons]
    omega

/-- Parameters take five bytes and at most two for each of theirs. -/
theorem Item.bytes_parameters_length_le (option : TelnetOption) (h : option.toByte ≠ Code.iac)
    (data : Bytes) : (parameters option data).bytes.length ≤ 5 + 2 * data.length := by
  have hdouble := doubleIac_length_le data
  rw [bytes_parameters h, frame]
  simp only [List.length_append, List.length_cons, List.length_nil]
  omega

theorem size_singleton (item : Item) : size [item] = item.bytes.length := by
  simp [size]

theorem size_windowReport_le (window : WindowSize) : size [.windowReport window] ≤ 13 := by
  rw [size_singleton]
  exact Item.bytes_parameters_length_le .windowSize (by decide) window.toBytes

/-- The most bytes that the report of a terminal type takes. -/
def reportLimit (name : String) : Nat := 7 + 2 * (utf8 name).length

theorem size_typeReport_le (name : String) : size [.typeReport name] ≤ reportLimit name := by
  have hle := Item.bytes_parameters_length_le .terminalType (by decide) (Code.is :: utf8 name)
  rw [List.length_cons] at hle
  rw [size_singleton, reportLimit]
  exact Nat.le_trans hle (by omega)

/-- A verb takes three bytes. -/
theorem size_of_isVerb {items : List Item} (h : ∀ item ∈ items, item.isVerb = true) :
    size items = 3 * verbCount items ∧ requestCount items = 0 := by
  induction items with
  | nil => exact ⟨rfl, rfl⟩
  | cons item rest ih =>
    obtain ⟨hsize, hrequests⟩ := ih fun other hother => h other (List.mem_cons_of_mem _ hother)
    have hfirst : size [item] = 3 ∧ verbCount [item] = 1 ∧ requestCount [item] = 0 := by
      have hverb := h item List.mem_cons_self
      cases item with
      | negotiation verb option => exact ⟨rfl, rfl, rfl⟩
      | data | literal | command | subnegotiation => cases hverb
    have hcons : item :: rest = [item] ++ rest := rfl
    rw [hcons, size_append, verbCount_append, requestCount_append]
    omega

/-- What is said to a verb. -/
theorem size_answers_le (verb : Verb) (option : TelnetOption) (c : Codec) :
    size (c.answers verb option) ≤ 3 * verbCount (c.answers verb option) + 13 ∧
      requestCount (c.answers verb option) ≤ 1 := by
  obtain ⟨new, next, hanswers, hverbs⟩ := Utterance.exists_answers verb option c
  obtain ⟨hsize, hrequests⟩ := size_of_isVerb hverbs
  have hnext : size (next.items c.terminal.window) ≤ 13 ∧
      (next.items c.terminal.window).length ≤ 1 := by
    cases next with
    | nothing => exact ⟨Nat.zero_le _, Nat.zero_le _⟩
    | reportWindow => exact ⟨size_windowReport_le _, Nat.le_refl 1⟩
    | askTerminalType =>
      have hrequest : size [.typeRequest] ≤ 13 := by decide
      exact ⟨hrequest, Nat.le_refl 1⟩
  have hone : requestCount (next.items c.terminal.window) ≤ 1 :=
    Nat.le_trans List.count_le_length hnext.2
  rw [hanswers, size_append, verbCount_append, requestCount_append]
  omega

/-- What is said to anything: at most a verb, and a report for a verb or a request. -/
theorem size_answersTo_le {name : String} {heard : Item} (h : Utterance name heard) (c : Codec) :
    size (c.answersTo heard) ≤ 3 * verbCount (c.answersTo heard) + 13 * verbCount [heard] +
        reportLimit c.terminal.terminalType * requestCount [heard] ∧
      requestCount (c.answersTo heard) ≤ verbCount [heard] := by
  cases h with
  | verb verb option =>
    have hone : verbCount [.negotiation verb option] = 1 := rfl
    have hanswers := size_answers_le verb (TelnetOption.ofByte option) c
    rw [hone]
    exact ⟨Nat.le_trans hanswers.1 (Nat.le_add_right ..), hanswers.2⟩
  | windowReport window =>
    rw [Codec.answersTo_windowReport]
    exact ⟨Nat.zero_le _, Nat.zero_le _⟩
  | typeReport =>
    rw [Codec.answersTo_typeReport]
    exact ⟨Nat.zero_le _, Nat.zero_le _⟩
  | typeRequest =>
    have hone : requestCount [.typeRequest] = 1 := rfl
    rw [Codec.answersTo_typeRequest, hone]
    cases c.role with
    | client =>
      have hsize := size_typeReport_le c.terminal.terminalType
      have hnone : requestCount [.typeReport c.terminal.terminalType] = 0 :=
        List.count_eq_zero.2 (by simp [(Item.typeReport_ne_typeRequest _).symm])
      exact ⟨by dsimp only; omega, hnone ▸ Nat.zero_le _⟩
    | server => exact ⟨Nat.zero_le _, Nat.zero_le _⟩

theorem size_windowNews_le (window : WindowSize) (c : Codec) :
    size (c.windowNews window) ≤ 13 ∧ requestCount (c.windowNews window) = 0 := by
  unfold Codec.windowNews
  split
  · exact ⟨size_windowReport_le window,
      List.count_eq_zero.2 (by simp [(Item.windowReport_ne_typeRequest window).symm])⟩
  · exact ⟨Nat.zero_le _, rfl⟩

theorem TelnetOption.mem_known {option : TelnetOption}
    (h : option.performer ≠ .nobody) : option ∈ TelnetOption.known := by
  cases option <;> simp_all [TelnetOption.known, TelnetOption.performer]

/-- Verbs that are said once about each option are said once. -/
theorem nodup_filter_isVerb {items : List Item} (h : ∀ byte, (verbs byte items).Nodup) :
    (items.filter Item.isVerb).Nodup := by
  induction items with
  | nil => exact List.nodup_nil
  | cons item rest ih =>
    have hcons (byte : UInt8) : verbs byte (item :: rest) = verbs byte [item] ++ verbs byte rest :=
      verbs_append byte [item] rest
    have hrest := ih fun byte => by
      have hboth := h byte
      rw [hcons] at hboth
      exact (List.nodup_append.1 hboth).2.1
    cases item with
    | negotiation verb option =>
      have hfirst : Item.negotiation verb option ∉ rest.filter Item.isVerb := by
        intro hmem
        have hboth := h option
        have hone : verbs option [.negotiation verb option] = [verb] := by
          rw [verbs_negotiation, if_pos rfl]
        have hagain : verb ∈ verbs option rest :=
          mem_verbs.2 (List.mem_filter.1 hmem).1
        rw [hcons, hone] at hboth
        exact (List.nodup_append.1 hboth).2.2 verb (List.mem_singleton_self verb) verb hagain rfl
      exact List.nodup_cons.2 ⟨hfirst, hrest⟩
    | data | literal | command | subnegotiation => exact hrest

/-- All that can be said about the options that are negotiated. -/
def everyVerb : List Item :=
  TelnetOption.known.flatMap fun option =>
    [.saying .will option, .saying .wont option, .saying .do option, .saying .dont option]

/-- What a side can say in all, by its terminal's type and how often its window changes. -/
def speechLimit (name : String) (resized : Nat) : Nat :=
  28 * (16 + reportLimit name) + 13 * resized

/-! ### What a side says in all -/

/-- What a side has said is worth what it has heard. -/
structure Frugal (name : String) (x : Speaker) : Prop where
  size_le : size x.said ≤ 3 * verbCount x.said + 13 * verbCount x.heard +
    reportLimit name * requestCount x.heard + 13 * x.resized
  requestCount_le : requestCount x.said ≤ verbCount x.heard

/-- A side that has said more stays frugal if it is worth it. -/
theorem Frugal.say {name : String} {x x' : Speaker} {new heard : List Item} {resized : Nat}
    (h : Frugal name x) (hsaid : x'.said = x.said ++ new) (hheard : x'.heard = x.heard ++ heard)
    (hresized : x'.resized = x.resized + resized)
    (hsize : size new ≤ 3 * verbCount new + 13 * verbCount heard +
      reportLimit name * requestCount heard + 13 * resized)
    (hrequests : requestCount new ≤ verbCount heard) : Frugal name x' := by
  obtain ⟨hs, hr⟩ := h
  refine ⟨?_, ?_⟩
  · rw [hsaid, hheard, hresized]
    simp only [size_append, verbCount_append, requestCount_append, Nat.mul_add]
    omega
  · rw [hsaid, hheard]
    simp only [verbCount_append, requestCount_append]
    omega

namespace Dialogue

variable {role : End → Role} {terminal : End → Terminal} {d : Dialogue}

/-- **Every side is frugal.** -/
theorem Arises.frugal (h : Arises role terminal d) (e : End) :
    Frugal (terminal e).terminalType (d e) := by
  refine h.invariant (P := fun e x _ => Frugal (terminal e).terminalType x)
    (fun _ => ⟨Nat.zero_le _, Nat.zero_le _⟩) ?_ (fun _ _ _ _ hx _ _ => hx) e
  intro e d x hd hx _ hstep
  cases hstep with
  | start =>
    have hverbs : ∀ item ∈ (d e).codec.announced.unsaidAll (initialRequests (d e).codec.role),
        item.isVerb = true := fun _ => Utterance.of_unsaidAll
    obtain ⟨hsize, hrequests⟩ := size_of_isVerb hverbs
    exact hx.say rfl (List.append_nil _).symm (Nat.add_zero _).symm (by omega) (by omega)
  | resize window =>
    obtain ⟨hsize, hrequests⟩ := size_windowNews_le window (d e).codec
    exact hx.say rfl (List.append_nil _).symm rfl (by omega) (by omega)
  | hear heard rest hothers =>
    have hutterance := hd.utterance e.other heard (by simp [hothers])
    obtain ⟨hsize, hrequests⟩ := size_answersTo_le hutterance (d e).codec
    rw [(hd.regular e).terminalType_eq] at hsize
    exact hx.say rfl rfl (Nat.add_zero _).symm (Nat.le_trans hsize (Nat.le_add_right ..)) hrequests

/-- A side says 28 verbs at most. -/
theorem Arises.verbCount_le (h : Arises role terminal d) (e : End) : verbCount (d e).said ≤ 28 := by
  have hsubset : (d e).said.filter Item.isVerb ⊆ everyVerb := by
    intro item hitem
    obtain ⟨hsaid, hverb⟩ := List.mem_filter.1 hitem
    cases item with
    | negotiation verb option =>
      have hmem : verb ∈ verbs option (d e).said := mem_verbs.2 hsaid
      have hperformer : (TelnetOption.ofByte option).performer ≠ .nobody := by
        intro hnobody
        rw [h.verbs_unknown e hnobody] at hmem
        cases hmem
      have hknown := TelnetOption.mem_known hperformer
      have hsaying : Item.negotiation verb option = .saying verb (TelnetOption.ofByte option) := by
        rw [Item.saying, TelnetOption.toByte_ofByte]
      rw [hsaying]
      exact List.mem_flatMap.2 ⟨_, hknown, by cases verb <;> simp⟩
    | data | literal | command | subnegotiation => cases hverb
  have hlength := (List.Nodup.subperm (nodup_filter_isVerb (h.verbs_nodup e)) hsubset).length_le
  rw [verbCount, List.countP_eq_length_filter]
  exact hlength

/-- **What a side says in all is bounded.** -/
theorem Arises.size_le (h : Arises role terminal d) (e : End) :
    size (d e).said ≤ speechLimit (terminal e).terminalType (d e).resized := by
  have hheard : (d e).heard.Sublist (d e.other).said := (h.regular e).heard_isPrefix.sublist
  have hback : (d e.other).heard.Sublist (d e).said := by
    have hfront := (h.regular e.other).heard_isPrefix
    rw [End.other_other] at hfront
    exact hfront.sublist
  have hsaid : verbCount (d e).said ≤ 28 := h.verbCount_le e
  have hverbs : verbCount (d e).heard ≤ 28 :=
    Nat.le_trans hheard.countP_le (h.verbCount_le e.other)
  have hrequests : requestCount (d e).heard ≤ 28 :=
    calc requestCount (d e).heard
        ≤ requestCount (d e.other).said := hheard.count_le _
      _ ≤ verbCount (d e.other).heard := (h.frugal e.other).requestCount_le
      _ ≤ verbCount (d e).said := hback.countP_le
      _ ≤ 28 := hsaid
  have hreports := Nat.mul_le_mul_left (reportLimit (terminal e).terminalType) hrequests
  have hsize := (h.frugal e).size_le
  unfold speechLimit
  omega

end Dialogue

/-! ### Coming to rest -/

/-- A turn that only moves bytes along. -/
def Turn.isTransport : Turn → Bool
  | .carry _ | .deliver _ _ => true
  | _ => false

namespace Encounter

variable {role : End → Role} {terminal : End → Terminal} {c : Encounter}

/-- Turns that only move bytes along, and move something of each side if there is any. -/
structure IsRound (turns : List Turn) : Prop where
  transport : ∀ turn ∈ turns, Turn.isTransport turn = true
  carries : ∀ e, .carry e ∈ turns
  delivers : ∀ e, ∃ count, 0 < count ∧ .deliver e count ∈ turns

/-- An encounter that comes of some turns. -/
def Occurs (role : End → Role) (terminal : End → Terminal) (c : Encounter) : Prop :=
  ∃ turns, c = (fresh role terminal).playAll turns

theorem Occurs.play (h : Occurs role terminal c) (turn : Turn) :
    Occurs role terminal (c.play turn) := by
  obtain ⟨turns, rfl⟩ := h
  exact ⟨turns ++ [turn], by simp [playAll]⟩

/-- What a side may still say, counted double, and what is on its wire. -/
def toll (terminal : End → Terminal) (c : Encounter) (e : End) : Nat :=
  2 * (speechLimit (terminal e).terminalType (c e).resized - (c e).replied.length) +
    (c e).wire.length

/-- How much effort it takes at most to move all bytes along. -/
def effort (terminal : End → Terminal) (c : Encounter) : Nat :=
  c.toll terminal .a + c.toll terminal .b

theorem effort_eq (terminal : End → Terminal) (c : Encounter) (e : End) :
    c.effort terminal = c.toll terminal e + c.toll terminal e.other := by
  cases e with
  | a => rfl
  | b => exact Nat.add_comm ..

/-- The replies of a side are bounded. -/
theorem Occurs.replies_le (h : Occurs role terminal c) (e : End) :
    ((c e).replied ++ (c e).codec.replies).length ≤
      speechLimit (terminal e).terminalType (c e).resized := by
  obtain ⟨turns, rfl⟩ := h
  obtain ⟨d, hd, hshows⟩ := exists_dialogue role terminal turns
  obtain ⟨⟨-, -, hresized⟩, done, todo, queued, part, -, hreplied, hreplies, -, hsaid, -⟩ :=
    hshows e
  have hsize := hd.size_le e
  rw [hresized, hreplied, hreplies, ← List.flatMap_append, ← hsaid]
  exact hsize

/-- Where nothing is on its way, there is nothing to move. -/
theorem play_carry_of_nil {e : End} (h : (c e).codec.replies = []) : c.play (.carry e) = c := by
  have hcarry : (c e).carry = c e := by
    unfold Peer.carry Peer.send Codec.takeReplies
    rw [h]
    simp only [List.append_nil]
    rw [← h]
  unfold Encounter.play
  dsimp only
  rw [hcarry, End.assign_eq_self]

theorem play_deliver_of_nil {e : End} {count : Nat} (h : (c e).wire.take count = []) :
    c.play (.deliver e count) = c := by
  have hdrop : (c e).wire.drop count = (c e).wire := by
    have hboth := List.take_append_drop count (c e).wire
    rwa [h, List.nil_append] at hboth
  have hlose : (c e).lose count = c e := by
    unfold Peer.lose
    rw [hdrop]
  unfold Encounter.play
  dsimp only
  rw [h, hlose, End.assign_eq_self]
  exact End.assign_eq_self e.other c

/-- **Moving bytes along takes effort**, if there are any. -/
theorem Occurs.effort_lt (h : Occurs role terminal c) {turn : Turn} (ht : turn.isTransport = true) :
    c.play turn = c ∨ (c.play turn).effort terminal < c.effort terminal := by
  cases turn with
  | start | say | resize => cases ht
  | carry e =>
    by_cases hnil : (c e).codec.replies = []
    · exact .inl (play_carry_of_nil hnil)
    · right
      have hpos := List.length_pos_iff.2 hnil
      have hlimit := h.replies_le e
      rw [List.length_append] at hlimit
      rw [effort_eq terminal _ e, effort_eq terminal c e]
      have hown : (c.play (.carry e)).toll terminal e < c.toll terminal e := by
        unfold toll Encounter.play
        simp only [End.assign_self, Peer.carry, Peer.send, Codec.takeReplies, List.length_append]
        omega
      have hother : (c.play (.carry e)).toll terminal e.other = c.toll terminal e.other := by
        unfold toll Encounter.play
        simp only [End.assign_other]
      omega
  | deliver e count =>
    by_cases hnil : (c e).wire.take count = []
    · exact .inl (play_deliver_of_nil hnil)
    · right
      have hpos := List.length_pos_iff.2 hnil
      rw [List.length_take] at hpos
      rw [effort_eq terminal _ e, effort_eq terminal c e]
      have hown : (c.play (.deliver e count)).toll terminal e < c.toll terminal e := by
        unfold toll Encounter.play
        simp only [End.other_assign, End.assign_self, Peer.lose, List.length_drop]
        omega
      have hother :
            (c.play (.deliver e count)).toll terminal e.other = c.toll terminal e.other := by
        unfold toll Encounter.play
        simp only [End.assign_self, Peer.hear]
      omega

theorem Occurs.playAll (h : Occurs role terminal c) (turns : List Turn) :
    Occurs role terminal (c.playAll turns) := by
  obtain ⟨before, rfl⟩ := h
  exact ⟨before ++ turns, by simp [Encounter.playAll]⟩

/-- Turns that move bytes along either move none, or take effort. -/
theorem Occurs.still_or_effort_lt (h : Occurs role terminal c) {turns : List Turn}
    (ht : ∀ turn ∈ turns, turn.isTransport = true) :
    (c.playAll turns = c ∧ ∀ turn ∈ turns, c.play turn = c) ∨
      (c.playAll turns).effort terminal < c.effort terminal := by
  induction turns generalizing c with
  | nil => exact .inl ⟨rfl, fun _ hmem => nomatch hmem⟩
  | cons turn rest ih =>
    have hrest := ih (h.play turn) fun t hmem => ht t (List.mem_cons_of_mem _ hmem)
    have hcons : c.playAll (turn :: rest) = (c.play turn).playAll rest := rfl
    rcases h.effort_lt (ht turn List.mem_cons_self) with hsame | hless
    · rw [hsame] at hrest hcons
      rcases hrest with ⟨hstill, hall⟩ | hlast
      · refine .inl ⟨hcons.trans hstill, fun t hmem => ?_⟩
        rcases List.mem_cons.1 hmem with rfl | hmem
        · exact hsame
        · exact hall t hmem
      · exact .inr (hcons ▸ hlast)
    · rw [hcons]
      rcases hrest with ⟨hstill, -⟩ | hlast
      · exact .inr (hstill.symm ▸ hless)
      · exact .inr (Nat.lt_trans hlast hless)

/-- Where a round moves nothing, all is quiet. -/
theorem quiet_of_still {turns : List Turn} (hround : IsRound turns)
    (hstill : ∀ turn ∈ turns, c.play turn = c) : c.Quiet := by
  intro e
  refine ⟨?_, ?_⟩
  · obtain ⟨count, hpos, hmem⟩ := hround.delivers e
    have hwire : (c.play (.deliver e count) e).wire = (c e).wire.drop count := by
      unfold Encounter.play
      simp only [End.other_assign, End.assign_self, Peer.lose]
    have hlength := congrArg List.length hwire
    rw [hstill _ hmem, List.length_drop] at hlength
    exact List.eq_nil_of_length_eq_zero (by omega)
  · have hreplies : (c.play (.carry e) e).codec.replies = [] := by
      unfold Encounter.play
      simp only [End.assign_self, Peer.carry, Peer.send, Codec.takeReplies]
    rwa [hstill _ (hround.carries e)] at hreplies

/-- Where all is quiet, it stays so. -/
theorem Quiet.playAll_eq (h : c.Quiet) {turns : List Turn}
    (ht : ∀ turn ∈ turns, turn.isTransport = true) : c.playAll turns = c := by
  induction turns with
  | nil => rfl
  | cons turn rest ih =>
    have hplay : c.play turn = c := by
      have htransport := ht turn List.mem_cons_self
      cases turn with
      | start | say | resize => cases htransport
      | carry e => exact play_carry_of_nil (h e).2
      | deliver e count => exact play_deliver_of_nil (by rw [(h e).1, List.take_nil])
    have hcons : c.playAll (turn :: rest) = (c.play turn).playAll rest := rfl
    rw [hcons, hplay]
    exact ih fun t hmem => ht t (List.mem_cons_of_mem _ hmem)

/-- **After as many rounds as there is effort to take, all is quiet.** -/
theorem Occurs.quiet_of_rounds (h : Occurs role terminal c) {rounds : List (List Turn)}
    (hrounds : ∀ turns ∈ rounds, IsRound turns) (hlong : c.effort terminal < rounds.length) :
    (c.playAll rounds.flatten).Quiet := by
  induction rounds generalizing c with
  | nil => exact absurd hlong (Nat.not_lt_zero _)
  | cons turns rest ih =>
    have hround := hrounds turns List.mem_cons_self
    have hrest : ∀ turns ∈ rest, IsRound turns := fun t hmem =>
      hrounds t (List.mem_cons_of_mem _ hmem)
    have hcons : c.playAll (turns :: rest).flatten = (c.playAll turns).playAll rest.flatten := by
      simp [Encounter.playAll]
    rw [hcons]
    rcases h.still_or_effort_lt hround.transport with ⟨hsame, hstill⟩ | hless
    · have hquiet := quiet_of_still hround hstill
      rw [hsame, hquiet.playAll_eq]
      · exact hquiet
      · intro turn hmem
        obtain ⟨t, ht, hturn⟩ := List.mem_flatten.1 hmem
        exact (hrest t ht).transport turn hturn
    · rw [List.length_cons] at hlong
      exact ih (h.playAll turns) hrest (by omega)

/-- Of verbs that are not repeated there are two about each side at most. -/
theorem countP_side_le {list : List Verb} (h : list.Nodup) (side : Side) :
    (list.countP fun verb => verb.side = side) ≤ 2 := by
  have hsubset : (list.filter fun verb => verb.side = side) ⊆
      if side = .own then [.will, .wont] else [.do, .dont] := by
    intro verb hverb
    have hside : verb.side = side := by simpa using (List.mem_filter.1 hverb).2
    subst hside
    cases verb <;> simp [Verb.side]
  rw [List.countP_eq_length_filter]
  refine Nat.le_trans ((h.filter _).subperm hsubset).length_le ?_
  split <;> exact Nat.le_refl 2

/-- Payload has no verbs. -/
theorem verbs_spoken (byte : UInt8) (items : List Item) :
    verbs byte (spoken items) = verbs byte items := by
  unfold verbs spoken
  rw [List.filterMap_filter]
  refine List.filterMap_congr fun item _ => ?_
  cases item <;> rfl

/-- **Negotiation comes to an end.**  Whatever the roles of two codecs, when each starts,
which payload is said, how the windows change and how both wires are delivered: a side
puts each verb about an option on its wire at most once, so at most two about itself and
two about the other; its replies in all are bounded by what its terminal is, and how
often the window changes; and from there on, with as many rounds as it takes effort to
move bytes along, in any order and any pieces, both wires and both queues fall empty. -/
theorem negotiation_ends (role : End → Role) (terminal : End → Terminal) (turns : List Turn) :
    let c := (fresh role terminal).playAll turns
    (∀ e items rest, Reads (c e).sent items rest → ∀ byte, (verbs byte items).Nodup ∧
      ∀ side, ((verbs byte items).countP fun verb => verb.side = side) ≤ 2) ∧
    (∀ e, ((c e).replied ++ (c e).codec.replies).length ≤
      speechLimit (terminal e).terminalType (c e).resized) ∧
    ∀ rounds : List (List Turn), (∀ turns ∈ rounds, IsRound turns) →
      c.effort terminal < rounds.length → (c.playAll rounds.flatten).Quiet := by
  intro c
  have hoccurs : Occurs role terminal c := ⟨turns, rfl⟩
  refine ⟨fun e items rest hreads byte => ?_, hoccurs.replies_le,
    fun rounds => hoccurs.quiet_of_rounds⟩
  obtain ⟨d, hd, hshows⟩ := exists_dialogue role terminal turns
  obtain ⟨-, done, todo, queued, part, hsent, -, -, -, hsaid, -⟩ := hshows e
  have hitems : items = done ++ todo :=
    (hreads.unique ⟨by rw [hsent, List.append_nil], Item.begins_nil⟩).1
  have hnodup : (verbs byte items).Nodup := by
    have hall := hd.verbs_nodup e byte
    rw [hsaid, verbs_append, verbs_spoken, ← hitems] at hall
    exact (List.nodup_append.1 hall).1
  exact ⟨hnodup, countP_side_le hnodup⟩

end Encounter
end Telnet
end RemoteTerminal
