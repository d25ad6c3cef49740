/-
# The count of control bytes

A session counts, read by read, by how much more came in than payload came of it.  Over a
whole stream that should be its framing: the bytes of its items that are no data, the fillers
after returns, and the item that has only begun (`framing`).

The count is taken too early and cut off at zero.

* A return that is held back is counted with the read that brings it, and is not taken back
  when the next one brings it out as payload.  What a chunk makes more than it has
  (`Codec.excess`) is missed.
* The filler that is made up between two returns is payload that no byte came in for.

`control_bytes_of_run` says what the count is in terms of these, hence when it is right, and
when two ways of cutting a stream agree on it.  Without returns outside binary mode it is
right however the stream is cut (`excess_eq_zero`).
-/

import RemoteTerminal.Proofs.Telnet.Items
import RemoteTerminal.Proofs.Telnet.RawWrites
import RemoteTerminal.Proofs.Telnet.ReadStream

namespace RemoteTerminal

namespace Telnet

/-! ### What payload is made of -/

namespace Return

/-- How often a byte follows on a return, both outside binary mode. -/
def followed (byte : UInt8) (data : List (Bool × UInt8)) : Nat :=
  (data.zip data.tail).count ((false, Code.cr), (false, byte))

theorem followed_cons {first : Bool × UInt8} (h : first ≠ (false, Code.cr)) (byte : UInt8)
    (rest : List (Bool × UInt8)) : followed byte (first :: rest) = followed byte rest := by
  cases rest <;> simp [followed, h]

theorem followed_return (byte : UInt8) (second : Bool × UInt8) (rest : List (Bool × UInt8)) :
    followed byte ((false, Code.cr) :: second :: rest) =
      followed byte (second :: rest) + if second = (false, byte) then 1 else 0 := by
  simp [followed, List.count_cons]

theorem held_return (second : Bool × UInt8) (rest : List (Bool × UInt8)) :
    held ((false, Code.cr) :: second :: rest) = held (second :: rest) := by
  simp [held]

theorem held_eq_false {data : List (Bool × UInt8)} (h : (false, Code.cr) ∉ data) :
    held data = false := by
  rw [held, decide_eq_false_iff_not]
  exact fun hlast => h (List.mem_of_getLast? hlast)

theorem followed_eq_zero {data : List (Bool × UInt8)} (h : (false, Code.cr) ∉ data)
    (byte : UInt8) : followed byte data = 0 :=
  List.count_eq_zero.2 fun hpair => h (List.of_mem_zip hpair).1

/-- **How much payload some data make**: as much as they are, less the fillers and the return
that is held back, and a filler more for each return right before another. -/
theorem length_canonical (data : List (Bool × UInt8)) :
    (canonical data).length + (held data).toNat + followed Code.nul data =
      data.length + followed Code.cr data := by
  have hlf : ((false, Code.lf) : Bool × UInt8) ≠ (false, Code.cr) := by decide
  have hnul : ((false, Code.nul) : Bool × UInt8) ≠ (false, Code.cr) := by decide
  have hother : ((false, Code.lf) : Bool × UInt8) ≠ (false, Code.nul) := by decide
  induction data using canonical.induct with
  | case1 => rfl
  | case2 => rfl
  | case3 first h => simp [canonical, held, followed, h]
  | case4 rest ih =>
    rw [held_return, held_cons hlf, followed_return, followed_return, followed_cons hlf,
      followed_cons hlf, canonical, if_pos rfl, if_pos rfl, if_neg hother, if_neg hlf]
    simp only [List.length_cons]
    omega
  | case5 rest _ ih =>
    rw [held_return, held_cons hnul, followed_return, followed_return, followed_cons hnul,
      followed_cons hnul, canonical, if_pos rfl, if_neg hother.symm, if_pos rfl, if_pos rfl,
      if_neg hnul]
    simp only [List.length_cons]
    omega
  | case6 rest _ _ ih =>
    rw [held_return, followed_return, followed_return, canonical, if_pos rfl, if_neg hlf.symm,
      if_neg hnul.symm, if_pos rfl, if_neg hnul.symm, if_pos rfl]
    simp only [List.length_cons] at ih ⊢
    omega
  | case7 second rest hlf' hnul' hcr' ih =>
    rw [held_return, followed_return, followed_return, canonical, if_pos rfl, if_neg hlf',
      if_neg hnul', if_neg hcr', if_neg hnul', if_neg hcr']
    simp only [List.length_cons] at ih ⊢
    omega
  | case8 first second rest h ih =>
    rw [held_cons h, followed_cons h, followed_cons h, canonical_cons h]
    simp only [List.length_cons] at ih ⊢
    omega

end Return

/-- The bytes of some items that are no data. -/
def overhead : List Item → Nat
  | [] => 0
  | item :: rest => (item.bytes.length - item.datum?.toList.length) + overhead rest

theorem Item.length_datum_le (item : Item) : item.datum?.toList.length ≤ item.bytes.length := by
  cases item <;> simp [datum?, bytes]

namespace Codec

/-- The bytes of some items and the beginning of one more that are no payload: all that are no
data, and the fillers. -/
def framing (items : List Item) (rest : Bytes) (c : Codec) : Nat :=
  overhead items + Return.followed Code.nul (data items c) + rest.length

theorem length_items (items : List Item) (c : Codec) :
    (items.flatMap Item.bytes).length = overhead items + (data items c).length := by
  induction items generalizing c with
  | nil => rfl
  | cons item rest ih =>
    have hrest := ih (c.obey item)
    have hitem := item.length_datum_le
    simp only [List.flatMap_cons, overhead, data, List.length_append, List.length_map]
    omega

/-- **How much payload a stream makes**: as much as it has bytes, less its framing and the
return that is held back, and a filler more for each return right before another. -/
theorem length_payload {stream rest : Bytes} {items : List Item} (h : Reads stream items rest)
    (role : Role) :
    let c : Codec := { role }
    (c.decode stream).1.payload.length + c.framing items rest +
        (Return.held (data items c)).toNat =
      stream.length + Return.followed Code.cr (data items c) := by
  intro c
  have hdata := Return.length_canonical (data items c)
  have hitems := length_items items c
  have hpayload : (c.decode stream).1.payload = Return.canonical (data items c) :=
    (decode_reads h role {}).1
  rw [hpayload, h.stream_eq, List.length_append, framing]
  omega

/-! ### What single chunks make -/

/-- How much more payload the chunks of a stream make than they have bytes, each for itself. -/
def excess : List Bytes → Codec → Nat
  | [], _ => 0
  | chunk :: rest, c =>
    ((c.decode chunk).1.payload.length - chunk.length) + excess rest (c.decode chunk).2

theorem excess_concat (chunks : List Bytes) (chunk : Bytes) (c : Codec) :
    excess (chunks ++ [chunk]) c = excess chunks c +
      (((c.decode chunks.flatten).2.decode chunk).1.payload.length - chunk.length) := by
  induction chunks generalizing c with
  | nil => exact Nat.add_comm ..
  | cons first rest ih =>
    rw [List.cons_append, excess, ih, excess, List.flatten_cons, decode_append, Nat.add_assoc]

/-- No return is held back anywhere in a stretch of a stream. -/
def Plain (stretch : Bytes) (c : Codec) : Prop :=
  ∀ front, front <+: stretch → (c.decode front).2.pendingCr = false

theorem Plain.after {back : Bytes} {c : Codec} (front : Bytes) (h : c.Plain (front ++ back)) :
    (c.decode front).2.Plain back := by
  intro part hpart
  have hwhole := h (front ++ part) ((List.prefix_append_right_inj front).2 hpart)
  rwa [decode_append] at hwhole

theorem Plain.length_payload_le {chunk : Bytes} {c : Codec} (h : c.Plain chunk) :
    (c.decode chunk).1.payload.length ≤ chunk.length := by
  induction chunk generalizing c with
  | nil => exact Nat.zero_le _
  | cons byte rest ih =>
    have hnow : c.pendingCr = false := h [] List.nil_prefix
    have hfirst := length_payload_step_le byte c
    rw [hnow, Bool.toNat_false] at hfirst
    have hrest : ((c.step byte).2.decode rest).1.payload.length ≤ rest.length := ih (h.after [byte])
    have hboth : (c.decode (byte :: rest)).1.payload =
        (c.step byte).1.payload ++ ((c.step byte).2.decode rest).1.payload := rfl
    rw [hboth, List.length_append, List.length_cons]
    omega

theorem Plain.excess_eq_zero {chunks : List Bytes} {c : Codec} (h : c.Plain chunks.flatten) :
    c.excess chunks = 0 := by
  induction chunks generalizing c with
  | nil => rfl
  | cons chunk rest ih =>
    rw [List.flatten_cons] at h
    have hchunk : c.Plain chunk := fun front hfront =>
      h front (hfront.trans (List.prefix_append ..))
    rw [excess, ih (h.after chunk), Nat.sub_eq_zero_of_le hchunk.length_payload_le]

theorem data_append (items more : List Item) (c : Codec) :
    data (items ++ more) c = data items c ++ data more (c.obeyAll items) := by
  induction items generalizing c with
  | nil => rfl
  | cons item rest ih =>
    rw [List.cons_append, data_cons, data_cons item rest, ih, List.append_assoc]
    rfl

/-- Without returns outside binary mode nothing is held back anywhere in a stream. -/
theorem plain_of_reads {stream rest : Bytes} {items : List Item} (h : Reads stream items rest)
    (role : Role) (hcr : (false, Code.cr) ∉ data items { role }) :
    ({ role } : Codec).Plain stream := by
  rintro front ⟨back, rfl⟩
  obtain ⟨begun, part, hfront⟩ := exists_reads front
  obtain ⟨more, rest', hback⟩ := exists_reads (part ++ back)
  have hwhole : Reads (front ++ back) (begun ++ more) rest' := by
    refine ⟨?_, hback.begins⟩
    rw [hfront.stream_eq, List.append_assoc, hback.stream_eq, List.flatMap_append,
      List.append_assoc]
  obtain ⟨rfl, -⟩ := h.unique hwhole
  obtain ⟨-, p, hp, -, hnext⟩ := decode_reads hfront role {}
  have hheld : Return.held (data begun { role }) = false := by
    refine Return.held_eq_false fun hmem => hcr ?_
    rw [data_append]
    exact List.mem_append_left _ hmem
  calc (({ role } : Codec).decode front).2.pendingCr
    _ = p.pendingCr := congrArg Codec.pendingCr hnext
    _ = false := hp.trans hheld

end Codec

/-! ### What a session counts -/

namespace Session

open View (Account)

theorem controlBytes_sendReplies (s : Session) : s.sendReplies.2.controlBytes = s.controlBytes := by
  unfold sendReplies
  dsimp only
  split <;> rfl

theorem controlBytes_start (s : Session) : s.start.2.controlBytes = s.controlBytes := by
  unfold start
  split
  · rfl
  · exact controlBytes_sendReplies _

theorem controlBytes_respondAndDeliver (room : Nat) (s : Session) :
    (s.respondAndDeliver room).2.controlBytes = s.controlBytes := by
  have hsend := controlBytes_sendReplies s
  have hresponds := respondAndDeliver_respondsBy room s
  generalize s.respondAndDeliver room = result at hresponds ⊢
  cases hresponds with
  | silent h => rfl
  | said h hs => exact hsend
  | unsent h hs hp => exact hsend
  | passedOver h hs hp => exact hsend

/-- The loop of `write` counts nothing; by induction on its rounds. -/
theorem controlBytes_pour (data : Bytes) (s : Session) :
    (s.pour data).2.controlBytes = s.controlBytes := by
  have hpours := pour_poursBy data s
  generalize s.pour data = result at hpours ⊢
  induction hpours with
  | done h => rfl
  | complete hsome hdata hf hrest ih => exact ih
  | stalled hsome hdata hf => rfl
  | failed hsome hdata hf => rfl

theorem controlBytes_write (data : Bytes) (s : Session) :
    (s.write data).2.controlBytes = s.controlBytes := by
  have hgoes := write_goes data s
  generalize s.write data = w at hgoes ⊢
  cases hgoes with
  | reported e h => rfl
  | nothing h hdata => rfl
  | unstarted h hdata hs => exact controlBytes_start s
  | unsent h hdata hf => exact controlBytes_start s
  | stalled h hdata hf => exact controlBytes_start s
  | poured h hdata hf => exact (controlBytes_pour data _).trans (controlBytes_start s)

/-- Only a read counts. -/
theorem controlBytes_perform {call : Call} (hcall : ∀ room, call ≠ .read room) (s : Session) :
    (s.perform call).2.controlBytes = s.controlBytes := by
  cases call with
  | read room => exact absurd rfl (hcall room)
  | start => exact controlBytes_start s
  | write data => exact controlBytes_write data s
  | flush => rfl
  | resize window =>
    show (s.resize window).2.controlBytes = s.controlBytes
    unfold resize
    dsimp only
    split
    · exact controlBytes_sendReplies _
    · rfl
  | command c => exact controlBytes_sendReplies _

/-- A read of the transport counts by how much more came in than payload came of it. -/
theorem refill_counts (room : Nat) {s : Session} (hi : s.intake.Drained)
    (hp : s.intake.phase = .flowing) :
    ∃ answer, (s.refill room).2.line.transport.readAnswers =
        s.line.transport.readAnswers ++ [answer] ∧
      (s.refill room).2.controlBytes = s.controlBytes +
        ((bytesOf answer).length - (s.codec.decode (bytesOf answer)).1.payload.length) := by
  have hlimit : s.intake.capacity ≠ 0 := Nat.ne_of_gt hi.capacity_pos
  obtain ⟨answer, hfilled, hread, -⟩ := Intake.fill_filled hi hp hlimit s.line
  have hdeliver (s : Session) : (s.respondAndDeliver room).2.line.transport.readAnswers =
      s.line.transport.readAnswers :=
    congrArg View.answers (respondAndDeliver_gives room s).2
  have habsorb (s : Session) : (s.absorb.respondAndDeliver room).2.controlBytes =
      s.controlBytes +
        (s.intake.buffer.length - (s.codec.decode s.intake.buffer).1.payload.length) :=
    controlBytes_respondAndDeliver room s.absorb
  refine ⟨answer, ?_⟩
  unfold refill
  revert hfilled hread
  generalize s.intake.fill s.intake.capacity s.line = result
  obtain ⟨outcome, intake, line⟩ := result
  intro hfilled hread
  dsimp only at hfilled hread
  cases hfilled with
  | failed f e => exact ⟨hread, by simp [bytesOf]⟩
  | ended =>
    refine ⟨(hdeliver _).trans hread, (habsorb _).trans ?_⟩
    dsimp only
    rw [hi.buffer_eq]
    rfl
  | taken data h => exact ⟨(hdeliver _).trans hread, habsorb _⟩

/-- A read leaves the count alone, or reads the transport. -/
theorem read_counts (room : Nat) {s : Session} (hi : s.intake.Drained) :
    ((s.read room).2.line.transport.readAnswers = s.line.transport.readAnswers ∧
        (s.read room).2.controlBytes = s.controlBytes) ∨
      s.intake.phase = .flowing ∧ ∃ answer, (s.read room).2.line.transport.readAnswers =
          s.line.transport.readAnswers ++ [answer] ∧
        (s.read room).2.controlBytes = s.controlBytes +
          ((bytesOf answer).length - (s.codec.decode (bytesOf answer)).1.payload.length) := by
  obtain ⟨hintake, -, hanswers, hreader, -⟩ := View.sameInput_start s.view
  rw [← view_start] at hintake hanswers hreader
  have hintake : s.start.2.intake = s.intake := hintake
  have hreader : s.start.2.codec.reader = s.codec.reader := hreader
  have hcount := controlBytes_start s
  have hreads := read_readsBy room s
  generalize s.read room = result at hreads ⊢
  cases hreads with
  | nothing hr => exact .inl ⟨rfl, rfl⟩
  | unstarted hr hs => exact .inl ⟨hanswers, hcount⟩
  | carried hr hs hp => exact .inl ⟨hanswers, hcount⟩
  | notice hr hs hp hdue => exact .inl ⟨hanswers, hcount⟩
  | closed hr hs hp hdue => exact .inl ⟨hanswers, hcount⟩
  | refilled hr hs hp hdue =>
    rw [← hintake] at hi
    obtain ⟨hflowing, hpoll⟩ := hi.of_payload_due hdue
    obtain ⟨answer, hread, hrefill⟩ := refill_counts room hi hflowing
    rw [(Codec.decode_congr hreader (bytesOf answer)).1, hcount] at hrefill
    rw [hpoll]
    exact .inr ⟨hintake ▸ hflowing, answer, hread.trans (congrArg (· ++ [answer]) hanswers),
      hrefill⟩

/-- The count of a session: with the payload there was, it comes to the bytes there were and
what single chunks made more. -/
def Counts (role : Role) (s : Session) : Prop :=
  s.controlBytes + (heard role s.line.transport.readAnswers).1.payload.length =
    (s.line.transport.readAnswers.flatMap bytesOf).length +
      ({ role } : Codec).excess (s.line.transport.readAnswers.map bytesOf)

/-- What one more answer to a read adds to the count. -/
theorem Counts.hear {role : Role} {s s' : Session} (h : s.Counts role)
    {answer : Except Fault Bytes}
    (hanswers : s'.line.transport.readAnswers = s.line.transport.readAnswers ++ [answer])
    (hcount : s'.controlBytes = s.controlBytes + ((bytesOf answer).length -
      ((heard role s.line.transport.readAnswers).2.decode (bytesOf answer)).1.payload.length)) :
    s'.Counts role := by
  have hexcess := Codec.excess_concat (s.line.transport.readAnswers.map bytesOf) (bytesOf answer)
    { role }
  rw [← List.flatMap_def] at hexcess
  unfold Counts at h ⊢
  rw [hcount, hanswers, heard_append, List.map_append, List.flatMap_append, List.map_singleton,
    hexcess, Decoded.payload_append, List.length_append, List.length_append,
    List.flatMap_singleton]
  unfold heard at h ⊢
  omega

/-- **Every call keeps the count.** -/
theorem counts_perform {role : Role} {given : Bytes} (call : Call) {s : Session}
    (ha : Account role given s.view) (h : s.Counts role) : (s.perform call).2.Counts role := by
  have hsame {s' : Session}
      (hanswers : s'.line.transport.readAnswers = s.line.transport.readAnswers)
      (hcount : s'.controlBytes = s.controlBytes) : s'.Counts role := by
    rw [Counts, hanswers, hcount]
    exact h
  by_cases hcall : ∃ room, call = .read room
  · obtain ⟨room, rfl⟩ := hcall
    rcases read_counts room ha.drained with ⟨hanswers, hcount⟩ | ⟨hp, answer, hanswers, hcount⟩
    · exact hsame hanswers hcount
    · have hdecoded := (Codec.decode_congr (ha.flowing hp).2 (bytesOf answer)).1
      exact h.hear hanswers (hdecoded ▸ hcount)
  · have hread : ∀ room, call ≠ .read room := fun room he => hcall ⟨room, he⟩
    exact hsame (sameInput_perform hread s).1.answers_eq (controlBytes_perform hread s)

theorem counts_run {role : Role} {given : Bytes} (calls : List Call) {s : Session}
    (ha : Account role given s.view) (h : s.Counts role) : (s.run calls).2.Counts role := by
  induction calls generalizing s given with
  | nil => exact h
  | cons call rest ih => exact ih (account_perform call ha) (counts_perform call ha h)

/-- The count of a session from its beginning, in terms of the stream. -/
theorem controlBytes_add_payload (role : Role) (terminal : Terminal) (size timeout : Nat)
    (t : Transport) (calls : List Call) :
    let s := ((fresh role terminal size timeout t).run calls).2
    s.controlBytes + (({ role } : Codec).decode s.line.transport.delivered).1.payload.length =
      s.line.transport.delivered.length +
        ({ role } : Codec).excess (s.line.transport.readAnswers.map bytesOf) := by
  intro s
  have hfirst : Counts role (fresh role terminal size timeout t) := rfl
  rw [Transport.delivered_eq]
  exact counts_run calls (.fresh role terminal size timeout t) hfirst

/-- **What a session counts as control bytes.**  This is so of every session from its beginning,
after any calls in any order, and for all that a transport may answer.  The stream reads as
some items and the beginning of one more.

* With the fillers that were made up, the count is the framing of the stream, the return that
  is held back and what single chunks made more than they have.
* So it is the framing exactly if the last two come to as much as the fillers that were made
  up.  That is so if no return outside binary mode is among the data.
* Another session of the role that got the same stream counts the same exactly if its chunks
  made as much more. -/
theorem control_bytes_of_run (role : Role) (terminal : Terminal) (size timeout : Nat)
    (t : Transport) (calls : List Call) :
    let s := ((fresh role terminal size timeout t).run calls).2
    let c : Codec := { role }
    let excess := c.excess (s.line.transport.readAnswers.map bytesOf)
    ∃ items rest, Reads s.line.transport.delivered items rest ∧
      (let held := (Return.held (c.data items)).toNat
      let madeUp := Return.followed Code.cr (c.data items)
      s.controlBytes + madeUp = c.framing items rest + held + excess ∧
        (s.controlBytes = c.framing items rest ↔ held + excess = madeUp) ∧
        ((false, Code.cr) ∉ c.data items → s.controlBytes = c.framing items rest)) ∧
      ∀ terminal' size' timeout' t' calls',
        let s' := ((fresh role terminal' size' timeout' t').run calls').2
        s'.line.transport.delivered = s.line.transport.delivered →
          (s'.controlBytes = s.controlBytes ↔
            c.excess (s'.line.transport.readAnswers.map bytesOf) = excess) := by
  intro s c excess
  have hcount : s.controlBytes + (c.decode s.line.transport.delivered).1.payload.length =
      s.line.transport.delivered.length + excess :=
    controlBytes_add_payload role terminal size timeout t calls
  obtain ⟨items, rest, hreads⟩ := exists_reads s.line.transport.delivered
  have hpayload : (c.decode s.line.transport.delivered).1.payload.length +
      c.framing items rest + (Return.held (c.data items)).toNat =
        s.line.transport.delivered.length + Return.followed Code.cr (c.data items) :=
    Codec.length_payload hreads role
  refine ⟨items, rest, hreads, ⟨by omega, by omega, fun hcr => ?_⟩, ?_⟩
  · have hplain := Codec.plain_of_reads hreads role hcr
    have hexcess : excess = 0 := by
      rw [Transport.delivered_eq, List.flatMap_def] at hplain
      exact hplain.excess_eq_zero
    have hheld : Return.held (c.data items) = false := Return.held_eq_false hcr
    have hmade : Return.followed Code.cr (c.data items) = 0 := Return.followed_eq_zero hcr _
    rw [hheld, hmade] at hpayload
    simp only [Bool.toNat_false] at hpayload
    omega
  · intro terminal' size' timeout' t' calls' s' hsame
    have hother : s'.controlBytes + (c.decode s'.line.transport.delivered).1.payload.length =
        s'.line.transport.delivered.length +
          c.excess (s'.line.transport.readAnswers.map bytesOf) :=
      controlBytes_add_payload role terminal' size' timeout' t' calls'
    rw [hsame] at hother
    omega

/-- A line with its end, at once and in two chunks.  All of it is payload, but a return that
is held back over a read stays counted. -/
theorem control_bytes_divided :
    let whole := ((fresh .client {} 16 0 { incoming := [.ok [97, 13, 10]] }).run [.read 16]).2
    let divided :=
      ((fresh .client {} 16 0 { incoming := [.ok [97, 13], .ok [10]] }).run
        [.read 16, .read 16]).2
    whole.line.transport.delivered = divided.line.transport.delivered ∧
      whole.controlBytes = 0 ∧ divided.controlBytes = 1 := by
  decide +kernel

end Session
end Telnet
end RemoteTerminal
