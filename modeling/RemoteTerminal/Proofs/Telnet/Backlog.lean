/-
# How much of a session's output can be pending

The outbox of a session has a capacity, and a write keeps to it: it begins with an empty
queue and frames no more than there is room for (`pending_write_le`).  What the codec has to
say is queued whatever room there is.  So the capacity bounds what is pending of a caller's
bytes, and what was said since the last of them comes on top (`Ledger.sinceText`).

That has no bound: a peer that asks and does not listen makes it grow with every demand.
`backlog` says both.
-/

import RemoteTerminal.Proofs.Connection.Service
import RemoteTerminal.Proofs.Stream.OutputQueue
import RemoteTerminal.Proofs.Telnet.Flood
import RemoteTerminal.Proofs.Telnet.OutputStream

namespace RemoteTerminal

namespace Outbox

/-- A flush that completes leaves nothing pending, by induction on its raw writes. -/
theorem pending_flush_of_complete {o : Outbox} {l : Line}
    (h : (o.flush l).1 = .ok .complete) : (o.flush l).2.1.pending = [] := by
  have hflushes := flush_flushesBy o l
  generalize o.flush l = result at h hflushes ⊢
  induction hflushes with
  | complete hp => exact hp
  | took hp hcount hw hmore ih => exact ih h
  | interrupted hw hi hmore ih => exact ih h
  | stalled hp hw => cases h
  | refused hp hw => cases h
  | failed hp hw hi hb => cases h

end Outbox

namespace Telnet

/-! ### What a call makes pending -/

namespace Session

theorem capacity_flush (s : Session) : s.flush.2.outbox.capacity = s.outbox.capacity :=
  (Outbox.flush_conserves s.outbox s.line).capacity_eq

theorem capacity_sendReplies (s : Session) :
    s.sendReplies.2.outbox.capacity = s.outbox.capacity := by
  unfold sendReplies
  dsimp only
  split
  · rfl
  · exact (Outbox.flushRetry_conserves ..).capacity_eq

theorem capacity_start (s : Session) : s.start.2.outbox.capacity = s.outbox.capacity := by
  unfold start
  split
  · rfl
  · exact capacity_sendReplies _

theorem capacity_respondAndDeliver (room : Nat) (s : Session) :
    (s.respondAndDeliver room).2.outbox.capacity = s.outbox.capacity := by
  have hsend := capacity_sendReplies s
  have hresponds := respondAndDeliver_respondsBy room s
  generalize s.respondAndDeliver room = result at hresponds ⊢
  cases hresponds with
  | silent h => rfl
  | said h hs => exact hsend
  | unsent h hs hp => exact hsend
  | passedOver h hs hp => exact hsend

theorem capacity_refill (room : Nat) (s : Session) :
    (s.refill room).2.outbox.capacity = s.outbox.capacity := by
  have hrefills := refill_refillsBy room s
  generalize s.refill room = result at hrefills ⊢
  cases hrefills with
  | failed hf => rfl
  | absorbed hf => exact capacity_respondAndDeliver room _

theorem capacity_read (room : Nat) (s : Session) :
    (s.read room).2.outbox.capacity = s.outbox.capacity := by
  have hstart := capacity_start s
  have hreads := read_readsBy room s
  generalize s.read room = result at hreads ⊢
  cases hreads with
  | nothing hr => rfl
  | unstarted hr hs => exact hstart
  | carried hr hs hp => exact hstart
  | notice hr hs hp hdue => exact hstart
  | closed hr hs hp hdue => exact hstart
  | refilled hr hs hp hdue => exact (capacity_refill room _).trans hstart

/-- What is pending keeps to the capacity. -/
def Fits (capacity : Nat) (s : Session) : Prop :=
  s.outbox.capacity = capacity ∧ s.outbox.pending.length ≤ capacity

/-- What is framed fits into the room there is, and sending leaves more of it. -/
theorem Fits.flush_framed {capacity : Nat} {s : Session} (h : s.Fits capacity) (data : Bytes) :
    (s.framed data).flush.2.Fits capacity := by
  obtain ⟨rfl, hle⟩ := h
  have hfits := (fillsLimit_taken data s).fits
  rw [framed_eq]
  refine ⟨(Outbox.flush_conserves ..).capacity_eq, ?_⟩
  have hqueued := Outbox.pending_flush_extend_le (l := s.line) hle
    (encode s.codec.flags.binaryMode (data.take (s.taken data)))
  rwa [Nat.min_eq_right hfits, List.take_length] at hqueued

/-- The loop of `write` keeps to the capacity; by induction on its rounds. -/
theorem Fits.pour {capacity : Nat} (data : Bytes) {s : Session} (h : s.Fits capacity) :
    (s.pour data).2.Fits capacity := by
  have hpours := pour_poursBy data s
  generalize s.pour data = result at hpours ⊢
  induction hpours with
  | done hnone => exact h
  | complete hsome hdata hf hrest ih => exact ih (h.flush_framed _)
  | stalled hsome hdata hf => exact h.flush_framed _
  | failed hsome hdata hf => exact h.flush_framed _

/-- A write that answers for bytes began with an empty queue, so what is pending then keeps
to the capacity. -/
theorem write_keeps (data : Bytes) (s : Session) :
    (s.write data).2.outbox.capacity = s.outbox.capacity ∧
      (data ≠ [] → ∀ count, (s.write data).1 = .ok count →
        (s.write data).2.outbox.pending.length ≤ s.outbox.capacity) := by
  have hstart := capacity_start s
  have hflush := (capacity_flush s.start.2).trans hstart
  have hgoes := write_goes data s
  generalize s.write data = result at hgoes ⊢
  cases hgoes with
  | reported e h => exact ⟨rfl, fun _ _ => nofun⟩
  | nothing h hdata => exact ⟨rfl, fun hsome => absurd hdata hsome⟩
  | unstarted h hdata hs => exact ⟨hstart, fun _ _ => nofun⟩
  | unsent h hdata hf => exact ⟨hflush, fun _ _ => nofun⟩
  | stalled h hdata hf => exact ⟨hflush, fun _ _ => nofun⟩
  | poured h hdata hf =>
    have hnone : s.start.2.flush.2.outbox.pending = [] := Outbox.pending_flush_of_complete hf
    have hempty : s.start.2.flush.2.Fits s.outbox.capacity :=
      ⟨hflush, by rw [hnone]; exact Nat.zero_le _⟩
    obtain ⟨hcapacity, hle⟩ := hempty.pour data
    exact ⟨hcapacity, fun _ _ _ => hle⟩

theorem capacity_perform (call : Call) (s : Session) :
    (s.perform call).2.outbox.capacity = s.outbox.capacity := by
  cases call with
  | start => exact capacity_start s
  | read room => exact capacity_read room s
  | write data => exact (write_keeps data s).1
  | flush => exact capacity_flush s
  | resize window =>
    show (s.resize window).2.outbox.capacity = s.outbox.capacity
    unfold resize
    dsimp only
    split
    · exact capacity_sendReplies _
    · rfl
  | command c => exact capacity_sendReplies _

theorem perform_serves (call : Call) (s : Session) : s.line.Serves (s.perform call).2.line := by
  cases call with
  | start => exact start_serves s
  | read room => exact read_serves room s
  | write data => exact write_serves data s
  | flush => exact flush_serves s
  | resize window => exact resize_serves window s
  | command c => exact sendCommand_serves c s

end Session

/-! ### What was said since the last text -/

/-- What the codec had to say since the last text, after one more stretch. -/
def Stretch.since (said : Bytes) : Stretch → Bytes
  | .said bytes => said ++ bytes
  | .framed .. => []

namespace Ledger

/-- What the codec had to say since the last text. -/
def sinceText (l : Ledger) : Bytes := l.stretches.foldl Stretch.since []

/-- Nothing was entered but what the codec had to say. -/
def Says (l l' : Ledger) : Prop :=
  ∃ bytes, l'.output = l.output ++ bytes ∧ l'.sinceText = l.sinceText ++ bytes

namespace Says

variable {l l' l'' : Ledger}

theorem of_stretches_eq (h : l'.stretches = l.stretches) : Says l l' :=
  ⟨[], by simp [output, h], by simp [sinceText, h]⟩

theorem trans (h : Says l l') (h' : Says l' l'') : Says l l'' := by
  obtain ⟨bytes, hout, hsince⟩ := h
  obtain ⟨more, hout', hsince'⟩ := h'
  refine ⟨bytes ++ more, ?_, ?_⟩
  · rw [hout', hout, List.append_assoc]
  · rw [hsince', hsince, List.append_assoc]

theorem collect (l : Ledger) : Says l l.collect := by
  refine ⟨l.codec.takeReplies.1, ?_, ?_⟩
  · simp [Ledger.collect, output, Stretch.bytes]
  · simp [Ledger.collect, sinceText, Stretch.since]

theorem start (l : Ledger) : Says l l.start := by
  unfold Ledger.start
  split
  · exact of_stretches_eq rfl
  · exact collect { l with codec := l.codec.start.2, begun := true }

theorem hear (l : Ledger) (answer : Except Fault Bytes) : Says l (l.hear answer) := by
  match answer with
  | .error f => exact of_stretches_eq rfl
  | .ok [] => exact of_stretches_eq rfl
  | .ok (byte :: rest) => exact collect { l with codec := (l.codec.decode (byte :: rest)).2 }

theorem hear_all (answers : List (Except Fault Bytes)) (l : Ledger) :
    Says l (answers.foldl Ledger.hear l) := by
  induction answers generalizing l with
  | nil => exact of_stretches_eq rfl
  | cons answer rest ih => exact (hear l answer).trans (ih _)

end Says

/-- By induction on the stretches, for any end of what came before them. -/
theorem foldl_since_suffix (stretches : List Stretch) {said front : Bytes} (h : said <:+ front) :
    stretches.foldl Stretch.since said <:+ front ++ stretches.flatMap Stretch.bytes := by
  induction stretches generalizing said front with
  | nil => simpa using h
  | cons stretch rest ih =>
    rw [List.foldl_cons, List.flatMap_cons, ← List.append_assoc]
    cases stretch with
    | said bytes =>
      obtain ⟨before, rfl⟩ := h
      exact ih ⟨before, by simp [Stretch.since, Stretch.bytes]⟩
    | framed binary data => exact ih (List.nil_suffix ..)

/-- What was said since the last text is the end of the output. -/
theorem sinceText_suffix (l : Ledger) : l.sinceText <:+ l.output :=
  foldl_since_suffix l.stretches List.suffix_rfl

/-- What is entered for a call is what the codec had to say, unless it is a write that
answers for bytes. -/
theorem says_enter (l : Ledger) (e : Entry) :
    Says l (l.enter e) ∨
      ∃ data count, e.call = .write data ∧ data ≠ [] ∧ e.outcome = .count (.ok count) := by
  unfold enter
  split
  · exact .inl (.start l)
  · split
    · exact .inl (.of_stretches_eq rfl)
    · exact .inl ((Says.start l).trans (.hear_all _ _))
  · rename_i data hcall
    split
    · exact .inl (.of_stretches_eq rfl)
    · rename_i hdata
      split
      · rename_i count hcount
        exact .inr ⟨data, count, hcall, hdata, hcount⟩
      · exact .inl (.start l)
  · exact .inl (.of_stretches_eq rfl)
  · rename_i window _
    exact .inl (.collect { l with codec := (l.codec.setWindow window).2.2 })
  · rename_i c _
    exact .inl (.collect { l with codec := (l.codec.sayCommand c).2 })

end Ledger
namespace Session

open View (Settled Matches)

/-- What is pending of the texts keeps to the capacity; what was said since comes on top. -/
def Owes (l : Ledger) (s : Session) : Prop :=
  s.outbox.pending.length ≤ s.outbox.capacity + l.sinceText.length

/-- **Every call keeps to it**: what it sends is pending no longer, what the codec says in it
is counted, and a write begins again. -/
theorem owes_perform (call : Call) {s : Session} {l : Ledger} (hm : Matches l s.view)
    (hs : Settled s.view) (h : s.Owes l) : (s.perform call).2.Owes (l.enter (s.entry call)) := by
  obtain ⟨-, hm'⟩ := matches_perform call hm hs
  rw [Owes, capacity_perform]
  rcases l.says_enter (s.entry call) with ⟨bytes, hout, hsince⟩ | ⟨data, count, hcall, hdata, hok⟩
  · have hgrown := (perform_serves call s).accepted_grows.length_le
    have hbefore : s.line.transport.accepted.length + s.outbox.pending.length =
        l.output.length := by
      rw [hm.output_eq, ← List.length_append]
      rfl
    have hafter : (s.perform call).2.line.transport.accepted.length +
        (s.perform call).2.outbox.pending.length = l.output.length + bytes.length := by
      have hlength := congrArg List.length hout
      rw [List.length_append, hm'.output_eq] at hlength
      rw [← hlength, ← List.length_append]
      rfl
    rw [hsince, List.length_append]
    unfold Owes at h
    omega
  · obtain rfl : call = .write data := hcall
    exact Nat.le_trans ((write_keeps data s).2 hdata count (Outcome.count.inj hok))
      (Nat.le_add_right ..)

theorem owes_run (calls : List Call) {s : Session} {l : Ledger} (hm : Matches l s.view)
    (hs : Settled s.view) (h : s.Owes l) :
    (s.run calls).2.Owes ((entries calls s).foldl Ledger.enter l) ∧
      (s.run calls).2.outbox.capacity = s.outbox.capacity := by
  induction calls generalizing s l with
  | nil => exact ⟨h, rfl⟩
  | cons call rest ih =>
    obtain ⟨hsettled, hmatches⟩ := matches_perform call hm hs
    obtain ⟨howes, hcapacity⟩ := ih hmatches hsettled (owes_perform call hm hs h)
    exact ⟨howes, hcapacity.trans (capacity_perform call s)⟩

/-- **How much can be pending.**  This is so of every session from its beginning.

* Over all calls in any order, and for all that a transport may answer, what is pending is
  at most the capacity and what the codec had to say since the last text, which is the end
  of the output.
* No number bounds it: there are a transport and calls that read, and do nothing else,
  after which more is pending. -/
theorem backlog (role : Role) (terminal : Terminal) (size timeout : Nat) :
    (∀ t calls,
      let first := fresh role terminal size timeout t
      let s := (first.run calls).2
      let ledger := (entries calls first).foldl Ledger.enter { codec := { role, terminal } }
      ledger.sinceText <:+ s.line.transport.accepted ++ s.outbox.pending ∧
        s.outbox.pending.length ≤ Capacity.granted size + ledger.sinceText.length) ∧
    (∀ bound, ∃ t calls, (∀ call ∈ calls, call = .start ∨ call = .read 1) ∧
      bound < ((fresh role terminal size timeout t).run calls).2.outbox.pending.length) := by
  constructor
  · intro t calls first s ledger
    have hfirst : Matches { codec := { role, terminal } } first.view := ⟨rfl, rfl, rfl⟩
    have hsettled : Settled first.view := .fresh role terminal size timeout t
    obtain ⟨-, hmatches⟩ := matches_run calls hfirst hsettled
    obtain ⟨howes, hcapacity⟩ := owes_run calls hfirst hsettled (Nat.zero_le _)
    constructor
    · have hsuffix := ledger.sinceText_suffix
      rwa [hmatches.output_eq] at hsuffix
    · rw [Owes, hcapacity] at howes
      exact howes
  · intro bound
    obtain ⟨hstuffed, hstate, hin⟩ := stuffed_start role terminal size timeout (bound + 1)
    have hgrown := hstuffed.pending_grows (bound + 1) hstate hin
    refine ⟨flood (bound + 1) timeout,
      .start :: (List.replicate (bound + 1) threeReads).flatten, fun call hcall => ?_, ?_⟩
    · rcases List.mem_cons.1 hcall with rfl | hcall
      · exact .inl rfl
      · obtain ⟨reads, hreads, hcall⟩ := List.mem_flatten.1 hcall
        rw [List.eq_of_mem_replicate hreads] at hcall
        exact .inr (by simpa [threeReads] using hcall)
    · show bound < (((fresh role terminal size timeout (flood (bound + 1) timeout)).start.2.run
        (List.replicate (bound + 1) threeReads).flatten)).2.outbox.pending.length
      omega

/-- A client has asked for its options, and is asked twice for one that it does not have by
a server that takes no more.  The buffers were made for four bytes; six are pending. -/
theorem backlog_of_six :
    let first := fresh .client {} 4 0
      { incoming := [.ok [0xFF, 0xFD, 0x63], .ok [0xFF, 0xFD, 0x63]]
        outgoing := [.accept 21, .fail .wouldBlock 0, .fail .wouldBlock 0] }
    let s := (first.run [.start, .read 16, .read 16]).2
    Capacity.granted 4 = 4 ∧ s.outbox.pending.length = 6 := by
  decide +kernel

end Session
end Telnet
end RemoteTerminal
