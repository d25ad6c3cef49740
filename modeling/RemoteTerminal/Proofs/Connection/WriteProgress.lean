/-
# Writes make progress

A write of some data comes to an end, and to something: it fails, or it answers for one
byte at least (`Proceeds`).

* It ends since every raw write moves a byte that is owed, is put off by the transport, or is
  the last of its stage.  What is owed is bounded before the write begins.
* It takes a byte since pouring begins with an empty queue, and the smallest capacity holds
  the longest unit.  Every call keeps the capacity (`capacity_perform`), so this is so in
  every state of a session and not in the first only.
* It takes no more than some of the data only if the transport has stopped it.

`writes_progress` says so of all the writes there are: of an outbox, and of the sessions of
the three protocols after any calls.
-/

import RemoteTerminal.Proofs.Rlogin.OutputStream
import RemoteTerminal.Proofs.Telnet.RawWrites

namespace RemoteTerminal

/-- What a write of `data` comes to that began over the line `l`. -/
structure Proceeds (data : Bytes) (bound : Nat) (l : Line) (result : Except TransportError Nat)
    (pending : Bytes) (l' : Line) : Prop where
  /-- It ends.  Of its raw writes there are no more than `bound` and one for each answer left
  by which the transport puts a write off, however many other answers there are. -/
  ends : ∃ calls, l'.transport.history = l.transport.history ++ calls ∧
    (∀ e ∈ calls, e.isWrite = true) ∧
    calls.length ≤ bound + l.transport.outgoing.countP WriteAnswer.isPutOff
  /-- If it does not fail it answers for some of the data, or all. -/
  counts : ∀ count, result = .ok count → 1 ≤ count ∧ count ≤ data.length
  /-- If it does not answer for all, the last of its raw writes offered what is pending now,
  and the transport stalled or failed. -/
  short : ∀ count, result = .ok count → count < data.length → pending ≠ [] ∧
    ∃ calls answer f,
      l'.transport.history = l.transport.history ++ calls ++ [.write pending answer] ∧
      (Exchange.write pending answer).fault? = some f ∧ f.isInterrupted = false

/-- A write that keeps to what it can come to proceeds, if what it sends is `owed` bytes at
most. -/
theorem Attempt.proceeds {data pending : Bytes} {stops owed : Nat}
    {result : Except TransportError Nat} {calls : List Exchange} {l l' : Line}
    (h : Attempt data stops pending result calls) (ho : l.Offers calls l')
    (howed : l'.transport.accepted.length ≤ l.transport.accepted.length + owed) :
    Proceeds data (owed + (stops + 1)) l result pending l' := by
  refine ⟨⟨calls, ho.history_eq, h.rounds.writes, ho.length_le h.rounds howed⟩, ?_, ?_⟩
  · rintro count rfl
    exact h.count_bounds
  · rintro count rfl hcount
    obtain ⟨hpending, front, answer, f, rfl, hf⟩ := h.exists_stop hcount
    exact ⟨hpending, front, answer, f, by rw [ho.history_eq, List.append_assoc], hf⟩

namespace Outbox

variable {o o' : Outbox} {l l' : Line} {more : Bytes}

/-- What the transport has taken is what was owed before and what was queued since, at most. -/
theorem accepted_length_le (h : o'.output l' = o.output l ++ more) :
    l'.transport.accepted.length ≤
      l.transport.accepted.length + (o.pending.length + more.length) := by
  have hlength := congrArg List.length h
  simp only [output, List.length_append] at hlength
  omega

theorem counted_length_le {ε : Type} (data : Bytes) (result : Except ε Nat) :
    (counted data result).length ≤ data.length := by
  cases result with
  | error e => exact Nat.zero_le _
  | ok count => exact List.length_take_le' ..

/-- A write of an outbox with room for a byte proceeds. -/
theorem write_proceeds {data : Bytes} (o : Outbox) (l : Line) (hcapacity : 0 < o.capacity)
    (hdata : data ≠ []) :
    Proceeds data (o.pending.length + data.length + 1) l (o.write data l).1
      (o.write data l).2.1.pending (o.write data l).2.2 := by
  obtain ⟨calls, hoffers, hattempt⟩ := write_attempt l hcapacity hdata
  refine hattempt.proceeds hoffers ?_
  have houtput := (write_conserves data o l).output_eq
  rw [output_extend] at houtput
  have hle := accepted_length_le houtput
  have := counted_length_le data (o.write data l).1
  omega

end Outbox

/-! ### Raw -/

namespace Raw.Session

theorem capacity_perform (call : Call) (s : Session) :
    (s.perform call).2.outbox.capacity = s.outbox.capacity := by
  cases call with
  | read room => rfl
  | write data => exact (Outbox.write_conserves data s.outbox s.line).capacity_eq
  | flush => exact (Outbox.flush_conserves s.outbox s.line).capacity_eq

theorem capacity_run (calls : List Call) (s : Session) :
    (s.run calls).2.outbox.capacity = s.outbox.capacity := by
  induction calls generalizing s with
  | nil => rfl
  | cons call rest ih => exact (ih _).trans (capacity_perform call s)

end Raw.Session

/-! ### Rlogin -/

namespace Rlogin

/-- A start adds the login frame to the output, or nothing. -/
theorem View.exists_output_start (v : View) :
    ∃ more, v.start.output = v.output ++ more ∧ more.length ≤ v.login.frame.length := by
  unfold start
  split
  · exact ⟨[], (List.append_nil _).symm, Nat.zero_le _⟩
  · exact ⟨v.login.frame, rfl, Nat.le_refl _⟩

namespace Session

theorem capacity_push (bytes : Bytes) (s : Session) :
    (s.push bytes).2.outbox.capacity = s.outbox.capacity :=
  (Outbox.flushRetry_conserves s.timeout (s.outbox.extend bytes) s.line).capacity_eq

theorem capacity_start (s : Session) : s.start.2.outbox.capacity = s.outbox.capacity := by
  unfold start
  split
  · rfl
  · exact capacity_push _ _

theorem capacity_read (room : Nat) (s : Session) :
    (s.read room).2.outbox.capacity = s.outbox.capacity := by
  have hreads := read_readsBy room s
  generalize s.read room = result at hreads ⊢
  cases hreads with
  | unstarted hs => exact capacity_start s
  | started hs => exact capacity_start s

theorem capacity_sendWindow (s : Session) :
    s.sendWindow.2.outbox.capacity = s.outbox.capacity :=
  capacity_push _ _

theorem capacity_applyModes (byte : UInt8) (s : Session) :
    (s.applyModes byte).outbox.capacity = s.outbox.capacity := by
  unfold applyModes
  dsimp only
  split <;> split <;> split <;> split <;> rfl

theorem capacity_handleControl (byte : UInt8) (s : Session) :
    (s.handleControl byte).2.outbox.capacity = s.outbox.capacity := by
  have hsent : s.asked.sendWindow.2.outbox.capacity = s.outbox.capacity :=
    capacity_sendWindow s.asked
  have hheeds := handleControl_heedsBy byte s
  generalize s.handleControl byte = result at hheeds ⊢
  cases hheeds with
  | unreported hwindow hs => exact hsent
  | reported hwindow hs => exact (capacity_applyModes byte s.asked.sendWindow.2).trans hsent
  | unasked hwindow => exact capacity_applyModes byte s

theorem capacity_readUrgent (s : Session) :
    s.readUrgent.2.outbox.capacity = s.outbox.capacity := by
  have htakes := readUrgent_takesBy s
  generalize s.readUrgent = result at htakes ⊢
  cases htakes with
  | heeded hb hc => exact capacity_handleControl _ s.polled
  | unheeded hb hc => exact capacity_handleControl _ s.polled
  | nothing hb => rfl
  | failed hb => rfl

theorem capacity_write (data : Bytes) (s : Session) :
    (s.write data).2.outbox.capacity = s.outbox.capacity := by
  have hwrites := write_writesBy data s
  generalize s.write data = result at hwrites ⊢
  cases hwrites with
  | unstarted hs => exact capacity_start s
  | started hs => exact (Outbox.write_conserves ..).capacity_eq.trans (capacity_start s)

theorem capacity_perform (call : Call) (s : Session) :
    (s.perform call).2.outbox.capacity = s.outbox.capacity := by
  cases call with
  | start => exact capacity_start s
  | read room => exact capacity_read room s
  | readUrgent => exact capacity_readUrgent s
  | write data => exact capacity_write data s
  | flush => exact (Outbox.flush_conserves s.outbox s.line).capacity_eq
  | resize lines columns =>
    show (s.resize lines columns).2.outbox.capacity = s.outbox.capacity
    unfold resize
    dsimp only
    split
    · exact capacity_sendWindow _
    · rfl

theorem capacity_run (calls : List Call) (s : Session) :
    (s.run calls).2.outbox.capacity = s.outbox.capacity := by
  induction calls generalizing s with
  | nil => rfl
  | cons call rest ih => exact (ih _).trans (capacity_perform call s)

theorem start_persists (s : Session) :
    ∃ calls, s.line.Offers calls s.start.2.line ∧ Persists s.start.1 calls := by
  unfold start
  split
  · exact ⟨[], .refl _, .ok () (.nil 1)⟩
  · obtain ⟨calls, hoffers, hpersists⟩ := Outbox.flushRetry_persists s.timeout
      (s.outbox.extend s.login.frame) (s.line.note (.debug "Sending rlogin login"))
    exact ⟨calls, ⟨hoffers.history_eq, hoffers.outgoing_eq, hoffers.putOff_eq⟩, hpersists.map _⟩

/-- **What an rlogin write comes to.** -/
theorem write_attempt {data : Bytes} {s : Session} (hcapacity : 0 < s.outbox.capacity)
    (hdata : data ≠ []) :
    ∃ calls, s.line.Offers calls (s.write data).2.line ∧
      Attempt data 1 (s.write data).2.outbox.pending (s.write data).1 calls := by
  obtain ⟨calls, hoffers, hpersists⟩ := start_persists s
  have hkept := capacity_start s
  have hwrites := write_writesBy data s
  generalize s.write data = result at hwrites ⊢
  cases hwrites with
  | unstarted hs =>
    rw [hs] at hpersists
    obtain ⟨f, rfl, hstruck⟩ := hpersists.struck _ rfl
    exact ⟨calls, hoffers, .failed (hpersists.rounds.mono (Nat.le_succ 1)) hstruck⟩
  | started hs =>
    rw [hs] at hpersists
    obtain ⟨calls', hoffers', hattempt⟩ :=
      Outbox.write_attempt s.start.2.line (hkept.symm ▸ hcapacity) hdata
    exact ⟨_, hoffers.trans hoffers', hattempt.append_left hpersists.rounds⟩

/-- A write adds the login frame and the data to the output, at most. -/
theorem exists_output_write (data : Bytes) (s : Session) :
    ∃ more, (s.write data).2.outbox.output (s.write data).2.line = s.outbox.output s.line ++ more ∧
      more.length ≤ s.login.frame.length + data.length := by
  obtain ⟨more, hmore, hlogin⟩ := s.view.exists_output_start
  have hcounted := Outbox.counted_length_le data (s.write data).1
  refine ⟨more ++ Outbox.counted data (s.write data).1, ?_, ?_⟩
  · calc (s.write data).2.outbox.output (s.write data).2.line
      _ = s.view.start.output ++ Outbox.counted data (s.write data).1 :=
        congrArg View.output (view_write data s)
      _ = s.outbox.output s.line ++ (more ++ Outbox.counted data (s.write data).1) := by
        rw [hmore, List.append_assoc]
        rfl
  · rw [List.length_append]
    exact Nat.add_le_add hlogin hcounted

/-- A write of a session with room for a byte proceeds. -/
theorem write_proceeds {data : Bytes} {s : Session} (hcapacity : 0 < s.outbox.capacity)
    (hdata : data ≠ []) :
    Proceeds data (s.outbox.pending.length + s.login.frame.length + data.length + 2) s.line
      (s.write data).1 (s.write data).2.outbox.pending (s.write data).2.line := by
  obtain ⟨calls, hoffers, hattempt⟩ := write_attempt hcapacity hdata
  obtain ⟨more, hmore, hle⟩ := exists_output_write data s
  refine hattempt.proceeds hoffers ?_
  have := Outbox.accepted_length_le hmore
  omega

end Session
end Rlogin

/-! ### Telnet -/

namespace Telnet

theorem length_encode_le (binary : Bool) (data : Bytes) :
    (encode binary data).length ≤ 2 * data.length := by
  induction data using units_induction binary with
  | nil => exact Nat.zero_le _
  | escape rest ih =>
    rw [encode_escape]
    simp only [List.length_cons]
    omega
  | newline hb rest ih =>
    subst hb
    rw [encode_newline]
    simp only [List.length_cons]
    omega
  | bare hb rest hn ih =>
    subst hb
    rw [encode_bare hn]
    simp only [List.length_cons]
    omega
  | plain byte rest hi hc ih =>
    rw [encode_plain rest hi hc]
    simp only [List.length_cons]
    omega

namespace Codec

/-- What is announced takes three bytes, or none. -/
theorem length_replies_announceAll_le (verbs : List (Verb × TelnetOption)) (c : Codec) :
    (c.announceAll verbs).2.replies.length ≤ c.replies.length + 3 * verbs.length := by
  induction verbs generalizing c with
  | nil => exact Nat.le_refl _
  | cons pair rest ih =>
    obtain ⟨verb, option⟩ := pair
    have hfirst : (c.announce verb option).2.replies.length ≤ c.replies.length + 3 := by
      unfold announce
      split
      · exact Nat.le_add_right ..
      · simp [sayVerb, reply]
    have hrest := ih (c.announce verb option).2
    rw [List.length_cons]
    show (announceAll rest (c.announce verb option).2).2.replies.length ≤ _
    omega

/-- The requests of the beginning take twenty-one bytes at most. -/
theorem length_replies_start_le (c : Codec) :
    c.start.2.replies.length ≤ c.replies.length + 21 := by
  have hseven : (initialRequests c.role).length = 7 := by cases c.role <;> rfl
  have hle := length_replies_announceAll_le (initialRequests c.role) c
  rwa [hseven] at hle

end Codec

/-- A start adds the requests of the beginning to the output, or nothing. -/
theorem View.exists_output_start {v : View} (h : v.codec.replies = []) :
    ∃ more, v.start.output = v.output ++ more ∧ more.length ≤ 21 := by
  unfold start
  split
  · exact ⟨[], (List.append_nil _).symm, Nat.zero_le _⟩
  · have hle := v.codec.length_replies_start_le
    rw [h] at hle
    exact ⟨v.codec.start.2.replies, rfl, by simpa using hle⟩

/-- So does a write, and the framed data at most. -/
theorem View.Writes.exists_output {data : Bytes} {v v' : View} {result : Except TransportError Nat}
    (h : Writes data v result v') (hsilent : v.codec.replies = []) :
    ∃ more, v'.output = v.output ++ more ∧ more.length ≤ 21 + 2 * data.length := by
  obtain ⟨more, hmore, hstart⟩ := exists_output_start hsilent
  cases h with
  | reported e h => exact ⟨[], (List.append_nil _).symm, Nat.zero_le _⟩
  | nothing h hdata => exact ⟨[], (List.append_nil _).symm, Nat.zero_le _⟩
  | unsent h hdata e => exact ⟨more, hmore, Nat.le_add_right_of_le hstart⟩
  | framed h hdata count hcount deferred =>
    refine ⟨more ++ v.start.codec.encode (data.take count), ?_, ?_⟩
    · show v.start.output ++ _ = _
      rw [hmore, List.append_assoc]
    · have hframed := length_encode_le v.start.codec.flags.binaryMode (data.take count)
      rw [List.length_take_of_le hcount] at hframed
      rw [List.length_append, Codec.encode]
      omega

namespace Session

/-- A write of a session with room for the longest unit proceeds. -/
theorem write_proceeds {data : Bytes} {s : Session} (hcapacity : 2 ≤ s.outbox.capacity)
    (h : s.codec.replies = []) (hdata : data ≠ []) :
    Proceeds data (s.outbox.pending.length + 21 + 2 * data.length + 2) s.line
      (s.write data).1 (s.write data).2.outbox.pending (s.write data).2.line := by
  cases hd : s.deferred with
  | some e =>
    have hwrite : (s.write data).1 = .error e := by rw [write, hd]
    have hline : (s.write data).2.line = s.line.log [.debug "Reporting deferred write error"] := by
      rw [write, hd]
      rfl
    rw [hwrite, hline]
    exact ⟨⟨[], (List.append_nil _).symm, nofun, Nat.zero_le _⟩, nofun, nofun⟩
  | none =>
    obtain ⟨calls, hoffers, hattempt⟩ := write_attempt hcapacity hd hdata
    obtain ⟨more, hmore, hle⟩ := (write_writes data s).exists_output h
    refine hattempt.proceeds hoffers ?_
    have := Outbox.accepted_length_le hmore
    omega

end Session
end Telnet

/-! ### All writes -/

/-- **Writes make progress.**  This is so of any data, for all that a transport may answer and
for every size that buffers are made for.

* A write of an outbox proceeds, whatever is pending and over whatever line.
* So do the writes of raw, rlogin and telnet sessions, after any calls in any order. -/
theorem writes_progress {data : Bytes} (hdata : data ≠ []) (size : Nat) :
    (∀ pending l,
      let o : Outbox := { pending, capacity := Capacity.granted size }
      Proceeds data (pending.length + data.length + 1) l (o.write data l).1
        (o.write data l).2.1.pending (o.write data l).2.2) ∧
    (∀ t calls,
      let s := ((Raw.Session.create size t).run calls).2
      Proceeds data (s.outbox.pending.length + data.length + 1) s.line
        (s.write data).1 (s.write data).2.outbox.pending (s.write data).2.line) ∧
    (∀ login timeout t calls,
      let s := ((Rlogin.Session.create login size timeout t).run calls).2
      Proceeds data (s.outbox.pending.length + s.login.frame.length + data.length + 2) s.line
        (s.write data).1 (s.write data).2.outbox.pending (s.write data).2.line) ∧
    (∀ role terminal timeout t calls,
      let s := ((Telnet.Session.fresh role terminal size timeout t).run calls).2
      Proceeds data (s.outbox.pending.length + 21 + 2 * data.length + 2) s.line
        (s.write data).1 (s.write data).2.outbox.pending (s.write data).2.line) := by
  have hleast : 2 ≤ Capacity.granted size := Capacity.least_le_granted size
  have hroom : 0 < Capacity.granted size := Nat.lt_of_lt_of_le (by decide) hleast
  refine ⟨?_, ?_, ?_, ?_⟩
  · intro pending l o
    exact o.write_proceeds l hroom hdata
  · intro t calls s
    have hcapacity : s.outbox.capacity = Capacity.granted size := Raw.Session.capacity_run calls _
    exact s.outbox.write_proceeds s.line (hcapacity ▸ hroom) hdata
  · intro login timeout t calls s
    have hcapacity : s.outbox.capacity = Capacity.granted size :=
      Rlogin.Session.capacity_run calls _
    exact Rlogin.Session.write_proceeds (hcapacity ▸ hroom) hdata
  · intro role terminal timeout t calls s
    have hcapacity : s.outbox.capacity = Capacity.granted size :=
      Telnet.Session.capacity_run calls _
    have hfirst : Telnet.View.Matches { codec := { role, terminal } }
        (Telnet.Session.fresh role terminal size timeout t).view := ⟨rfl, rfl, rfl⟩
    obtain ⟨hsettled, -⟩ :=
      Telnet.Session.matches_run calls hfirst (.fresh role terminal size timeout t)
    exact Telnet.Session.write_proceeds (hcapacity ▸ hleast) hsettled.silent hdata

/-- The buffers are made for nothing at all and the transport takes a byte at a time, is
interrupted and stalls.  Two of three bytes are accepted, and the second of them is pending. -/
theorem writes_progress_narrow :
    let s := Telnet.Session.fresh .client {} 0 0
      { outgoing := [.accept 21, .accept 1, .fail .interrupted 0, .accept 1, .fail .wouldBlock 0] }
    let data : Bytes := [0xFF, 0xFF, 0xFF]
    data ≠ [] ∧ (s.write data).1.toOption = some 2 ∧ (s.write data).2.outbox.pending = [0xFF, 0xFF] ∧
      Proceeds data 29 s.line (s.write data).1 (s.write data).2.outbox.pending
        (s.write data).2.line := by
  intro s data
  have hdata : data ≠ [] := by decide
  refine ⟨hdata, ?_, ?_, ?_⟩
  · decide +kernel
  · decide +kernel
  · exact (writes_progress hdata 0).2.2.2 .client {} 0 _ []

end RemoteTerminal
