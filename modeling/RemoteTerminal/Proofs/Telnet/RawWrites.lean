/-
# The raw writes of a telnet session

A telnet write makes raw writes in three places: to send the requests of the beginning, which
are sent with retries (`start_persists`), to send what was pending (`flush_ends`), and to
send the data that it frames, as much at a time as there is room for (`pour_pours`).
`write_goes` says which of these a write gets to, and `write_attempt` what it comes to.
An error in the last of the three is what the session holds back (`poured_pours`).
-/

import RemoteTerminal.Proofs.Connection.SessionFaults
import RemoteTerminal.Proofs.Stream.RawWrites
import RemoteTerminal.Proofs.Telnet.Backlog
import RemoteTerminal.Proofs.Telnet.Limits

namespace RemoteTerminal
namespace Telnet
namespace Session

theorem capacity_run (calls : List Call) (s : Session) :
    (s.run calls).2.outbox.capacity = s.outbox.capacity := by
  induction calls generalizing s with
  | nil => rfl
  | cons call rest ih => exact (ih _).trans (capacity_perform call s)

/-! ### What the codec has to say -/

theorem sendReplies_persists (s : Session) :
    ∃ calls, s.line.Offers calls s.sendReplies.2.line ∧ Persists s.sendReplies.1 calls := by
  unfold sendReplies
  dsimp only
  split
  · exact ⟨[], .refl _, .ok () (.nil 1)⟩
  · obtain ⟨calls, hoffers, hpersists⟩ :=
      Outbox.flushRetry_persists s.timeout (s.outbox.extend s.codec.takeReplies.1) s.line
    exact ⟨calls, hoffers, hpersists.map _⟩

theorem start_persists (s : Session) :
    ∃ calls, s.line.Offers calls s.start.2.line ∧ Persists s.start.1 calls := by
  unfold start
  split
  · exact ⟨[], .refl _, .ok () (.nil 1)⟩
  · obtain ⟨calls, hoffers, hpersists⟩ := sendReplies_persists
      ({ s with codec := s.codec.start.2, progress := .sentOptions }.log
        (s.codec.start.1 ++ [Note.debug "Sending telnet options"]))
    exact ⟨calls, ⟨hoffers.history_eq, hoffers.outgoing_eq, hoffers.putOff_eq⟩, hpersists⟩

/-! ### A caller's bytes -/

theorem flush_ends (s : Session) :
    ∃ calls, s.line.Offers calls s.flush.2.line ∧ Ends s.flush.2.outbox.pending s.flush.1 calls :=
  Outbox.flush_ends s.outbox s.line

/-- The loop of `write`, by induction on its rounds: a session with room for the
longest unit and nothing pending takes data.  It holds back what ends the loop, if that is
an error. -/
theorem pour_pours (data : Bytes) {s : Session} (hcapacity : 2 ≤ s.outbox.capacity)
    (hp : s.outbox.pending = []) (hd : s.deferred = none) (hdata : data ≠ []) :
    ∃ calls ending, s.line.Offers calls (s.pour data).2.line ∧
      Pours data (s.pour data).1 (s.pour data).2.outbox.pending ending calls ∧
      (s.pour data).2.deferred = errorOf ending := by
  have hpours := pour_poursBy data s
  generalize s.pour data = result at hpours ⊢
  have hpos {data : Bytes} {s : Session} (hcapacity : 2 ≤ s.outbox.capacity)
      (hp : s.outbox.pending = []) (hdata : data ≠ []) : 0 < s.taken data := by
    have hroom : 2 ≤ s.outbox.room := by simpa [Outbox.room, hp] using hcapacity
    exact encodeWithin_pos hroom hdata
  induction hpours with
  | done h =>
    rcases h with hnone | hnone
    · exact absurd hnone (Nat.ne_of_gt (hpos hcapacity hp hdata))
    · exact absurd hnone hdata
  | @complete data s hsome _ hf rest hrest ih =>
    obtain ⟨calls, hoffers, hends⟩ := flush_ends (s.framed data)
    have hle := (fillsLimit_taken data s).le_length
    rw [hf] at hends
    obtain ⟨hgoes, hempty⟩ := hends
    by_cases hmore : data.drop (s.taken data) = []
    · have hall : s.taken data = data.length := Nat.le_antisymm hle (List.drop_eq_nil_iff.1 hmore)
      obtain rfl := (hmore ▸ hrest).eq_of_nil
      exact ⟨calls, .ok .complete, hoffers,
        ⟨.complete hgoes hempty, hpos hcapacity hp hdata, hle, fun _ => hall⟩, hd⟩
    · have hkept : (s.framed data).flush.2.outbox.capacity = s.outbox.capacity :=
        capacity_flush (s.framed data)
      obtain ⟨calls', ending, hoffers', hpours, hdeferred⟩ :=
        ih (hkept ▸ hcapacity) hempty hd hmore
      exact ⟨calls ++ calls', ending, hoffers.trans hoffers', hpours.round hgoes hle, hdeferred⟩
  | @stalled data s hsome _ hf =>
    obtain ⟨calls, hoffers, hends⟩ := flush_ends (s.framed data)
    have hle := (fillsLimit_taken data s).le_length
    rw [hf] at hends
    exact ⟨calls, _, hoffers, .stop hends (hpos hcapacity hp hdata) hle (by simp), hd⟩
  | @failed data s hsome _ e hf =>
    obtain ⟨calls, hoffers, hends⟩ := flush_ends (s.framed data)
    have hle := (fillsLimit_taken data s).le_length
    rw [hf] at hends
    exact ⟨calls, _, hoffers.log _, .stop hends (hpos hcapacity hp hdata) hle (by simp), rfl⟩

/-! ### A write -/

/-- A write that gets to pour the data takes some of it, and holds back the error that it met
then, if it met one. -/
theorem poured_pours {data : Bytes} {s : Session} (hcapacity : 2 ≤ s.outbox.capacity)
    (hd : s.deferred = none) (hdata : data ≠ []) (hf : s.start.2.flush.1 = .ok .complete) :
    ∃ calls ending, s.start.2.flush.2.line.Offers calls (s.start.2.flush.2.pour data).2.line ∧
      Pours data (s.start.2.flush.2.pour data).1 (s.start.2.flush.2.pour data).2.outbox.pending
        ending calls ∧
      (s.start.2.flush.2.pour data).2.deferred = errorOf ending := by
  have hkept : s.start.2.flush.2.outbox.capacity = s.outbox.capacity :=
    (capacity_flush s.start.2).trans (capacity_start s)
  have hheld : s.start.2.flush.2.deferred = none := (deferred_start s).trans hd
  exact pour_pours data (hkept ▸ hcapacity) (Outbox.pending_flush_of_complete hf) hheld hdata

/-- **What a telnet write comes to**, if no error is held back. -/
theorem write_attempt {data : Bytes} {s : Session} (hcapacity : 2 ≤ s.outbox.capacity)
    (hd : s.deferred = none) (hdata : data ≠ []) :
    ∃ calls, s.line.Offers calls (s.write data).2.line ∧
      Attempt data 1 (s.write data).2.outbox.pending (s.write data).1 calls := by
  obtain ⟨calls, hoffers, hpersists⟩ := start_persists s
  obtain ⟨calls', hoffers', hends⟩ := flush_ends s.start.2
  have hgoes := write_goes data s
  generalize s.write data = w at hgoes ⊢
  cases hgoes with
  | reported e h => cases h.symm.trans hd
  | nothing h hnone => exact absurd hnone hdata
  | @unstarted _ _ e hs =>
    rw [hs] at hpersists
    obtain ⟨f, rfl, hstruck⟩ := hpersists.struck e rfl
    exact ⟨calls, hoffers, .failed (hpersists.rounds.mono (Nat.le_succ 1)) hstruck⟩
  | unsent _ _ hf =>
    rw [hf] at hends
    exact ⟨calls ++ calls', hoffers.trans hoffers',
      (hends.attempt data).append_left hpersists.rounds⟩
  | stalled _ _ hf =>
    exact ⟨calls ++ calls', hoffers.trans hoffers',
      .blocked (hpersists.rounds.append hends.rounds)⟩
  | poured _ _ hf =>
    rw [hf] at hends
    obtain ⟨hgoes, -⟩ := hends
    obtain ⟨calls'', ending, hoffers'', hpours, -⟩ := poured_pours hcapacity hd hdata hf
    exact ⟨calls ++ calls' ++ calls'', (hoffers.trans hoffers').trans hoffers'',
      .poured (hpersists.rounds.append (.of_goesOn hgoes)) hpours⟩

end Session
end Telnet
end RemoteTerminal
