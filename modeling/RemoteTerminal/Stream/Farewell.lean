/-
# The close notice

When the peer ends a stream, the reader is told so once, in words: the notice is
handed out like payload, in as many pieces as the reader's room makes of it, and
only then does reading report the end.

| phase | meaning |
| --- | --- |
| `flowing` | no end of stream was seen |
| `ended` | the stream has ended, nothing has been said about it |
| `notice n` | `n` bytes of the notice are out |
| `closed` | the whole notice is out; every further read gives nothing |
-/

import RemoteTerminal.Bytes

namespace RemoteTerminal

/-- The words with which the end of a stream is announced. -/
def closeNotice : Bytes := ascii "Connection closed."

theorem closeNotice_length : closeNotice.length = 18 := by decide

/-- How far the end of a stream has come and has been reported. -/
inductive Phase where
  | flowing
  | ended
  | notice (sent : Nat)
  | closed
  deriving DecidableEq, Repr

namespace Farewell

/-- The next piece of the notice, of which `sent` bytes are out already. -/
def piece (sent room : Nat) : Bytes := (closeNotice.drop sent).take room

/-- Whether the notice is complete once that piece is out. -/
def completes (sent room : Nat) : Bool := closeNotice.length ≤ sent + (piece sent room).length

/-- The phase once that piece is out. -/
def after (sent room : Nat) : Phase :=
  if completes sent room then .closed else .notice (sent + (piece sent room).length)

theorem piece_length (sent room : Nat) :
    (piece sent room).length = min room (closeNotice.length - sent) := by
  simp [piece]

/-- What is out after a piece is what was out before, and the piece. -/
theorem take_append_piece (sent room : Nat) :
    closeNotice.take sent ++ piece sent room =
      closeNotice.take (sent + (piece sent room).length) := by
  rw [piece_length, piece, List.take_add, List.append_cancel_left_eq]
  rcases Nat.le_total room (closeNotice.length - sent) with hr | hr
  · rw [Nat.min_eq_left hr]
  · rw [Nat.min_eq_right hr, List.take_of_length_le (by simpa using hr),
      List.take_of_length_le (by simp)]

end Farewell
end RemoteTerminal
