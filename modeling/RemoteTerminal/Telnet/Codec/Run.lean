/-
# Runs of a codec

The calls that change a codec, as data, and what a list of them does.  A stream comes in by
`decode`, in whatever pieces; what the codec has to say goes out by `takeReplies`.  Since the
decoder takes one byte at a time, a run is one in which every byte comes by itself
(`run_bytewise`).
-/

import RemoteTerminal.Telnet.Codec

namespace RemoteTerminal
namespace Telnet
namespace Codec

/-- A call of a codec. -/
inductive Call where
  | start
  | decode (data : Bytes)
  | resize (window : WindowSize)
  | command (command : Command)
  | takeReplies
  | releaseCr
  deriving DecidableEq, Repr

/-- The calls that decode each byte by itself, where a call decodes several. -/
def Call.bytewise : Call → List Call
  | decode data => data.map fun byte => decode [byte]
  | call => [call]

/-- Make a call: the replies that it takes, and the codec after it. -/
def perform (call : Call) (c : Codec) : Bytes × Codec :=
  match call with
  | .start => ([], c.start.2)
  | .decode data => ([], (c.decode data).2)
  | .resize window => ([], (c.setWindow window).2.2)
  | .command command => ([], (c.sayCommand command).2)
  | .takeReplies => c.takeReplies
  | .releaseCr => ([], c.releaseCr.2)

/-- Make calls in order: all replies that they take, and the codec after them. -/
def run : List Call → Codec → Bytes × Codec
  | [], c => ([], c)
  | call :: rest, c =>
    let (taken, c) := c.perform call
    let (more, c) := run rest c
    (taken ++ more, c)

/-- All bytes that a run decodes. -/
def heard (calls : List Call) : Bytes :=
  calls.flatMap fun call =>
    match call with
    | .decode data => data
    | _ => []

/-- All that a codec has to say in a run: what was taken, and what is waiting. -/
def speech (calls : List Call) (c : Codec) : Bytes := (c.run calls).1 ++ (c.run calls).2.replies

theorem run_append (calls more : List Call) (c : Codec) :
    c.run (calls ++ more) =
      ((c.run calls).1 ++ ((c.run calls).2.run more).1, ((c.run calls).2.run more).2) := by
  induction calls generalizing c with
  | nil => rfl
  | cons call rest ih => simp [run, ih, List.append_assoc]

theorem run_call_bytewise (call : Call) (c : Codec) : c.run call.bytewise = c.perform call := by
  cases call with
  | decode data =>
    show c.run (data.map fun byte => .decode [byte]) = ([], (c.decode data).2)
    induction data generalizing c with
    | nil => rfl
    | cons byte rest ih => simp [run, perform, decode, ih]
  | start | resize | command | takeReplies | releaseCr => simp [Call.bytewise, run]

/-- **A run is one in which every byte comes by itself.** -/
theorem run_bytewise (calls : List Call) (c : Codec) :
    c.run (calls.flatMap Call.bytewise) = c.run calls := by
  induction calls generalizing c with
  | nil => rfl
  | cons call rest ih => simp [run, run_append, run_call_bytewise, ih]

end Codec
end Telnet
end RemoteTerminal
