/-
# How far a handshake has come

Telnet goes from `idle` to `sentOptions` and stays there.  Rlogin goes to
`sentLogin`, and to `established` when the server asks for the window size.  A
protocol without a handshake is `established` from the start.
-/

namespace RemoteTerminal

/-- The progress of a session's handshake. -/
inductive Progress where
  | idle
  | sentOptions
  | sentLogin
  | established
  deriving DecidableEq, Repr

namespace Progress

/-- Whether the handshake has put anything on the wire. -/
def isStarted (p : Progress) : Bool := p ≠ .idle

/-- The name of a stage. -/
def name : Progress → String
  | .idle => "init"
  | .sentOptions => "sent-options"
  | .sentLogin => "sent-login"
  | .established => "established"

end Progress
end RemoteTerminal
