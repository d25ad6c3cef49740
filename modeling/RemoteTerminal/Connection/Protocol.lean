/-
# The protocols of a connection
-/

namespace RemoteTerminal

/-- What is spoken over a connection. -/
inductive Protocol where
  /-- Telnet with option negotiation. -/
  | telnet
  /-- Rlogin. -/
  | rlogin
  /-- SSH, which an external library speaks. -/
  | ssh
  /-- Plain bytes. -/
  | raw
  deriving DecidableEq, Repr

namespace Protocol

/-- The four protocols. -/
def all : List Protocol := [telnet, rlogin, ssh, raw]

/-- The name of a protocol. -/
def name : Protocol → String
  | telnet => "telnet"
  | rlogin => "rlogin"
  | ssh => "ssh"
  | raw => "raw"

instance : ToString Protocol := ⟨name⟩

/-- The protocol of a name. -/
def ofName? (text : String) : Option Protocol := all.find? fun p => p.name = text

end Protocol
end RemoteTerminal
