/-
# The terminal that is described to the peer

Its type, its language and the size of its window, which travels as four bytes:
columns, then rows.
-/

import RemoteTerminal.Bytes
import RemoteTerminal.Telnet.Error
import RemoteTerminal.Telnet.Negotiation

namespace RemoteTerminal
namespace Telnet

/-- The size of a window in characters. -/
structure WindowSize where
  cols : UInt16 := 80
  rows : UInt16 := 24
  deriving DecidableEq, Repr

namespace WindowSize

/-- The columns, then the rows, each high byte first. -/
def toBytes (w : WindowSize) : Bytes := bigEndian w.cols ++ bigEndian w.rows

/-- The size in the first four bytes of a report. -/
def ofBytes : Bytes → Except TelnetError WindowSize
  | a :: b :: c :: d :: _ => .ok ⟨ofBigEndian a b, ofBigEndian c d⟩
  | data =>
    .error (.subnegotiation TelnetOption.windowSize.toByte (.insufficientData 4 data.length))

/-- A size read back from its bytes is the size, whatever follows them. -/
theorem ofBytes_toBytes (w : WindowSize) (rest : Bytes) : ofBytes (w.toBytes ++ rest) = .ok w := by
  simp [toBytes, bigEndian, ofBytes, ofBigEndian_bigEndian]

end WindowSize

/-- A terminal as it is described to the peer. -/
structure Terminal where
  /-- The name of its type. -/
  terminalType : String := "xterm"
  /-- The language and its conventions. -/
  lang : String := "en_US"
  /-- The size of its window. -/
  window : WindowSize := {}
  deriving DecidableEq, Repr

end Telnet
end RemoteTerminal
