/-
# The rlogin login

What a client says first: an empty field, the account on its own machine, the
account on the server, and the terminal type with the line speed, each ended by a
zero byte.  Later it may report its window in a message of twelve bytes, opened by
`FF FF` and `ss`, with the size in characters and in pixels.
-/

import RemoteTerminal.Bytes

namespace RemoteTerminal
namespace Rlogin

/-- The line speed that stands behind the terminal type. -/
def terminalSpeed : String := "38400"

/-- How long a handshake write sits out would-blocks, in milliseconds. -/
def retryTimeout : Nat := 5000

/-- The assumed width of a character in pixels. -/
def cellWidth : Nat := 9

/-- The assumed height of a character in pixels. -/
def cellHeight : Nat := 16

/-- What a client reports when it logs in. -/
structure Login where
  /-- The account on this machine. -/
  localUser : String := "guest"
  /-- The account on the server, if it is another. -/
  remoteUser : Option String := none
  /-- The name of the terminal's type. -/
  terminalType : String := "xterm"
  lines : UInt16 := 24
  columns : UInt16 := 80
  deriving DecidableEq, Repr

namespace Login

/-- The account on the server. -/
def effectiveRemoteUser (l : Login) : String := l.remoteUser.getD l.localUser

/-- The login frame. -/
def frame (l : Login) : Bytes :=
  [0] ++ utf8 l.localUser ++ [0] ++ utf8 l.effectiveRemoteUser ++ [0] ++
    utf8 l.terminalType ++ ascii ("/" ++ terminalSpeed) ++ [0]

end Login

/-- A product of two lengths, or the largest length if it is too big. -/
def pixels (count : UInt16) (size : Nat) : UInt16 := UInt16.ofNat (min (count.toNat * size) 65535)

/-- The report of a window's size. -/
def windowMessage (lines columns : UInt16) : Bytes :=
  [0xFF, 0xFF, 0x73, 0x73] ++ bigEndian lines ++ bigEndian columns ++
    bigEndian (pixels columns cellWidth) ++ bigEndian (pixels lines cellHeight)

end Rlogin
end RemoteTerminal
