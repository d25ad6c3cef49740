/-
# The journal

What a connection has to say about its own running: notes of four levels, in the
order in which they were made.  A reader asks for a level and gets the notes at
or above it.
-/

namespace RemoteTerminal

/-- How much a note matters, from the most to the least. -/
inductive Level where
  | error
  | warn
  | info
  | debug
  deriving DecidableEq, Repr

namespace Level

/-- Zero for the gravest level, three for the least. -/
def rank : Level → Nat
  | .error => 0
  | .warn => 1
  | .info => 2
  | .debug => 3

/-- The level's name as it stands in front of a note. -/
def name : Level → String
  | .error => "ERROR"
  | .warn => "WARN"
  | .info => "INFO"
  | .debug => "DEBUG"

end Level

/-- One line of the journal. -/
structure Note where
  level : Level
  text : String
  deriving DecidableEq, Repr

namespace Note

/-- Something that went wrong and was dealt with. -/
def warn (text : String) : Note := ⟨.warn, text⟩

/-- A change of a connection's life. -/
def info (text : String) : Note := ⟨.info, text⟩

/-- A step worth following when something is being looked into. -/
def debug (text : String) : Note := ⟨.debug, text⟩

/-- The note as a line of text, its level first. -/
def line (n : Note) : String := n.level.name ++ " " ++ n.text

end Note

/-- The lines of the notes at or above a level, in order. -/
def journalLines (least : Level) (notes : List Note) : List String :=
  (notes.filter fun n => n.level.rank ≤ least.rank).map Note.line

end RemoteTerminal
