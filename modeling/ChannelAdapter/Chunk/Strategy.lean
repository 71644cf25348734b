import ChannelAdapter.Chunk.Plain
import ChannelAdapter.Chunk.Fenced
/-!
Strategies for cutting a message into chunks that a channel accepts.
-/

namespace ChannelAdapter.Chunk

inductive Strategy
  | fenced | plain
  deriving DecidableEq, Repr

/-- The limit of a channel that names none. -/
def defaultLimit : Nat := 2000

namespace Strategy

/-- All strategies, the default one first. -/
def all : List Strategy := [.fenced, .plain]

def default : Strategy := .fenced

def name : Strategy → String
  | .fenced => "fenced"
  | .plain => "plain"

def description : Strategy → String
  | .fenced => "Boundary-aware chunking that keeps fenced code blocks closed"
  | .plain => "Boundary-aware chunking without fenced code block handling"

/-- The strategy of a name, whose ASCII letters may be of either case. No other character has a
letter of a strategy's name as its lower case. -/
def ofName? (name : String) : Option Strategy :=
  all.find? fun s => s.name == name.map Char.toLower

theorem ofName?_name (s : Strategy) : ofName? s.name = some s := by
  cases s <;> decide +kernel

def cut : Strategy → Nat → List Char → List (List Char)
  | .fenced => Chunk.fenced
  | .plain => Chunk.plain

/-- The chunks of a text. An empty text has none, a limit of zero means no limit, and a text that
fits is left as it is. -/
def chunk (s : Strategy) (text : String) (limit : Nat) : List String :=
  if text.isEmpty then []
  else if limit = 0 || text.utf8ByteSize ≤ limit then [text]
  else (s.cut limit text.toList).map String.ofList

end Strategy

end ChannelAdapter.Chunk
