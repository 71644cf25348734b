/-!
Fences: the runs of backticks or tildes that open and close a code block.
-/

namespace ChannelAdapter

inductive Fence.Mark
  | backtick | tilde
  deriving DecidableEq, Repr

structure Fence where
  mark : Fence.Mark
  size : Nat
  deriving DecidableEq, Repr

namespace Fence

def Mark.char : Mark → Char
  | .backtick => '`'
  | .tilde => '~'

def Mark.ofChar? : Char → Option Mark
  | '`' => some .backtick
  | '~' => some .tilde
  | _ => none

theorem Mark.ofChar?_eq_some {c : Char} {m : Mark} : Mark.ofChar? c = some m ↔ c = m.char := by
  unfold Mark.ofChar?
  split <;> cases m <;> simp_all [Mark.char]

def minSize : Nat := 3

def runLength (c : Char) (cs : List Char) : Nat :=
  (cs.takeWhile (· == c)).length

/-- A line without its line end and its indentation, which fences disregard. -/
def bare (line : List Char) : List Char :=
  ((line.reverse.dropWhile fun c => c == '\n' || c == '\r').reverse).dropWhile
    fun c => c == ' ' || c == '\t'

/-- The fence that a bare line opens. What follows the run does not matter. -/
def ofBare? (cs : List Char) : Option Fence := do
  let mark ← Mark.ofChar? (← cs.head?)
  let size := runLength mark.char cs
  if minSize ≤ size then some { mark, size } else none

def closedByBare (fence : Fence) (cs : List Char) : Bool :=
  fence.size ≤ runLength fence.mark.char cs

def ofLine? (line : List Char) : Option Fence :=
  ofBare? (bare line)

def opens (line : List Char) : Bool :=
  (ofLine? line).isSome

def closedBy (fence : Fence) (line : List Char) : Bool :=
  fence.closedByBare (bare line)

/-- The line that closes a fence which its text leaves open. -/
def closingLine (fence : Fence) : List Char :=
  List.replicate (max fence.size minSize) fence.mark.char ++ ['\n']

end Fence

end ChannelAdapter
