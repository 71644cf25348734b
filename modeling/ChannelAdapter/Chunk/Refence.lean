import ChannelAdapter.Text.Buffer
import ChannelAdapter.Text.Cut
import ChannelAdapter.Block
/-!
Code blocks that are larger than the limit. The body is shared out over several blocks with the same
opening and closing lines, whole lines first; a line that is too long for any of them is cut hard.
-/

namespace ChannelAdapter.Chunk

/-- The bytes that a body line takes once wrapped: a last line without a newline is given one. -/
def lineCost (line : List Char) : Nat :=
  Text.width line + if Text.endsLine line then 0 else 1

/-- The pieces of a line that is too long. A newline that is left over is not a piece, since
wrapping the piece before it supplies one. -/
def hardPieces (budget : Nat) (line : List Char) : List (List Char) :=
  if h : line = [] then [] else
    have := (Text.isBoundary_hardCut line budget).length_lt (Text.hardCut_pos h budget)
    let parts := Text.splitAt (Text.hardCut line budget) line
    if parts.1 = ['\n'] then [] else parts.1 :: hardPieces budget parts.2
termination_by line.length

def pendingPart (pending : Text.Buffer) : List (List Char) :=
  if pending.isEmpty then [] else [pending.text]

def bodyParts (budget : Nat) (pending : Text.Buffer) : List (List Char) → List (List Char)
  | [] => pendingPart pending
  | line :: ls =>
      if budget < lineCost line then
        pendingPart pending ++ hardPieces (budget - 1) line ++ bodyParts budget .empty ls
      else if !pending.isEmpty && budget < pending.width + lineCost line then
        pending.text :: bodyParts budget (.append .empty line) ls
      else bodyParts budget (pending.append line) ls

/-- Whether a block has to be taken apart and leaves enough room to do so: each part needs a byte of
body and one for the newline that wrapping may add. -/
def splits (block : Block) (limit : Nat) : Bool :=
  limit < block.width && block.overhead + 2 ≤ limit

def refence (block : Block) (limit : Nat) : List (List Char) :=
  if splits block limit then
    (bodyParts (limit - block.overhead) .empty (Text.lines block.body)).map block.wrap
  else [block.render]

end ChannelAdapter.Chunk
