import ChannelAdapter.Text.Width
import ChannelAdapter.Text.Line
/-!
Code blocks: an opening line, a body and a closing line. `wrap` puts a body between the two lines
and starts a new line for the closing one where the body does not end one.
-/

namespace ChannelAdapter

/-- A code block. The opening and the closing line keep the newlines that end them. -/
structure Block where
  openLine : List Char
  body : List Char
  closeLine : List Char
  deriving DecidableEq, Repr

namespace Block

/-- The newline that the closing line needs in front of it after a body. -/
def lineBreak (block : Block) (body : List Char) : List Char :=
  if Text.endsLine (if body.isEmpty then block.openLine else body) then [] else ['\n']

def wrap (block : Block) (body : List Char) : List Char :=
  block.openLine ++ body ++ block.lineBreak body ++ block.closeLine

def render (block : Block) : List Char :=
  block.wrap block.body

def width (block : Block) : Nat :=
  Text.width block.openLine + Text.width block.body + (block.lineBreak block.body).length +
    Text.width block.closeLine

def overhead (block : Block) : Nat :=
  Text.width block.openLine + Text.width block.closeLine

theorem width_lineBreak (block : Block) (body : List Char) :
    Text.width (block.lineBreak body) = (block.lineBreak body).length := by
  unfold lineBreak
  generalize Text.endsLine _ = ended
  cases ended <;> rfl

theorem width_render (block : Block) : Text.width block.render = block.width := by
  simp only [render, wrap, width, Text.width_append, width_lineBreak]

end Block

end ChannelAdapter
