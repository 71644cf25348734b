import ChannelAdapter.Segment
import ChannelAdapter.Text.Buffer
import ChannelAdapter.Chunk.Plain
import ChannelAdapter.Chunk.Refence
/-!
Chunks of a text with code blocks. The segments of the text fill a draft, which is finished as a
chunk when the next piece does not fit. A block that fits is never taken apart.
-/

namespace ChannelAdapter.Chunk

/-- Chunks that are finished, the latest first, and the text of the one being filled. -/
structure Draft where
  done : List (List Char)
  current : Text.Buffer
  deriving DecidableEq, Repr

namespace Draft

def empty : Draft := ⟨[], .empty⟩

def emit (d : Draft) (pieces : List (List Char)) : Draft :=
  { d with done := (pieces.flatMap finish).reverse ++ d.done }

def flush (d : Draft) : Draft :=
  { (d.emit [d.current.text]) with current := .empty }

def push (d : Draft) (cs : List Char) : Draft :=
  { d with current := d.current.append cs }

def room (d : Draft) (limit : Nat) : Nat :=
  limit - d.current.width

/-- Whether prose that does not fit is better begun in the next chunk than cut for this one. -/
def isSpent (d : Draft) (limit : Nat) (cs : List Char) : Bool :=
  d.room limit = 0 || (splitPoint cs (d.room limit)).boundary = .hard

/-- Adds prose. A hard cut is made only in a chunk of its own, so that no word is broken merely to
use up the end of a chunk. -/
def appendPlain (limit : Nat) (d : Draft) (cs : List Char) : Draft :=
  if h : cs = [] then d
  else if Text.fits cs (d.room limit) then d.push cs
  else if _hcut : !d.current.isEmpty ∧ d.isSpent limit cs then
    appendPlain limit d.flush cs
  else
    have := length_rest_lt h (d.room limit)
    let filled := d.push (Text.trimEnd (piece cs (d.room limit)))
    appendPlain limit filled.flush (rest cs (d.room limit))
termination_by 2 * cs.length + if d.current.isEmpty then 0 else 1
decreasing_by
  · have hflush : d.flush.current.isEmpty = true := rfl
    have hcurrent : d.current.isEmpty = false := by simpa using _hcut.1
    rw [hflush, hcurrent]
    simp
  · split <;> split <;> omega

def appendBlock (limit : Nat) (d : Draft) (block : Block) : Draft :=
  if limit < block.width then d.flush.emit (refence block limit)
  else if limit < d.current.width + block.width then d.flush.push block.render
  else d.push block.render

def append (limit : Nat) (d : Draft) : Segment → Draft
  | .plain cs => d.appendPlain limit cs
  | .fenced block _ => d.appendBlock limit block

def chunks (d : Draft) : List (List Char) :=
  d.flush.done.reverse

end Draft

def fenced (limit : Nat) (cs : List Char) : List (List Char) :=
  ((Segment.ofText cs).foldl (Draft.append limit) .empty).chunks

end ChannelAdapter.Chunk
