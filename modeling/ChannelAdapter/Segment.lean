import ChannelAdapter.Text.Line
import ChannelAdapter.Fence
import ChannelAdapter.Block
/-!
Segments: the plain passages and the code blocks of a text, in order. A fence that the text leaves
open runs to the end, and a closing line is supplied for it.
-/

namespace ChannelAdapter

inductive Closing
  | written
  /-- Made up for a fence that the text leaves open. -/
  | supplied
  deriving DecidableEq, Repr

inductive Segment
  | plain (text : List Char)
  | fenced (block : Block) (closing : Closing)
  deriving DecidableEq, Repr

namespace Segment

def ofLines (ls : List (List Char)) : List Segment :=
  let before := ls.takeWhile (!Fence.opens ·)
  let plain := if before.isEmpty then [] else [Segment.plain before.flatten]
  match _h : ls.dropWhile (!Fence.opens ·) with
  | [] => plain
  | openLine :: rest =>
      match Fence.ofLine? openLine with
      | none => plain
      | some fence =>
          let body := rest.takeWhile (!fence.closedBy ·)
          match h' : rest.dropWhile (!fence.closedBy ·) with
          | [] => plain ++ [.fenced ⟨openLine, body.flatten, fence.closingLine⟩ .supplied]
          | closeLine :: after =>
              plain ++ .fenced ⟨openLine, body.flatten, closeLine⟩ .written :: ofLines after
termination_by ls.length
decreasing_by
  have h₁ := congrArg List.length _h
  have h₂ := congrArg List.length h'
  have h₃ := (List.dropWhile_suffix (!Fence.opens ·) (l := ls)).length_le
  have h₄ := (List.dropWhile_suffix (!fence.closedBy ·) (l := rest)).length_le
  simp only [List.length_cons] at h₁ h₂
  omega

def ofText (cs : List Char) : List Segment :=
  ofLines (Text.lines cs)

/-- The text of a segment, a supplied closing line included. -/
def render : Segment → List Char
  | .plain text => text
  | .fenced block _ => block.render

end Segment

end ChannelAdapter
