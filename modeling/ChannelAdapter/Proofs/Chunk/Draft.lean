import ChannelAdapter.Chunk.Fenced
import ChannelAdapter.Proofs.Chunk.Plain
import ChannelAdapter.Proofs.Text.Line
/-!
What the operations on a draft do to its finished chunks and to its current text.
-/

namespace ChannelAdapter.Chunk.Draft

@[simp] theorem done_empty : empty.done = [] := rfl

@[simp] theorem text_empty : empty.current.text = [] := rfl

@[simp] theorem done_push (d : Draft) (cs : List Char) : (d.push cs).done = d.done := rfl

@[simp] theorem text_push (d : Draft) (cs : List Char) :
    (d.push cs).current.text = d.current.text ++ cs :=
  Text.Buffer.text_append _ _

theorem width_current (d : Draft) : d.current.width = Text.width d.current.text :=
  d.current.width_text.symm

@[simp] theorem done_emit (d : Draft) (pieces : List (List Char)) :
    (d.emit pieces).done = (pieces.flatMap finish).reverse ++ d.done := rfl

@[simp] theorem current_emit (d : Draft) (pieces : List (List Char)) :
    (d.emit pieces).current = d.current := rfl

@[simp] theorem done_flush (d : Draft) : d.flush.done = finish d.current.text ++ d.done := by
  simp [flush]

@[simp] theorem text_flush (d : Draft) : d.flush.current.text = [] := rfl

theorem chunks_eq (d : Draft) : d.chunks = d.done.reverse ++ finish d.current.text := by
  simp [chunks]

/-! The draft at the start of a segment. -/

/-- The current text is empty or ends in a newline. -/
def AtLine (d : Draft) : Prop :=
  d.current.text = [] ∨ Text.endsLine d.current.text = true

theorem atLine_flush (d : Draft) : d.flush.AtLine :=
  .inl d.text_flush

theorem atLine_push (d : Draft) {cs : List Char} (h : Text.endsLine cs = true) :
    (d.push cs).AtLine := by
  refine .inr ?_
  rwa [text_push, Text.endsLine_append (Text.ne_nil_of_endsLine h)]

-- Cuts take from the front of prose, so that what is pushed last ends as the prose does.
theorem AtLine.appendPlain {limit : Nat} {d : Draft} (hd : d.AtLine) {cs : List Char}
    (hcs : cs ≠ [] → Text.endsLine cs = true) : (d.appendPlain limit cs).AtLine := by
  fun_induction Draft.appendPlain limit d cs with
  | case1 => exact hd
  | case2 d cs hne _ => exact d.atLine_push (hcs hne)
  | case3 d cs _ _ _ ih => exact ih d.atLine_flush hcs
  | case4 d cs hne _ _ _ filled ih =>
      refine ih filled.atLine_flush ?_
      exact Text.endsLine_of_suffix (hcs hne) (rest_suffix cs _)

theorem AtLine.appendBlock {limit : Nat} {d : Draft} {block : Block}
    (hblock : Text.endsLine block.render = true) : (d.appendBlock limit block).AtLine := by
  rw [Draft.appendBlock]
  split
  · exact .inl d.text_flush
  · split
    · exact d.flush.atLine_push hblock
    · exact d.atLine_push hblock

theorem AtLine.append {limit : Nat} {d : Draft} (hd : d.AtLine) {segment : Segment}
    (hsegment : Text.endsLine segment.render = true) : (d.append limit segment).AtLine := by
  cases segment with
  | plain cs => exact hd.appendPlain fun _ => hsegment
  | fenced block closing => exact AtLine.appendBlock hsegment

end ChannelAdapter.Chunk.Draft
