import Mathlib.Data.List.Chain
import ChannelAdapter.Proofs.Segment.Shape
/-!
The segments of a text as a partition of its lines. The conditions on the parts leave one way only
to divide a text, and that is the one that is computed.
-/

namespace ChannelAdapter.Segment

def lines : Segment → List (List Char)
  | .plain text => Text.lines text
  | .fenced block .written => block.openLine :: (Text.lines block.body ++ [block.closeLine])
  | .fenced block .supplied => block.openLine :: Text.lines block.body

def IsPlain : Segment → Prop
  | .plain _ => True
  | .fenced _ _ => False

def IsLeftOpen : Segment → Prop
  | .fenced _ .supplied => True
  | _ => False

/-- The shape that a segment has by itself: prose without a line that opens a fence, or an opening
line with lines that do not close its fence, and one that does or is supplied for it. -/
inductive Shaped : Segment → Prop
  | plain {text : List Char} (hne : text ≠ [])
      (hlines : ∀ line ∈ Text.lines text, ∀ fence : Fence, ¬ fence.OpenedBy line) :
      Shaped (.plain text)
  | written {block : Block} {fence : Fence} (hopen : fence.OpenedBy block.openLine)
      (hbody : ∀ line ∈ Text.lines block.body, ¬ fence.ClosedBy line)
      (hclose : fence.ClosedBy block.closeLine) :
      Shaped (.fenced block .written)
  | supplied {block : Block} {fence : Fence} (hopen : fence.OpenedBy block.openLine)
      (hbody : ∀ line ∈ Text.lines block.body, ¬ fence.ClosedBy line)
      (hclose : block.closeLine = fence.closingLine) :
      Shaped (.fenced block .supplied)

/-- A division of a text into segments. The body of a block that is left open reaches to the end of
the text, so no line after its opening line closes it. -/
structure Partition (cs : List Char) (segments : List Segment) : Prop where
  source : segments.flatMap Segment.source = cs
  lines : segments.flatMap Segment.lines = Text.lines cs
  shaped : ∀ segment ∈ segments, segment.Shaped
  apart : segments.IsChain fun first second => ¬ (first.IsPlain ∧ second.IsPlain)
  leftOpen_last : segments.Pairwise fun segment _ => ¬ segment.IsLeftOpen

/-! What is read is a partition. -/

theorem lines_passage {before : List (List Char)} (h : Text.Lined before) :
    (passage before).flatMap lines = before := by
  cases before with
  | nil => rfl
  | cons line before =>
      rw [passage_of_ne_nil (List.cons_ne_nil line before), List.flatMap_singleton, lines,
        Text.lines_flatten h]

theorem shaped_of_mem_passage {before : List (List Char)} (h : Text.Lined before)
    (hbefore : ∀ line ∈ before, Fence.opens line = false) {segment : Segment}
    (hmem : segment ∈ passage before) : segment.Shaped := by
  obtain ⟨hne, rfl⟩ := mem_passage hmem
  apply Shaped.plain
  · exact h.flatten_ne_nil hne
  · rw [Text.lines_flatten h]
    intro line hline
    exact Fence.opens_eq_false_iff.mp (hbefore line hline)

theorem isChain_passage_append {before : List (List Char)} {block : Block} {closing : Closing}
    {segments : List Segment}
    (h : segments.IsChain fun first second => ¬ (first.IsPlain ∧ second.IsPlain)) :
    (passage before ++ .fenced block closing :: segments).IsChain
      fun first second => ¬ (first.IsPlain ∧ second.IsPlain) := by
  have hblock : (Segment.fenced block closing :: segments).IsChain
      fun first second => ¬ (first.IsPlain ∧ second.IsPlain) :=
    List.isChain_cons.mpr ⟨fun _ _ hplain => hplain.1, h⟩
  cases before with
  | nil => exact hblock
  | cons line before =>
      rw [passage_of_ne_nil (List.cons_ne_nil line before)]
      refine List.isChain_cons.mpr ⟨?_, hblock⟩
      intro second hsecond hplain
      cases hsecond
      exact hplain.2

theorem Reads.flatMap_lines {ls : List (List Char)} {segments : List Segment}
    (h : Reads ls segments) (hls : Text.Lined ls) : segments.flatMap lines = ls := by
  induction h with
  | prose => exact lines_passage hls
  | unclosed =>
      obtain ⟨hbefore, hblock, -⟩ := Text.lined_append.mp hls
      obtain ⟨-, hbody, -⟩ := Text.lined_cons.mp hblock
      simp [lines_passage hbefore, lines, Text.lines_flatten hbody]
  | closed _ _ _ _ _ ih =>
      obtain ⟨hbefore, hblock, -⟩ := Text.lined_append.mp hls
      obtain ⟨-, hrest, -⟩ := Text.lined_cons.mp hblock
      obtain ⟨hbody, hcloseRest, -⟩ := Text.lined_append.mp hrest
      obtain ⟨-, hafter, -⟩ := Text.lined_cons.mp hcloseRest
      simp [lines_passage hbefore, lines, Text.lines_flatten hbody, ih hafter]

theorem Reads.shaped {ls : List (List Char)} {segments : List Segment}
    (h : Reads ls segments) (hls : Text.Lined ls) {segment : Segment} (hmem : segment ∈ segments) :
    segment.Shaped := by
  induction h with
  | prose hbefore => exact shaped_of_mem_passage hls hbefore hmem
  | unclosed hbefore hopen hbody =>
      obtain ⟨hbeforeLines, hblock, -⟩ := Text.lined_append.mp hls
      obtain ⟨-, hbodyLines, -⟩ := Text.lined_cons.mp hblock
      rcases List.mem_append.mp hmem with hmem | hmem
      · exact shaped_of_mem_passage hbeforeLines hbefore hmem
      · cases List.mem_singleton.mp hmem
        refine .supplied (Fence.ofLine?_eq_some_iff.mp hopen) ?_ rfl
        rw [Text.lines_flatten hbodyLines]
        intro line hline
        exact Fence.closedBy_eq_false_iff.mp (hbody line hline)
  | closed hbefore hopen hbody hclose _ ih =>
      obtain ⟨hbeforeLines, hblock, -⟩ := Text.lined_append.mp hls
      obtain ⟨-, hrest, -⟩ := Text.lined_cons.mp hblock
      obtain ⟨hbodyLines, hcloseRest, -⟩ := Text.lined_append.mp hrest
      obtain ⟨-, hafter, -⟩ := Text.lined_cons.mp hcloseRest
      rcases List.mem_append.mp hmem with hmem | hmem
      · exact shaped_of_mem_passage hbeforeLines hbefore hmem
      · cases hmem with
        | head =>
            refine .written (Fence.ofLine?_eq_some_iff.mp hopen) ?_ (Fence.closedBy_iff.mp hclose)
            rw [Text.lines_flatten hbodyLines]
            intro line hline
            exact Fence.closedBy_eq_false_iff.mp (hbody line hline)
        | tail _ hmem => exact ih hafter hmem

theorem Reads.apart {ls : List (List Char)} {segments : List Segment} (h : Reads ls segments) :
    segments.IsChain fun first second => ¬ (first.IsPlain ∧ second.IsPlain) := by
  induction h with
  | @prose before =>
      cases before with
      | nil => exact .nil
      | cons line before =>
          rw [passage_of_ne_nil (List.cons_ne_nil line before)]
          exact .singleton _
  | unclosed => exact isChain_passage_append .nil
  | closed _ _ _ _ _ ih => exact isChain_passage_append ih

theorem Reads.leftOpen_last {ls : List (List Char)} {segments : List Segment}
    (h : Reads ls segments) : segments.Pairwise fun segment _ => ¬ segment.IsLeftOpen := by
  have hpassage {before : List (List Char)} {segment : Segment} (hmem : segment ∈ passage before) :
      ¬ segment.IsLeftOpen := by
    rw [(mem_passage hmem).2]
    exact id
  induction h with
  | prose => exact pairwise_passage _ _
  | unclosed =>
      refine List.pairwise_append.mpr ⟨pairwise_passage _ _, List.pairwise_singleton _ _, ?_⟩
      intro segment hmem _ _
      exact hpassage hmem
  | closed _ _ _ _ _ ih =>
      refine List.pairwise_append.mpr ⟨pairwise_passage _ _, List.pairwise_cons.mpr ⟨?_, ih⟩, ?_⟩
      · intro _ _
        exact id
      · intro segment hmem _ _
        exact hpassage hmem

theorem partition_ofText (cs : List Char) : Partition cs (ofText cs) where
  source := flatMap_source_ofText cs
  lines := (reads_ofText cs).flatMap_lines (Text.lined_lines cs)
  shaped := fun _ hmem => (reads_ofText cs).shaped (Text.lined_lines cs) hmem
  apart := (reads_ofText cs).apart
  leftOpen_last := (reads_ofText cs).leftOpen_last

/-! A partition is what is read. -/

/-- Segments are read from their lines. Prose that is still to be made a passage stands before them,
so no prose may follow it. -/
theorem reads_append_lines {segments : List Segment}
    (hshaped : ∀ segment ∈ segments, segment.Shaped)
    (hapart : segments.IsChain fun first second => ¬ (first.IsPlain ∧ second.IsPlain))
    (hlast : segments.Pairwise fun segment _ => ¬ segment.IsLeftOpen)
    {before : List (List Char)} (hbefore : ∀ line ∈ before, Fence.opens line = false)
    (hhead : ∀ segment ∈ segments.head?, before = [] ∨ ¬ segment.IsPlain) :
    Reads (before ++ segments.flatMap lines) (passage before ++ segments) := by
  induction segments generalizing before with
  | nil =>
      rw [List.flatMap_nil, List.append_nil, List.append_nil]
      exact .prose hbefore
  | cons segment segments ih =>
      obtain ⟨hsegment, hrest⟩ := List.forall_mem_cons.mp hshaped
      obtain ⟨hnext, hrestApart⟩ := List.isChain_cons.mp hapart
      obtain ⟨hclosed, hrestLast⟩ := List.pairwise_cons.mp hlast
      cases hsegment with
      | @plain text hne hlines =>
          -- prose follows no other prose, so none is pending here
          have hnone : before = [] := (hhead _ rfl).resolve_right fun hnot => hnot trivial
          have hread := ih hrest hrestApart hrestLast
            (fun line hline => Fence.opens_eq_false_iff.mpr (hlines line hline))
            (fun second hsecond => .inr fun hplain => hnext second hsecond ⟨trivial, hplain⟩)
          have hlinesNe : Text.lines text ≠ [] := by
            intro hnil
            exact hne (by rw [← Text.flatten_lines text, hnil, List.flatten_nil])
          rw [passage_of_ne_nil hlinesNe, Text.flatten_lines] at hread
          rw [hnone]
          exact hread
      | @written block fence hopen hbody hclose =>
          have hread := ih hrest hrestApart hrestLast (List.forall_mem_nil _) fun _ _ => .inl rfl
          have hblock := Reads.closed hbefore (Fence.ofLine?_eq_some_iff.mpr hopen)
            (fun line hline => Fence.closedBy_eq_false_iff.mpr (hbody line hline))
            (Fence.closedBy_iff.mpr hclose) hread
          rw [Text.flatten_lines, passage_nil, List.nil_append, List.nil_append] at hblock
          rw [List.flatMap_cons, lines, List.cons_append, List.append_assoc]
          exact hblock
      | @supplied block fence hopen hbody hclose =>
          -- a block that is left open is the last segment
          have hnone : segments = [] := by
            apply List.eq_nil_iff_forall_not_mem.mpr
            intro second hsecond
            exact hclosed second hsecond trivial
          have hblock := Reads.unclosed hbefore (Fence.ofLine?_eq_some_iff.mpr hopen)
            (fun line hline => Fence.closedBy_eq_false_iff.mpr (hbody line hline))
          rw [Text.flatten_lines, ← hclose] at hblock
          rw [hnone, List.flatMap_singleton, lines]
          exact hblock

theorem Partition.reads {cs : List Char} {segments : List Segment} (h : Partition cs segments) :
    Reads (Text.lines cs) segments := by
  have hread := reads_append_lines h.shaped h.apart h.leftOpen_last (List.forall_mem_nil _)
    fun _ _ => .inl rfl
  rw [List.nil_append, h.lines, passage_nil, List.nil_append] at hread
  exact hread

/-- The segments of a text are the one partition of it. -/
theorem ofText_eq_iff_partition (cs : List Char) (segments : List Segment) :
    ofText cs = segments ↔ Partition cs segments := by
  constructor
  · rintro rfl
    exact partition_ofText cs
  · intro h
    exact h.reads.ofLines_eq

end ChannelAdapter.Segment
