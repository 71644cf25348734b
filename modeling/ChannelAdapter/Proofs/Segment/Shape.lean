import ChannelAdapter.Proofs.Segment.Grammar
/-!
The shape of the segments of a text. Their sources make up the text; a block is delimited by the
fence that its opening line names; and every segment that another one follows ends in a newline.
-/

namespace ChannelAdapter

structure Block.Fenced (block : Block) (fence : Fence) : Prop where
  opens : Fence.ofLine? block.openLine = some fence
  body_open : ∀ line ∈ Text.lines block.body, fence.closedBy line = false
  closes : fence.closedBy block.closeLine = true
  isLine_open : Text.IsLine block.openLine
  isLine_close : Text.IsLine block.closeLine
  endsLine_open : block.body ≠ [] → Text.endsLine block.openLine = true

theorem Block.lineBreak_eq_nil {block : Block} {body : List Char} (hbody : body ≠ [])
    (h : Text.endsLine body = true) : block.lineBreak body = [] := by
  simp [Block.lineBreak, hbody, h]

theorem Block.lineBreak_eq_newline {block : Block} {body : List Char} (hbody : body ≠ [])
    (h : Text.endsLine body = false) : block.lineBreak body = ['\n'] := by
  simp [Block.lineBreak, hbody, h]

theorem Block.lineBreak_nil {block : Block} (h : Text.endsLine block.openLine = true) :
    block.lineBreak [] = [] := by
  simp [Block.lineBreak, h]

theorem Block.endsLine_append_lineBreak {block : Block} {part : List Char} (hpart : part ≠ []) :
    Text.endsLine (part ++ block.lineBreak part) = true := by
  cases hends : Text.endsLine part with
  | true => rw [lineBreak_eq_nil hpart hends, List.append_nil, hends]
  | false => rw [lineBreak_eq_newline hpart hends, Text.endsLine_concat_newline]

theorem Block.closedBy_lines_lineBreak {fence : Fence} {part : List Char} (block : Block)
    (hpart : part ≠ []) :
    (∀ line ∈ Text.lines (part ++ block.lineBreak part), fence.closedBy line = false) ↔
      ∀ line ∈ Text.lines part, fence.closedBy line = false := by
  cases hends : Text.endsLine part with
  | true => rw [lineBreak_eq_nil hpart hends, List.append_nil]
  | false =>
      obtain ⟨front, last, hlines, hlinesBreak⟩ := Text.lines_concat_newline hpart hends
      rw [lineBreak_eq_newline hpart hends, hlines, hlinesBreak]
      simp [or_imp, forall_and]

theorem Block.endsLine_render (block : Block) (hclose : block.closeLine ≠ []) :
    Text.endsLine block.render = Text.endsLine block.closeLine := by
  rw [Block.render, Block.wrap, Text.endsLine_append hclose]

namespace Segment

/-- The part of the text that a segment was read from. -/
def source : Segment → List Char
  | .plain text => text
  | .fenced block .written => block.openLine ++ block.body ++ block.closeLine
  | .fenced block .supplied => block.openLine ++ block.body

theorem source_passage (before : List (List Char)) :
    (passage before).flatMap source = before.flatten := by
  cases before with
  | nil => rfl
  | cons line before =>
      rw [passage_of_ne_nil (List.cons_ne_nil line before), List.flatMap_singleton, source]

theorem mem_passage {before : List (List Char)} {segment : Segment} (h : segment ∈ passage before) :
    before ≠ [] ∧ segment = .plain before.flatten := by
  cases before with
  | nil => simp [passage_nil] at h
  | cons line before =>
      rw [passage_of_ne_nil (List.cons_ne_nil line before), List.mem_singleton] at h
      exact ⟨List.cons_ne_nil line before, h⟩

theorem fenced_not_mem_passage {before : List (List Char)} {block : Block} {closing : Closing} :
    .fenced block closing ∉ passage before := by
  intro hmem
  cases (mem_passage hmem).2

theorem Reads.flatMap_source {ls : List (List Char)} {segments : List Segment}
    (h : Reads ls segments) : segments.flatMap source = ls.flatten := by
  induction h with
  | prose => exact source_passage _
  | unclosed => simp [source_passage, source]
  | closed _ _ _ _ _ ih => simp [source_passage, source, ih]

theorem flatMap_source_ofText (cs : List Char) : (ofText cs).flatMap source = cs := by
  rw [(reads_ofText cs).flatMap_source, Text.flatten_lines]

theorem ofText_of_not_fenced {cs : List Char}
    (hprose : ∀ block closing, .fenced block closing ∉ ofText cs) (hcs : cs ≠ []) :
    ofText cs = [.plain cs] := by
  have hread := reads_ofText cs
  generalize hls : Text.lines cs = ls at hread
  generalize ofText cs = segments at hread hprose
  cases hread with
  | prose =>
      have hne : ls ≠ [] := by
        rintro rfl
        exact hcs (by rw [← Text.flatten_lines cs, hls, List.flatten_nil])
      rw [passage_of_ne_nil hne, ← hls, Text.flatten_lines]
  | unclosed => exact absurd (List.mem_append_right _ List.mem_cons_self) (hprose _ _)
  | closed => exact absurd (List.mem_append_right _ List.mem_cons_self) (hprose _ _)

/-! Blocks are delimited by their fences. -/

private theorem endsLine_body {openLine : List Char} {body : List (List Char)}
    (h : Text.Lined (openLine :: body)) (hbody : body.flatten ≠ []) :
    Text.endsLine openLine = true := by
  refine (Text.lined_cons.mp h).2.2 ?_
  rintro rfl
  exact hbody rfl

theorem Reads.exists_fenced {ls : List (List Char)} {segments : List Segment}
    (h : Reads ls segments) (hls : Text.Lined ls) {block : Block} {closing : Closing}
    (hmem : .fenced block closing ∈ segments) :
    ∃ fence, block.Fenced fence ∧ (closing = .written → block.lineBreak block.body = []) := by
  induction h with
  | prose => exact absurd hmem fenced_not_mem_passage
  | @unclosed before body openLine fence hbefore hopen hbody =>
      rcases List.mem_append.mp hmem with hmem | hmem
      · exact absurd hmem fenced_not_mem_passage
      · obtain ⟨rfl, rfl⟩ : block = _ ∧ closing = _ := by simpa using hmem
        have hblock : Text.Lined (openLine :: body) := (Text.lined_append.mp hls).2.1
        obtain ⟨hopenLine, hbodyLines, -⟩ := Text.lined_cons.mp hblock
        refine ⟨fence, ⟨hopen, ?_, fence.closedBy_closingLine, hopenLine,
          fence.isLine_closingLine, endsLine_body hblock⟩, by simp⟩
        rwa [Text.lines_flatten hbodyLines]
  | @closed before body after openLine closeLine fence segments hbefore hopen hbody hclose _ ih =>
      have hblock : Text.Lined (openLine :: (body ++ closeLine :: after)) :=
        (Text.lined_append.mp hls).2.1
      obtain ⟨hopenLine, hrest, hopenEnds⟩ := Text.lined_cons.mp hblock
      obtain ⟨hbodyLines, hcloseRest, hbodyEnds⟩ := Text.lined_append.mp hrest
      obtain ⟨hcloseLine, hafter, -⟩ := Text.lined_cons.mp hcloseRest
      rcases List.mem_append.mp hmem with hmem | hmem
      · exact absurd hmem fenced_not_mem_passage
      rcases List.mem_cons.mp hmem with hmem | hmem
      · obtain ⟨rfl, rfl⟩ : block = _ ∧ closing = _ := by simpa using hmem
        have hnewline : Text.endsLine openLine = true := hopenEnds (by simp)
        refine ⟨fence, ⟨hopen, ?_, hclose, hopenLine, hcloseLine, fun _ => hnewline⟩, ?_⟩
        · rwa [Text.lines_flatten hbodyLines]
        · intro _
          cases body with
          | nil => exact Block.lineBreak_nil hnewline
          | cons line body =>
              have hends : Text.endsLine (line :: body).flatten = true :=
                Text.endsLine_flatten (by simp) (hbodyEnds (by simp))
              exact Block.lineBreak_eq_nil (Text.ne_nil_of_endsLine hends) hends
      · exact ih hafter hmem

theorem exists_fenced_of_mem {cs : List Char} {block : Block} {closing : Closing}
    (hmem : .fenced block closing ∈ ofText cs) :
    ∃ fence, block.Fenced fence ∧ (closing = .written → block.lineBreak block.body = []) :=
  (reads_ofText cs).exists_fenced (Text.lined_lines cs) hmem

theorem render_of_written {cs : List Char} {block : Block}
    (hmem : .fenced block .written ∈ ofText cs) :
    block.render = (Segment.fenced block .written).source := by
  obtain ⟨fence, -, hbreak⟩ := exists_fenced_of_mem hmem
  rw [Block.render, Block.wrap, hbreak rfl, List.append_nil, source]

/-! Segments end in newlines, except perhaps the last one. -/

theorem endsLine_passage {before : List (List Char)} (h : ∀ line ∈ before, Text.endsLine line = true)
    {segment : Segment} (hmem : segment ∈ passage before) : Text.endsLine segment.render = true := by
  obtain ⟨hne, rfl⟩ := mem_passage hmem
  exact Text.endsLine_flatten hne h

theorem pairwise_passage (before : List (List Char)) (R : Segment → Segment → Prop) :
    (passage before).Pairwise R := by
  cases before with
  | nil => simp [passage_nil]
  | cons line before => simp [passage_of_ne_nil (List.cons_ne_nil line before)]

theorem Reads.pairwise_endsLine {ls : List (List Char)} {segments : List Segment}
    (h : Reads ls segments) (hls : Text.Lined ls) :
    segments.Pairwise fun segment _ => Text.endsLine segment.render = true := by
  induction h with
  | prose => exact pairwise_passage _ _
  | unclosed =>
      refine List.pairwise_append.mpr ⟨pairwise_passage _ _, by simp, ?_⟩
      intro segment hmem _ _
      exact endsLine_passage ((Text.lined_append.mp hls).2.2 (by simp)) hmem
  | @closed before body after openLine closeLine fence segments hbefore hopen hbody hclose hafter ih =>
      obtain ⟨-, hblock, hbeforeEnds⟩ := Text.lined_append.mp hls
      obtain ⟨-, hrest, -⟩ := Text.lined_cons.mp hblock
      obtain ⟨hcloseLine, hafterLines, hcloseEnds⟩ :=
        Text.lined_cons.mp (Text.lined_append.mp hrest).2.1
      refine List.pairwise_append.mpr ⟨pairwise_passage _ _,
        List.pairwise_cons.mpr ⟨?_, ih hafterLines⟩, ?_⟩
      · intro segment hmem
        have hne : after ≠ [] := by
          rintro rfl
          rw [← hafter.ofLines_eq, ofLines_prose (by simp), passage_nil] at hmem
          simp at hmem
        rw [render, Block.endsLine_render _ hcloseLine.ne_nil]
        exact hcloseEnds hne
      · intro segment hmem _ _
        exact endsLine_passage (hbeforeEnds (by simp)) hmem

theorem pairwise_endsLine_ofText (cs : List Char) :
    (ofText cs).Pairwise fun segment _ => Text.endsLine segment.render = true :=
  (reads_ofText cs).pairwise_endsLine (Text.lined_lines cs)

end Segment

end ChannelAdapter
