import ChannelAdapter.Proofs.Chunk.Refence
import ChannelAdapter.Proofs.Segment.Shape
/-!
How the blocks that stand for a block that is too large are read again. Each is read as one closed
block unless its part closes the fence early, and only a later piece of a line that is cut hard can
do that.
-/

namespace ChannelAdapter

namespace Block

variable {block : Block} {fence : Fence} {part : List Char}

theorem lines_wrap (hopen : Text.IsLine block.openLine) (hclose : Text.IsLine block.closeLine)
    (hends : Text.endsLine block.openLine = true) (hpart : part ≠ []) :
    Text.lines (block.wrap part) =
      block.openLine :: (Text.lines (part ++ block.lineBreak part) ++ [block.closeLine]) := by
  refine Text.lines_eq_iff.mpr ⟨?_, ?_⟩
  · have hlined := Text.lined_lines (part ++ block.lineBreak part)
    refine Text.lined_cons.mpr ⟨hopen, Text.lined_append.mpr ⟨hlined, Text.lined_singleton hclose, ?_⟩,
      fun _ => hends⟩
    intro _ line hline
    refine hlined.endsLine_of_mem ?_ hline
    rw [Text.flatten_lines]
    exact endsLine_append_lineBreak hpart
  · rw [List.flatten_cons, List.flatten_append, Text.flatten_lines, List.flatten_singleton, wrap]
    simp

theorem ofText_wrap_iff (hblock : block.Fenced fence) (hbody : block.body ≠ []) (hpart : part ≠ []) :
    Segment.ofText (block.wrap part) =
        [.fenced ⟨block.openLine, part ++ block.lineBreak part, block.closeLine⟩ .written] ↔
      ∀ line ∈ Text.lines part, fence.closedBy line = false := by
  rw [← closedBy_lines_lineBreak block hpart]
  constructor
  · intro hread
    have hmem : Segment.fenced ⟨block.openLine, part ++ block.lineBreak part, block.closeLine⟩
        .written ∈ Segment.ofText (block.wrap part) := by
      rw [hread]
      exact List.mem_singleton_self _
    obtain ⟨fence', hfenced, -⟩ := Segment.exists_fenced_of_mem hmem
    have hfence : fence' = fence := Option.some.inj (hfenced.opens.symm.trans hblock.opens)
    rw [hfence] at hfenced
    exact hfenced.body_open
  · intro hopen
    have hreads : Segment.Reads ([] ++ block.openLine ::
        (Text.lines (part ++ block.lineBreak part) ++ block.closeLine :: [])) _ :=
      .closed (by simp) hblock.opens hopen hblock.closes (.prose (by simp))
    have hread := hreads.ofLines_eq
    rw [List.nil_append, Text.flatten_lines,
      ← lines_wrap hblock.isLine_open hblock.isLine_close (hblock.endsLine_open hbody) hpart] at hread
    exact hread

end Block

namespace Chunk

/-- A part that the fence takes for its closing line: a piece of a line that is too long, other than
the first one. -/
def ClosesEarly (fence : Fence) (budget : Nat) (body part : List Char) : Prop :=
  fence.closedBy part = true ∧ ∃ line ∈ Text.lines body, budget < lineCost line ∧
    part ∈ (hardPieces (budget - 1) line).tail

variable {block : Block} {fence : Fence} {budget : Nat} {part : List Char}

theorem lines_of_mem_hardPieces {body line : List Char} (hline : line ∈ Text.lines body)
    (hpart : part ∈ hardPieces (budget - 1) line) : Text.lines part = [part] := by
  have hpiece := hardPiece_of_mem hpart
  have hisLine := (Text.lined_lines body).isLine line hline
  exact Text.lines_of_isLine (hisLine.of_infix hpiece.isInfix hpiece.ne_nil)

theorem closedBy_lines_part_iff (hblock : block.Fenced fence)
    (hpart : part ∈ bodyParts budget .empty (Text.lines block.body)) :
    (∀ line ∈ Text.lines part, fence.closedBy line = false) ↔
      ¬ ClosesEarly fence budget block.body part := by
  constructor
  · rintro hopen ⟨hcloses, line, hline, hlong, htail⟩
    have hlines := lines_of_mem_hardPieces hline (List.mem_of_mem_tail htail)
    have hpartOpen := hopen part (by simp [hlines])
    rw [hcloses] at hpartOpen
    cases hpartOpen
  · intro hnot l hl
    rcases mem_bodyParts hpart with ⟨run, -, hwithin, rfl, -⟩ | ⟨line, hline, hlong, hpiece⟩
    · have hrun : Text.Lined run := by
        obtain ⟨earlier, later, hsplit⟩ := hwithin
        have hlined := Text.lined_lines block.body
        rw [← hsplit] at hlined
        exact (Text.lined_append.mp (Text.lined_append.mp hlined).1).2.1
      rw [Text.lines_flatten hrun] at hl
      exact hblock.body_open l (hwithin.subset hl)
    · rw [lines_of_mem_hardPieces hline hpiece, List.mem_singleton] at hl
      subst hl
      rw [← Bool.not_eq_true]
      intro hcloses
      cases hpieces : hardPieces (budget - 1) line with
      | nil => simp [hpieces] at hpiece
      | cons first pieces =>
          rw [hpieces] at hpiece
          rcases List.mem_cons.mp hpiece with rfl | hlater
          · -- The first piece begins its line, which would close the fence too.
            obtain ⟨tail, rfl⟩ := prefix_of_hardPieces_eq_cons hpieces
            have hlineOpen := hblock.body_open _ hline
            rw [Fence.closedBy_append hcloses] at hlineOpen
            cases hlineOpen
          · exact hnot ⟨hcloses, line, hline, hlong, by simpa [hpieces] using hlater⟩

/-- The blocks that stand for a block that is taken apart: each is read again as one closed block
with its part of the body, unless the part closes the fence early. -/
theorem refence_read_back {text : String} {block : Block} {closing : Closing} {limit : Nat}
    (hblock : .fenced block closing ∈ Segment.ofText text.toList) (hwide : limit < block.width)
    (hroom : block.overhead + 2 ≤ limit) :
    refence block limit =
        (bodyParts (limit - block.overhead) .empty (Text.lines block.body)).map block.wrap ∧
      ∃ fence, Fence.ofLine? block.openLine = some fence ∧
        ∀ part ∈ bodyParts (limit - block.overhead) .empty (Text.lines block.body),
          Segment.ofText (block.wrap part) =
              [.fenced ⟨block.openLine, part ++ block.lineBreak part, block.closeLine⟩ .written] ↔
            ¬ ClosesEarly fence (limit - block.overhead) block.body part := by
  obtain ⟨fence, hfenced, -⟩ := Segment.exists_fenced_of_mem hblock
  refine ⟨refence_of_splits hwide hroom, fence, hfenced.opens, ?_⟩
  intro part hpart
  have hbody : block.body ≠ [] := by
    intro hbody
    rw [hbody] at hpart
    simp [bodyParts, pendingPart, Text.Buffer.isEmpty, Text.Buffer.empty] at hpart
  rw [Block.ofText_wrap_iff hfenced hbody (ne_nil_of_mem_bodyParts hpart),
    closedBy_lines_part_iff hfenced hpart]

theorem refence_read_back_backticks :
    ∃ block closing, .fenced block closing ∈ Segment.ofText "```\nxxx```\n```\n".toList ∧
      12 < block.width ∧ block.overhead + 2 ≤ 12 ∧
      refence block 12 =
          (bodyParts (12 - block.overhead) .empty (Text.lines block.body)).map block.wrap ∧
        ∃ fence, Fence.ofLine? block.openLine = some fence ∧
          ∀ part ∈ bodyParts (12 - block.overhead) .empty (Text.lines block.body),
            Segment.ofText (block.wrap part) =
                [.fenced ⟨block.openLine, part ++ block.lineBreak part, block.closeLine⟩ .written] ↔
              ¬ ClosesEarly fence (12 - block.overhead) block.body part := by
  have hblock : .fenced ⟨"```\n".toList, "xxx```\n".toList, "```\n".toList⟩ .written ∈
      Segment.ofText "```\nxxx```\n```\n".toList := by
    decide +kernel
  have hwide : 12 < Block.width ⟨"```\n".toList, "xxx```\n".toList, "```\n".toList⟩ := by decide
  have hroom : Block.overhead ⟨"```\n".toList, "xxx```\n".toList, "```\n".toList⟩ + 2 ≤ 12 := by
    decide
  exact ⟨_, _, hblock, hwide, hroom, refence_read_back hblock hwide hroom⟩

/-- A line of backticks that a hard cut begins anew is taken for the closing line. -/
theorem not_forall_refence_read_back :
    ¬ ∀ (text : String) (block : Block) (closing : Closing) (limit : Nat),
      .fenced block closing ∈ Segment.ofText text.toList → limit < block.width →
        block.overhead + 2 ≤ limit → ∀ blockText ∈ refence block limit,
          ∃ body, Segment.ofText blockText =
            [.fenced ⟨block.openLine, body, block.closeLine⟩ .written] := by
  intro hall
  have hread := hall "```\nxxx```\n```\n" ⟨"```\n".toList, "xxx```\n".toList, "```\n".toList⟩
    .written 12 (by decide +kernel) (by decide) (by decide) "```\n```\n```\n".toList
    (by decide +kernel)
  obtain ⟨body, hread⟩ := hread
  have hsegments : Segment.ofText "```\n```\n```\n".toList =
      [.fenced ⟨"```\n".toList, [], "```\n".toList⟩ .written,
        .fenced ⟨"```\n".toList, [], "```\n".toList⟩ .supplied] := by
    decide +kernel
  rw [hsegments] at hread
  simp at hread

end Chunk

end ChannelAdapter
