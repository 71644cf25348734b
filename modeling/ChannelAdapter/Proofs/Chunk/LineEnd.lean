import ChannelAdapter.Segment
import ChannelAdapter.Proofs.Chunk.Body
import ChannelAdapter.Proofs.Text.LineEnd
/-!
Line ends of lines that are cut hard. The end of a line goes with the last piece of its content if
there is room for it. Where there is none, a newline by itself is left out, but a carriage return
and a newline are a piece of their own.
-/

namespace ChannelAdapter.Chunk

section
variable {budget : Nat}

theorem hardPieces_nil : hardPieces budget [] = [] := by
  rw [hardPieces, dif_pos rfl]

theorem hardPieces_of_cut {line front back : List Char} (hline : front ++ back = line)
    (hfront : front ≠ []) (hcut : Text.hardCut line budget = Text.width front) :
    hardPieces budget line = if front = ['\n'] then [] else front :: hardPieces budget back := by
  have hne : line ≠ [] := by
    rintro rfl
    exact hfront (List.append_eq_nil_iff.mp hline).1
  have hsplit : Text.splitAt (Text.hardCut line budget) line = (front, back) := by
    rw [hcut, ← hline, Text.splitAt_width]
  rw [hardPieces, dif_neg hne]
  simp only [hsplit]

theorem hardPieces_of_fits {cs : List Char} (hcs : cs ≠ []) (hnewline : cs ≠ ['\n'])
    (hfits : Text.width cs ≤ budget) : hardPieces budget cs = [cs] := by
  rw [hardPieces_of_cut (List.append_nil cs) hcs (Text.hardCut_of_fits hcs hfits), if_neg hnewline,
    hardPieces_nil]

theorem hardPieces_of_isLineEnd {e : List Char} (h : Text.IsLineEnd e) :
    hardPieces budget e = if e = ['\n'] then [] else [e] := by
  rw [hardPieces_of_cut (List.append_nil e) h.ne_nil (Text.hardCut_of_isLineEnd h budget),
    hardPieces_nil]

theorem exists_hardCut_eq {cs : List Char} (hcs : cs ≠ []) (budget : Nat) :
    ∃ front back, front ++ back = cs ∧ front ≠ [] ∧ Text.hardCut cs budget = Text.width front := by
  obtain ⟨front, back, hsplit, hwidth⟩ := Text.isBoundary_hardCut cs budget
  refine ⟨front, back, hsplit.symm, ?_, hwidth.symm⟩
  have hpos := Text.hardCut_pos hcs budget
  rw [← hwidth] at hpos
  exact Text.width_pos.mp hpos

/-- The pieces of a line are those of its content, the last one with the line end if it fits. -/
theorem hardPieces_append (budget : Nat) {content e : List Char} (hend : Text.EndsWith content e)
    (hcontent : content ≠ []) (hnewline : '\n' ∉ content) :
    ∃ front last, hardPieces budget content = front ++ [last] ∧ last <:+ content ∧
      hardPieces budget (content ++ e) =
        if Text.width last + Text.width e ≤ budget then front ++ [last ++ e]
        else front ++ last :: hardPieces budget e := by
  by_cases hfits : Text.width content ≤ budget
  · have hpieces : hardPieces budget content = [content] :=
      hardPieces_of_fits hcontent (by rintro rfl; simp at hnewline) hfits
    refine ⟨[], content, hpieces, List.suffix_rfl, ?_⟩
    have hcut := Text.hardCut_append hend hcontent budget
    by_cases hroom : Text.width content + Text.width e ≤ budget
    · rw [if_pos hroom, ← Text.width_append] at hcut
      rw [if_pos hroom, hardPieces_of_cut (List.append_nil _) (by simp [hcontent]) hcut, if_neg,
        hardPieces_nil, List.nil_append]
      intro hsingle
      have hlength := congrArg List.length hsingle
      have hcontentPos := List.length_pos_iff.mpr hcontent
      have hendPos := List.length_pos_iff.mpr hend.isLineEnd.ne_nil
      rw [List.length_append, List.length_singleton] at hlength
      omega
    · rw [if_neg hroom, Text.hardCut_of_fits hcontent hfits] at hcut
      rw [if_neg hroom, hardPieces_of_cut rfl hcontent hcut,
        if_neg (by rintro rfl; simp at hnewline), List.nil_append]
  · -- the cut falls into the content, as it does without a line end
    obtain ⟨front, back, hsplit, hfront, hcut⟩ := exists_hardCut_eq hcontent budget
    have hfrontNewline : front ≠ ['\n'] := by
      rintro rfl
      exact hnewline (hsplit ▸ List.mem_cons_self)
    have hpieces : hardPieces budget content = front :: hardPieces budget back := by
      rw [hardPieces_of_cut hsplit hfront hcut, if_neg hfrontNewline]
    have hcutEnd : Text.hardCut (content ++ e) budget = Text.width front := by
      rw [Text.hardCut_append hend hcontent, if_neg (by omega), hcut]
    have hpiecesEnd :
        hardPieces budget (content ++ e) = front :: hardPieces budget (back ++ e) := by
      have hsplitEnd : front ++ (back ++ e) = content ++ e := by rw [← hsplit, List.append_assoc]
      rw [hardPieces_of_cut hsplitEnd hfront hcutEnd, if_neg hfrontNewline]
    by_cases hback : back = []
    · subst hback
      rw [List.append_nil] at hsplit
      subst hsplit
      refine ⟨[], front, by rw [hpieces, hardPieces_nil, List.nil_append], List.suffix_rfl, ?_⟩
      rw [hpiecesEnd, if_neg (by omega), List.nil_append, List.nil_append]
    · have hsuffix : back <:+ content := ⟨front, hsplit⟩
      have hshorter : back.length < content.length := by
        have hfrontPos := List.length_pos_iff.mpr hfront
        rw [← hsplit, List.length_append]
        omega
      obtain ⟨more, last, hmore, hlast, hmoreEnd⟩ := hardPieces_append budget
        (hend.of_suffix hsuffix) hback fun hmem => hnewline (hsuffix.subset hmem)
      refine ⟨front :: more, last, ?_, hlast.trans hsuffix, ?_⟩
      · rw [hpieces, hmore, List.cons_append]
      · rw [hpiecesEnd, hmoreEnd]
        split <;> rfl
termination_by content.length

end

/-! Pieces that are line ends only. -/

theorem mem_hardPieces_newline {budget : Nat} {line piece : List Char}
    (h : piece ∈ hardPieces budget line) (hnewline : '\n' ∈ piece) : '\n' ∈ line :=
  (hardPiece_of_mem h).isInfix.subset hnewline

/-- A piece that is a line end only is a carriage return and a newline that do not fit behind the
last piece of the content. -/
theorem exists_isLineEnd_piece_iff {budget : Nat} {line : List Char} (hline : Text.IsLine line)
    (hcontent : Text.chompLine line ≠ []) :
    (∃ piece ∈ hardPieces budget line, Text.IsLineEnd piece) ↔
      line = Text.chompLine line ++ ['\r', '\n'] ∧
        ∃ last, (hardPieces budget (Text.chompLine line)).getLast? = some last ∧
          budget < Text.width last + 2 := by
  rcases hline.eq_chompLine_or with ⟨hno, hchomp⟩ | ⟨e, hsplit, hend, hno⟩
  · apply iff_of_false
    · rintro ⟨piece, hmem, hpiece⟩
      exact hno (mem_hardPieces_newline hmem hpiece.newline_mem)
    · rintro ⟨hcrlf, -⟩
      rw [hcrlf] at hno
      simp at hno
  · generalize Text.chompLine line = content at *
    subst hsplit
    obtain ⟨front, last, hpieces, hlast, hpiecesEnd⟩ := hardPieces_append budget hend hcontent
      hno
    have hcontentPiece : ∀ piece ∈ front ++ [last], ¬ Text.IsLineEnd piece := by
      intro piece hmem hpiece
      exact hno (mem_hardPieces_newline (hpieces ▸ hmem) hpiece.newline_mem)
    have hlastMem : last ∈ hardPieces budget content := by simp [hpieces]
    have hlastNe : last ≠ [] := (hardPiece_of_mem hlastMem).ne_nil
    rw [hpiecesEnd, hpieces, List.getLast?_concat]
    by_cases hroom : Text.width last + Text.width e ≤ budget
    · rw [if_pos hroom]
      apply iff_of_false
      · rintro ⟨piece, hmem, hpiece⟩
        rcases List.mem_append.mp hmem with hmem | hmem
        · exact hcontentPiece piece (List.mem_append_left _ hmem) hpiece
        · have hlastEnd := (hend.of_suffix hlast).not_isLineEnd_append hlastNe
          exact hlastEnd (List.mem_singleton.mp hmem ▸ hpiece)
      · rintro ⟨hcrlf, last', hlast', hwide⟩
        cases hlast'
        have hwidth : Text.width e = 2 := by rw [(List.append_right_inj content).mp hcrlf]; rfl
        omega
    · rw [if_neg hroom, List.append_cons, hardPieces_of_isLineEnd hend.isLineEnd]
      rcases hend.isLineEnd with rfl | rfl
      · rw [if_pos rfl, List.append_nil]
        apply iff_of_false
        · rintro ⟨piece, hmem, hpiece⟩
          exact hcontentPiece piece hmem hpiece
        · rintro ⟨hcrlf, -⟩
          simp at hcrlf
      · rw [if_neg (by decide)]
        refine iff_of_true ⟨['\r', '\n'], by simp, .inr rfl⟩ ⟨rfl, last, rfl, ?_⟩
        exact Nat.not_le.mp hroom

/-! Blocks. -/

theorem hardPieces_subset_bodyParts {budget : Nat} {line : List Char}
    (hlong : budget < lineCost line) (pending : Text.Buffer) {ls : List (List Char)}
    (hline : line ∈ ls) :
    hardPieces (budget - 1) line ⊆ bodyParts budget pending ls := by
  induction ls generalizing pending with
  | nil => simp at hline
  | cons other ls ih =>
      by_cases hother : budget < lineCost other
      · rw [bodyParts_of_long hother]
        rcases List.mem_cons.mp hline with rfl | hline
        · exact fun piece hpiece => by simp [hpiece]
        · exact List.subset_append_of_subset_right _ (ih .empty hline)
      · have hline : line ∈ ls := by
          rcases List.mem_cons.mp hline with rfl | hline
          · exact absurd hlong hother
          · exact hline
        rcases bodyParts_of_fits (Nat.not_lt.mp hother) pending ls with ⟨-, hparts⟩ | hparts
        · rw [hparts]
          exact List.subset_cons_of_subset _ (ih _ hline)
        · rw [hparts]
          exact ih _ hline

/-- Hard cuts of a line with content make a block for nothing but the line end exactly where the
line ends in a carriage return and a newline, and these do not fit behind the last piece. -/
theorem exists_blank_piece_iff {block : Block} {limit : Nat} (hwide : limit < block.width)
    (hroom : block.overhead + 2 ≤ limit) {line : List Char} (hline : line ∈ Text.lines block.body)
    (hlong : limit - block.overhead < lineCost line) (hcontent : Text.chompLine line ≠ []) :
    (∀ piece ∈ hardPieces (limit - block.overhead - 1) line,
        block.wrap piece ∈ refence block limit) ∧
      ((∃ piece ∈ hardPieces (limit - block.overhead - 1) line, Text.IsLineEnd piece) ↔
        line = Text.chompLine line ++ ['\r', '\n'] ∧
          ∃ last, (hardPieces (limit - block.overhead - 1) (Text.chompLine line)).getLast? =
            some last ∧ limit - block.overhead - 1 < Text.width last + 2) := by
  refine ⟨?_, exists_isLineEnd_piece_iff ((Text.lined_lines block.body).isLine line hline) hcontent⟩
  intro piece hpiece
  rw [refence_of_splits hwide hroom]
  exact List.mem_map_of_mem (hardPieces_subset_bodyParts hlong .empty hline hpiece)

theorem exists_blank_piece_iff_lone_line_end :
    ∃ block : Block, ∃ line, 15 < block.width ∧ block.overhead + 2 ≤ 15 ∧
      line ∈ Text.lines block.body ∧ 15 - block.overhead < lineCost line ∧
      Text.chompLine line ≠ [] ∧
      (∀ piece ∈ hardPieces (15 - block.overhead - 1) line, block.wrap piece ∈ refence block 15) ∧
      ((∃ piece ∈ hardPieces (15 - block.overhead - 1) line, Text.IsLineEnd piece) ↔
        line = Text.chompLine line ++ ['\r', '\n'] ∧
          ∃ last, (hardPieces (15 - block.overhead - 1) (Text.chompLine line)).getLast? =
            some last ∧ 15 - block.overhead - 1 < Text.width last + 2) := by
  have hwide : 15 < Block.width ⟨"```\r\n".toList, "xxxx\r\n".toList, "```\r\n".toList⟩ := by decide
  have hroom : Block.overhead ⟨"```\r\n".toList, "xxxx\r\n".toList, "```\r\n".toList⟩ + 2 ≤ 15 := by
    decide
  have hline : "xxxx\r\n".toList ∈ Text.lines "xxxx\r\n".toList := by decide
  have hlong : 15 - Block.overhead ⟨"```\r\n".toList, "xxxx\r\n".toList, "```\r\n".toList⟩ <
      lineCost "xxxx\r\n".toList := by
    decide
  have hcontent : Text.chompLine "xxxx\r\n".toList ≠ [] := by decide
  exact ⟨_, _, hwide, hroom, hline, hlong, hcontent,
    exists_blank_piece_iff hwide hroom hline hlong hcontent⟩

/-- A line of four letters and a carriage return, cut for a part of five bytes, leaves a block with
nothing in it. -/
theorem not_forall_pieces_have_content :
    ¬ ∀ (text : String) (block : Block) (closing : Closing) (limit : Nat) (line : List Char),
      .fenced block closing ∈ Segment.ofText text.toList → limit < block.width →
        block.overhead + 2 ≤ limit → line ∈ Text.lines block.body →
          limit - block.overhead < lineCost line → Text.chompLine line ≠ [] →
            ∀ piece ∈ hardPieces (limit - block.overhead - 1) line, ¬ Text.IsLineEnd piece := by
  intro hall
  refine hall "```\r\nxxxx\r\n```\r\n" ⟨"```\r\n".toList, "xxxx\r\n".toList, "```\r\n".toList⟩
    .written 15 "xxxx\r\n".toList (by decide +kernel) (by decide) (by decide) (by decide)
    (by decide) (by decide) ['\r', '\n'] ?_ (.inr rfl)
  decide +kernel

end ChannelAdapter.Chunk
