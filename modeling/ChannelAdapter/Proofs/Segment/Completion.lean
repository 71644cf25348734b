import ChannelAdapter.Proofs.Segment.Partition
/-!
Texts in which every fence is closed. A text is completed by writing out the closing line that is
supplied for its last block; this is read as the same segments, and changes no text that is complete.
-/

namespace ChannelAdapter

namespace Block

/-- The block with the newline that its closing line needs as a part of its own text. -/
def broken (block : Block) : Block :=
  if block.body.isEmpty then { block with openLine := block.openLine ++ block.lineBreak [] }
  else { block with body := block.body ++ block.lineBreak block.body }

variable {openLine body closeLine : List Char}

theorem broken_nil : broken ⟨openLine, [], closeLine⟩ =
    ⟨openLine ++ lineBreak ⟨openLine, [], closeLine⟩ [], [], closeLine⟩ :=
  rfl

theorem broken_of_ne_nil (hbody : body ≠ []) : broken ⟨openLine, body, closeLine⟩ =
    ⟨openLine, body ++ lineBreak ⟨openLine, body, closeLine⟩ body, closeLine⟩ :=
  if_neg (by simpa using hbody)

theorem endsLine_openLine_append (block : Block) :
    Text.endsLine (block.openLine ++ block.lineBreak []) = true := by
  cases hends : Text.endsLine block.openLine with
  | true => rw [lineBreak_nil hends, List.append_nil, hends]
  | false => simp [lineBreak, hends]

theorem isLine_openLine_append {block : Block} (h : Text.IsLine block.openLine) :
    Text.IsLine (block.openLine ++ block.lineBreak []) := by
  rcases h.eq_or with hno | ⟨init, -, hinit⟩
  · have hends : Text.endsLine block.openLine = false := by
      rw [← Bool.not_eq_true, Text.endsLine_iff]
      rintro ⟨init, hinit⟩
      simp [hinit] at hno
    have hbreak : block.lineBreak [] = ['\n'] := by simp [lineBreak, hends]
    rw [hbreak]
    exact Text.isLine_concat_newline hno
  · have hends : Text.endsLine block.openLine = true := Text.endsLine_iff.mpr ⟨init, hinit⟩
    rwa [lineBreak_nil hends, List.append_nil]

theorem ofLine?_openLine_append (block : Block) :
    Fence.ofLine? (block.openLine ++ block.lineBreak []) = Fence.ofLine? block.openLine := by
  cases hends : Text.endsLine block.openLine with
  | true => rw [lineBreak_nil hends, List.append_nil]
  | false =>
      have hbreak : block.lineBreak [] = ['\n'] := by simp [lineBreak, hends]
      rw [hbreak, Fence.ofLine?_append_newline]

theorem lineBreak_broken (block : Block) : block.broken.lineBreak block.broken.body = [] := by
  obtain ⟨openLine, body, closeLine⟩ := block
  by_cases hbody : body = []
  · subst hbody
    rw [broken_nil]
    exact lineBreak_nil (endsLine_openLine_append ⟨openLine, [], closeLine⟩)
  · rw [broken_of_ne_nil hbody]
    have hends := @endsLine_append_lineBreak ⟨openLine, body, closeLine⟩ body hbody
    exact lineBreak_eq_nil (Text.ne_nil_of_endsLine hends) hends

theorem render_broken (block : Block) : block.broken.render = block.render := by
  rw [render, wrap, lineBreak_broken, render, wrap]
  obtain ⟨openLine, body, closeLine⟩ := block
  by_cases hbody : body = []
  · subst hbody
    simp [broken_nil]
  · simp [broken_of_ne_nil hbody]

end Block

namespace Segment

def completed : Segment → Segment
  | .plain text => .plain text
  | .fenced block .written => .fenced block .written
  | .fenced block .supplied => .fenced block.broken .written

/-- The text in which the closing lines that are supplied are written out. -/
def complete (cs : List Char) : List Char :=
  (ofText cs).flatMap render

theorem completed_of_not_isLeftOpen {segment : Segment} (h : ¬ segment.IsLeftOpen) :
    segment.completed = segment := by
  cases segment with
  | plain => rfl
  | fenced block closing =>
      cases closing with
      | written => rfl
      | supplied => exact absurd trivial h

theorem not_isLeftOpen_completed (segment : Segment) : ¬ segment.completed.IsLeftOpen := by
  cases segment with
  | plain => exact id
  | fenced block closing => cases closing <;> exact id

theorem map_completed_passage (before : List (List Char)) :
    (passage before).map completed = passage before := by
  cases before with
  | nil => rfl
  | cons line before => rfl

theorem flatMap_render_passage (before : List (List Char)) :
    (passage before).flatMap render = before.flatten := by
  cases before with
  | nil => rfl
  | cons line before =>
      rw [passage_of_ne_nil (List.cons_ne_nil line before), List.flatMap_singleton, render]

/-! Reading what has been completed. -/

theorem exists_lines_broken {openLine : List Char} {body : List (List Char)} {fence : Fence}
    (hlined : Text.Lined (openLine :: body)) (hopen : Fence.ofLine? openLine = some fence)
    (hbody : ∀ line ∈ body, fence.closedBy line = false) :
    ∃ first rest, Block.broken ⟨openLine, body.flatten, fence.closingLine⟩ =
        ⟨first, rest.flatten, fence.closingLine⟩ ∧
      Text.Lined (first :: (rest ++ [fence.closingLine])) ∧ Fence.ofLine? first = some fence ∧
      ∀ line ∈ rest, fence.closedBy line = false := by
  obtain ⟨hopenLine, hbodyLines, hopenEnds⟩ := Text.lined_cons.mp hlined
  have hclose := Text.lined_singleton fence.isLine_closingLine
  by_cases hnil : body = []
  · subst hnil
    refine ⟨_, [], rfl, ?_, ?_, List.forall_mem_nil _⟩
    · have hends := Block.endsLine_openLine_append ⟨openLine, [], fence.closingLine⟩
      exact Text.lined_cons.mpr ⟨Block.isLine_openLine_append hopenLine, hclose, fun _ => hends⟩
    · exact (Block.ofLine?_openLine_append _).trans hopen
  · have hne := hbodyLines.flatten_ne_nil hnil
    generalize hblock : Block.mk openLine body.flatten fence.closingLine = block
    refine ⟨openLine, Text.lines (body.flatten ++ block.lineBreak body.flatten), ?_, ?_, hopen, ?_⟩
    · rw [Text.flatten_lines, ← hblock]
      exact Block.broken_of_ne_nil hne
    · have hlines := Text.lined_lines (body.flatten ++ block.lineBreak body.flatten)
      refine Text.lined_cons.mpr ⟨hopenLine, Text.lined_append.mpr ⟨hlines, hclose, ?_⟩,
        fun _ => hopenEnds hnil⟩
      intro _ line hline
      refine hlines.endsLine_of_mem ?_ hline
      rw [Text.flatten_lines]
      exact Block.endsLine_append_lineBreak hne
    · rw [Block.closedBy_lines_lineBreak block hne, Text.lines_flatten hbodyLines]
      exact hbody

theorem Reads.exists_complete {ls : List (List Char)} {segments : List Segment}
    (h : Reads ls segments) (hls : Text.Lined ls) :
    ∃ whole, Text.Lined whole ∧ whole.flatten = segments.flatMap render ∧
      Reads whole (segments.map completed) ∧ (ls = [] → whole = []) := by
  induction h with
  | @prose before hbefore =>
      refine ⟨before, hls, (flatMap_render_passage before).symm, ?_, id⟩
      rw [map_completed_passage]
      exact .prose hbefore
  | @unclosed before body openLine fence hbefore hopen hbody =>
      obtain ⟨hbeforeLines, hblock, hends⟩ := Text.lined_append.mp hls
      obtain ⟨first, rest, hbroken, hlined, hfirst, hrest⟩ := exists_lines_broken hblock hopen hbody
      refine ⟨before ++ first :: (rest ++ [fence.closingLine]), ?_, ?_, ?_, by simp⟩
      · exact Text.lined_append.mpr ⟨hbeforeLines, hlined, fun _ => hends (by simp)⟩
      · have hrender := Block.render_broken ⟨openLine, body.flatten, fence.closingLine⟩
        have hnone := Block.lineBreak_broken ⟨openLine, body.flatten, fence.closingLine⟩
        rw [hbroken] at hnone
        rw [List.flatMap_append, flatMap_render_passage, List.flatMap_singleton, render, ← hrender,
          hbroken, Block.render, Block.wrap, hnone]
        simp
      · have hread := Reads.closed hbefore hfirst hrest fence.closedBy_closingLine
          (.prose (List.forall_mem_nil _))
        rw [List.map_append, map_completed_passage, List.map_singleton, completed, hbroken]
        exact hread
  | @closed before body after openLine closeLine fence segments hbefore hopen hbody hclose hrest
      ih =>
      obtain ⟨-, -, hbreak⟩ := (Reads.closed hbefore hopen hbody hclose hrest).exists_fenced hls
        (List.mem_append_right _ List.mem_cons_self)
      obtain ⟨hbeforeLines, hblock, hends⟩ := Text.lined_append.mp hls
      obtain ⟨hopenLine, hrest, hopenEnds⟩ := Text.lined_cons.mp hblock
      obtain ⟨hbodyLines, hcloseRest, hbodyEnds⟩ := Text.lined_append.mp hrest
      obtain ⟨hcloseLine, hafter, hcloseEnds⟩ := Text.lined_cons.mp hcloseRest
      obtain ⟨whole, hwhole, hflatten, hreads, hnil⟩ := ih hafter
      refine ⟨before ++ openLine :: (body ++ closeLine :: whole), ?_, ?_, ?_, by simp⟩
      · refine Text.lined_append.mpr ⟨hbeforeLines, Text.lined_cons.mpr ⟨hopenLine,
          Text.lined_append.mpr ⟨hbodyLines, Text.lined_cons.mpr ⟨hcloseLine, hwhole, ?_⟩, ?_⟩,
          ?_⟩, ?_⟩
        · exact fun hne => hcloseEnds fun hafterNil => hne (hnil hafterNil)
        · exact fun _ => hbodyEnds (by simp)
        · exact fun _ => hopenEnds (by simp)
        · exact fun _ => hends (by simp)
      · rw [List.flatMap_append, flatMap_render_passage, List.flatMap_cons, render, Block.render,
          Block.wrap, hbreak rfl, ← hflatten]
        simp
      · rw [List.map_append, map_completed_passage, List.map_cons, completed]
        exact .closed hbefore hopen hbody hclose hreads

theorem ofText_complete (cs : List Char) : ofText (complete cs) = (ofText cs).map completed := by
  obtain ⟨whole, hwhole, hflatten, hreads, -⟩ :=
    (reads_ofText cs).exists_complete (Text.lined_lines cs)
  rw [ofText, complete, Text.lines_eq_iff.mpr ⟨hwhole, hflatten⟩]
  exact hreads.ofLines_eq

/-! What is completed. -/

theorem not_isLeftOpen_of_mem_complete {cs : List Char} {segment : Segment}
    (hmem : segment ∈ ofText (complete cs)) : ¬ segment.IsLeftOpen := by
  rw [ofText_complete] at hmem
  obtain ⟨segment, -, rfl⟩ := List.mem_map.mp hmem
  exact segment.not_isLeftOpen_completed

theorem completed_of_mem_dropLast {cs : List Char} {segment : Segment}
    (hmem : segment ∈ (ofText cs).dropLast) : segment.completed = segment := by
  have hlast := (reads_ofText cs).leftOpen_last
  generalize ofText cs = segments at hmem hlast
  rcases List.eq_nil_or_concat' segments with rfl | ⟨front, last, rfl⟩
  · cases hmem
  · rw [List.dropLast_concat] at hmem
    obtain ⟨-, -, hfront⟩ := List.pairwise_append.mp hlast
    exact completed_of_not_isLeftOpen (hfront segment hmem last (List.mem_singleton_self last))

theorem render_eq_source {cs : List Char} {segment : Segment} (hmem : segment ∈ ofText cs)
    (h : ¬ segment.IsLeftOpen) : segment.render = segment.source := by
  cases segment with
  | plain => rfl
  | fenced block closing =>
      cases closing with
      | written => exact render_of_written hmem
      | supplied => exact absurd trivial h

theorem source_prefix_render {cs : List Char} {segment : Segment} (hmem : segment ∈ ofText cs) :
    segment.source <+: segment.render := by
  cases segment with
  | plain => exact List.prefix_rfl
  | fenced block closing =>
      cases closing with
      | written =>
          have hrender := render_eq_source hmem id
          exact hrender ▸ List.prefix_rfl
      | supplied =>
          rw [source, render, Block.render, Block.wrap,
            List.append_assoc (block.openLine ++ block.body)]
          exact List.prefix_append _ _

theorem prefix_complete (cs : List Char) : cs <+: complete cs := by
  have hrender (segment : Segment) (hmem : segment ∈ ofText cs) := render_eq_source hmem
  have hprefix (segment : Segment) (hmem : segment ∈ ofText cs) := source_prefix_render hmem
  have hlast := (reads_ofText cs).leftOpen_last
  have hsource := flatMap_source_ofText cs
  rw [complete]
  generalize ofText cs = segments at hrender hprefix hlast hsource
  subst hsource
  -- only the last segment grows, so what is before it stays where it is
  induction segments with
  | nil => exact List.prefix_rfl
  | cons segment segments ih =>
      obtain ⟨hclosed, hlast⟩ := List.pairwise_cons.mp hlast
      rw [List.flatMap_cons, List.flatMap_cons]
      cases segments with
      | nil => simpa using hprefix segment List.mem_cons_self
      | cons next segments =>
          rw [hrender segment List.mem_cons_self (hclosed next List.mem_cons_self),
            List.prefix_append_right_inj]
          exact ih (fun s hs => hrender s (.tail _ hs)) (fun s hs => hprefix s (.tail _ hs)) hlast

theorem complete_of_not_isLeftOpen {cs : List Char}
    (h : ∀ segment ∈ ofText cs, ¬ segment.IsLeftOpen) : complete cs = cs := by
  conv => rhs; rw [← flatMap_source_ofText cs]
  exact List.flatMap_congr fun segment hmem => render_eq_source hmem (h segment hmem)

/-- A text that is completed is read as the same segments, the last of which has the closing line that
was supplied for it. A completed text has nothing left to complete; it begins with the text, and is
the text itself if and only if no fence is left open in it. -/
theorem completion_of_text (cs : List Char) :
    ofText (complete cs) = (ofText cs).map completed ∧
      (∀ segment ∈ (ofText cs).dropLast, segment.completed = segment) ∧
      (∀ segment ∈ ofText (complete cs), ¬ segment.IsLeftOpen) ∧
      complete (complete cs) = complete cs ∧
      cs <+: complete cs ∧
      (complete cs = cs ↔ ∀ segment ∈ ofText cs, ¬ segment.IsLeftOpen) := by
  refine ⟨ofText_complete cs, fun _ => completed_of_mem_dropLast,
    fun _ => not_isLeftOpen_of_mem_complete, ?_, prefix_complete cs, ?_, complete_of_not_isLeftOpen⟩
  · exact complete_of_not_isLeftOpen fun _ => not_isLeftOpen_of_mem_complete
  · intro hsame segment hmem
    rw [← hsame] at hmem
    exact not_isLeftOpen_of_mem_complete hmem

end Segment

end ChannelAdapter
