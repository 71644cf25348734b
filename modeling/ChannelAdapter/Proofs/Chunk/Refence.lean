import ChannelAdapter.Chunk.Refence
import ChannelAdapter.Proofs.Text.Line
import ChannelAdapter.Proofs.Text.Cluster
/-!
The parts that a body is shared out in. A part is a run of whole lines whose cost is within the
budget, or a piece of a line that is too long: some clusters of the line, or one wide cluster.
-/

namespace ChannelAdapter.Chunk

/-! Costs. -/

theorem lineCost_append (a : List Char) {line : List Char} (hline : line ≠ []) :
    lineCost (a ++ line) = Text.width a + lineCost line := by
  rw [lineCost, lineCost, Text.width_append, Text.endsLine_append hline, Nat.add_assoc]

theorem length_lineBreak {block : Block} {body : List Char} (hbody : body ≠ []) :
    (block.lineBreak body).length = if Text.endsLine body then 0 else 1 := by
  rw [Block.lineBreak]
  simp only [List.isEmpty_iff, hbody, if_false]
  split <;> rfl

theorem width_wrap {block : Block} {body : List Char} (hbody : body ≠ []) :
    Text.width (block.wrap body) = block.overhead + lineCost body := by
  simp only [Block.wrap, Block.overhead, lineCost, Text.width_append, Block.width_lineBreak,
    length_lineBreak hbody]
  omega

/-! Pieces of a line that is too long. -/

/-- Some clusters of a line that fit together, or one that may not. -/
def HardPiece (budget : Nat) (line piece : List Char) : Prop :=
  ∃ front part back, Text.clusters line = front ++ part ++ back ∧ part ≠ [] ∧
    piece = part.flatten ∧ (Text.width piece ≤ budget ∨ ∃ g, part = [g])

theorem HardPiece.ne_nil {budget : Nat} {line piece : List Char} (h : HardPiece budget line piece) :
    piece ≠ [] := by
  obtain ⟨front, part, back, hclusters, hpart, rfl, -⟩ := h
  exact Text.flatten_ne_nil hclusters hpart

theorem HardPiece.isInfix {budget : Nat} {line piece : List Char} (h : HardPiece budget line piece) :
    piece <:+: line := by
  obtain ⟨front, part, back, hclusters, -, rfl, -⟩ := h
  refine ⟨front.flatten, back.flatten, ?_⟩
  rw [← List.flatten_append, ← List.flatten_append, ← hclusters, Text.flatten_clusters]

theorem splitAt_hardCut (budget : Nat) {line : List Char} (hline : line ≠ []) :
    ∃ front back, Text.clusters line = front ++ back ∧ front ≠ [] ∧
      Text.splitAt (Text.hardCut line budget) line = (front.flatten, back.flatten) ∧
      (Text.width front.flatten ≤ budget ∨ ∃ g, front = [g]) := by
  obtain ⟨front, back, hclusters, hcut, hfront, hwidth⟩ :=
    Text.exists_clusters_hardCut hline budget
  refine ⟨front, back, hclusters, hfront, ?_, ?_⟩
  · conv => lhs; rw [hcut, Text.eq_flatten_append hclusters]
    exact Text.splitAt_width _ _
  · rcases hwidth with hle | ⟨g, hg, -⟩
    · exact .inl hle
    · exact .inr ⟨g, hg⟩

theorem hardPiece_of_mem {budget : Nat} {line piece : List Char}
    (h : piece ∈ hardPieces budget line) : HardPiece budget line piece := by
  fun_induction hardPieces budget line with
  | case1 => simp at h
  | case2 => simp at h
  | case3 line hline _ parts hnewline ih =>
      obtain ⟨front, back, hclusters, hfront, hparts, hwidth⟩ :=
        splitAt_hardCut budget hline
      have hfst : parts.1 = front.flatten := congrArg Prod.fst hparts
      have hsnd : parts.2 = back.flatten := congrArg Prod.snd hparts
      rcases List.mem_cons.mp h with rfl | h
      · exact ⟨[], front, back, hclusters, hfront, hfst, hfst ▸ hwidth⟩
      · obtain ⟨skipped, part, rest, hrest, hpart⟩ := ih h
        rw [hsnd, Text.clusters_flatten hclusters] at hrest
        refine ⟨front ++ skipped, part, rest, ?_, hpart⟩
        rw [hclusters, hrest]
        simp

theorem prefix_of_hardPieces_eq_cons {budget : Nat} {line piece : List Char}
    {pieces : List (List Char)} (h : hardPieces budget line = piece :: pieces) : piece <+: line := by
  have hline : line ≠ [] := by
    rintro rfl
    simp [hardPieces] at h
  rw [hardPieces, dif_neg hline] at h
  dsimp only at h
  split at h
  · simp at h
  · obtain ⟨rfl, -⟩ := List.cons.inj h
    exact ⟨_, Text.splitAt_append _ _⟩

/-! Parts of a body. -/

/-- A run of whole lines that costs no more than the budget. -/
def WholeLines (budget : Nat) (ls : List (List Char)) (part : List Char) : Prop :=
  ∃ run, run ≠ [] ∧ run <:+: ls ∧ part = run.flatten ∧ lineCost part ≤ budget

structure Pending (budget : Nat) (run : List (List Char)) (pending : Text.Buffer) : Prop where
  text_eq : pending.text = run.flatten
  lineCost_le : pending.text = [] ∨ lineCost pending.text ≤ budget

theorem Pending.empty (budget : Nat) : Pending budget [] .empty :=
  ⟨rfl, .inl rfl⟩

theorem Pending.append {budget : Nat} {run : List (List Char)} {pending : Text.Buffer}
    (h : Pending budget run pending) {line : List Char} (hline : line ≠ [])
    (hcost : lineCost line ≤ budget)
    (hroom : pending.text ≠ [] → pending.width + lineCost line ≤ budget) :
    Pending budget (run ++ [line]) (pending.append line) := by
  refine ⟨by simp [h.text_eq], .inr ?_⟩
  rw [Text.Buffer.text_append, lineCost_append _ hline, Text.Buffer.width_text]
  by_cases htext : pending.text = []
  · rw [← Text.Buffer.width_text, htext, Text.width_nil, Nat.zero_add]
    exact hcost
  · exact hroom htext

theorem Pending.wholeLines {budget : Nat} {run : List (List Char)} {pending : Text.Buffer}
    (h : Pending budget run pending) (hne : pending.text ≠ []) (earlier later : List (List Char)) :
    WholeLines budget (earlier ++ run ++ later) pending.text := by
  refine ⟨run, ?_, ⟨earlier, later, rfl⟩, h.text_eq, h.lineCost_le.resolve_left hne⟩
  rintro rfl
  exact hne h.text_eq

theorem WholeLines.ne_nil {budget : Nat} {body part : List Char}
    (h : WholeLines budget (Text.lines body) part) : part ≠ [] := by
  obtain ⟨run, hrun, hwithin, rfl, -⟩ := h
  intro hflatten
  obtain ⟨line, hline⟩ := List.exists_mem_of_ne_nil run hrun
  have hne := ((Text.lined_lines body).isLine line (hwithin.subset hline)).ne_nil
  exact hne (List.flatten_eq_nil_iff.mp hflatten line hline)

theorem mem_pendingPart {pending : Text.Buffer} {part : List Char} (h : part ∈ pendingPart pending) :
    part = pending.text ∧ pending.text ≠ [] := by
  rw [pendingPart] at h
  split at h
  · simp at h
  · next hempty =>
      exact ⟨List.mem_singleton.mp h, fun htext => hempty (Text.Buffer.isEmpty_iff.mpr htext)⟩

section
variable {budget : Nat} {pending : Text.Buffer} {line : List Char} {ls : List (List Char)}

theorem bodyParts_of_long (hlong : budget < lineCost line) :
    bodyParts budget pending (line :: ls) =
      pendingPart pending ++ hardPieces (budget - 1) line ++ bodyParts budget .empty ls := by
  rw [bodyParts, if_pos hlong]

theorem bodyParts_of_full (hcost : lineCost line ≤ budget) (hne : pending.text ≠ [])
    (hfull : budget < pending.width + lineCost line) :
    bodyParts budget pending (line :: ls) =
      pending.text :: bodyParts budget (.append .empty line) ls := by
  have hempty : pending.isEmpty = false := by
    rwa [← Bool.not_eq_true, Text.Buffer.isEmpty_iff]
  rw [bodyParts, if_neg (Nat.not_lt.mpr hcost), if_pos (by simp [hempty, hfull])]

theorem bodyParts_of_room (hcost : lineCost line ≤ budget)
    (hroom : pending.text ≠ [] → pending.width + lineCost line ≤ budget) :
    bodyParts budget pending (line :: ls) = bodyParts budget (pending.append line) ls := by
  rw [bodyParts, if_neg (Nat.not_lt.mpr hcost), if_neg]
  simpa [← Bool.not_eq_true, Text.Buffer.isEmpty_iff] using hroom

/-- What one line adds: the pending lines are given out, or pieces of the line, or a part that comes
later, with some lines settled and the others pending. -/
theorem mem_bodyParts_cons {run : List (List Char)} (hpending : Pending budget run pending)
    (hline : line ≠ []) {part : List Char} (hpart : part ∈ bodyParts budget pending (line :: ls)) :
    (pending.text ≠ [] ∧ part = pending.text) ∨
      (budget < lineCost line ∧ part ∈ hardPieces (budget - 1) line) ∨
        ∃ settled run' pending', settled ++ run' = run ++ [line] ∧ Pending budget run' pending' ∧
          part ∈ bodyParts budget pending' ls := by
  by_cases hlong : budget < lineCost line
  · rw [bodyParts_of_long hlong, List.mem_append, List.mem_append] at hpart
    rcases hpart with (hpart | hpart) | hpart
    · exact .inl (mem_pendingPart hpart).symm
    · exact .inr (.inl ⟨hlong, hpart⟩)
    · exact .inr (.inr ⟨run ++ [line], [], _, List.append_nil _, .empty budget, hpart⟩)
  · have hcost : lineCost line ≤ budget := Nat.not_lt.mp hlong
    by_cases hfull : pending.text ≠ [] ∧ budget < pending.width + lineCost line
    · rw [bodyParts_of_full hcost hfull.1 hfull.2] at hpart
      rcases List.mem_cons.mp hpart with hpart | hpart
      · exact .inl ⟨hfull.1, hpart⟩
      · have hsingle : Pending budget [line] (.append .empty line) :=
          (Pending.empty budget).append hline hcost (by simp)
        exact .inr (.inr ⟨run, [line], _, rfl, hsingle, hpart⟩)
    · have hroom : pending.text ≠ [] → pending.width + lineCost line ≤ budget :=
        fun hne => Nat.not_lt.mp fun h => hfull ⟨hne, h⟩
      rw [bodyParts_of_room hcost hroom] at hpart
      exact .inr (.inr ⟨[], run ++ [line], _, rfl, hpending.append hline hcost hroom, hpart⟩)

/-- A part is a run of whole lines or a piece of a line that is too long. The lines before `ls` are
`earlier`, which are dealt with, and `run`, which are pending. -/
theorem mem_bodyParts_of_pending (earlier : List (List Char)) {run : List (List Char)}
    (hpending : Pending budget run pending) (hls : ∀ line ∈ ls, line ≠ []) {part : List Char}
    (hpart : part ∈ bodyParts budget pending ls) :
    WholeLines budget (earlier ++ run ++ ls) part ∨
      ∃ line ∈ ls, budget < lineCost line ∧ part ∈ hardPieces (budget - 1) line := by
  induction ls generalizing earlier run pending with
  | nil =>
      obtain ⟨rfl, hne⟩ := mem_pendingPart hpart
      exact .inl (hpending.wholeLines hne _ _)
  | cons line ls ih =>
      obtain ⟨hline, hrest⟩ := List.forall_mem_cons.mp hls
      rcases mem_bodyParts_cons hpending hline hpart with
        ⟨hne, rfl⟩ | ⟨hlong, hpiece⟩ | ⟨settled, run', pending', hlines, hpending', hmem⟩
      · exact .inl (hpending.wholeLines hne _ _)
      · exact .inr ⟨line, List.mem_cons_self, hlong, hpiece⟩
      · have hsame : earlier ++ run ++ line :: ls = earlier ++ settled ++ run' ++ ls := by
          rw [List.append_assoc earlier settled, hlines]
          simp
        rw [hsame]
        refine (ih (earlier ++ settled) hpending' hrest hmem).imp_right ?_
        rintro ⟨l, hl, hlong⟩
        exact ⟨l, List.mem_cons_of_mem _ hl, hlong⟩

theorem mem_bodyParts {body part : List Char}
    (hpart : part ∈ bodyParts budget .empty (Text.lines body)) :
    WholeLines budget (Text.lines body) part ∨
      ∃ line ∈ Text.lines body, budget < lineCost line ∧ part ∈ hardPieces (budget - 1) line :=
  mem_bodyParts_of_pending [] (.empty budget)
    (fun line hline => ((Text.lined_lines body).isLine line hline).ne_nil) hpart

theorem ne_nil_of_mem_bodyParts {body part : List Char}
    (hpart : part ∈ bodyParts budget .empty (Text.lines body)) : part ≠ [] := by
  rcases mem_bodyParts hpart with hwhole | ⟨line, -, -, hpiece⟩
  · exact hwhole.ne_nil
  · exact (hardPiece_of_mem hpiece).ne_nil

end

theorem refence_of_splits {block : Block} {limit : Nat} (hwide : limit < block.width)
    (hroom : block.overhead + 2 ≤ limit) :
    refence block limit =
      (bodyParts (limit - block.overhead) .empty (Text.lines block.body)).map block.wrap := by
  rw [refence, if_pos (by simp [splits, hwide, hroom])]

theorem refence_of_no_room {block : Block} {limit : Nat} (hroom : limit < block.overhead + 2) :
    refence block limit = [block.render] := by
  rw [refence, if_neg (by simp [splits, hroom])]

end ChannelAdapter.Chunk
