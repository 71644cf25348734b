import ChannelAdapter.Proofs.Chunk.Agreement
import ChannelAdapter.Proofs.Chunk.Coverage
/-!
Which texts have no chunks: the empty one, and texts of spaces only that do not fit. Of every other
text something is sent, and where a block is taken apart its opening line is.
-/

namespace ChannelAdapter

namespace Chunk

/-! A block is never replaced by nothing. -/

theorem hardPieces_ne_nil {budget : Nat} {line : List Char} (hline : Text.IsLine line)
    (hlong : 1 < lineCost line) : hardPieces budget line ≠ [] := by
  rw [hardPieces, dif_neg hline.ne_nil]
  dsimp only
  split
  · next hnewline =>
      have hsplit := Text.splitAt_append (Text.hardCut line budget) line
      rw [hnewline, List.singleton_append] at hsplit
      -- a newline that begins a line is all of it
      cases hback : (Text.splitAt (Text.hardCut line budget) line).2 with
      | nil =>
          rw [hback] at hsplit
          rw [← hsplit] at hlong
          exact absurd hlong (by decide)
      | cons c back =>
          rw [hback] at hsplit
          apply absurd _ hline.newline_not_mem
          rw [← hsplit]
          exact List.mem_cons_self
  · exact List.cons_ne_nil _ _

theorem bodyParts_ne_nil_of_pending {budget : Nat} {pending : Text.Buffer}
    (hpending : pending.text ≠ []) (ls : List (List Char)) :
    bodyParts budget pending ls ≠ [] := by
  have hpart : pendingPart pending = [pending.text] := by
    rw [pendingPart, if_neg (mt Text.Buffer.isEmpty_iff.mp hpending)]
  induction ls generalizing pending with
  | nil =>
      rw [bodyParts, hpart]
      exact List.cons_ne_nil _ _
  | cons line ls ih =>
      by_cases hlong : budget < lineCost line
      · rw [bodyParts_of_long hlong, hpart]
        exact List.cons_ne_nil _ _
      · have hcost := Nat.not_lt.mp hlong
        by_cases hfull : budget < pending.width + lineCost line
        · rw [bodyParts_of_full hcost hpending hfull]
          exact List.cons_ne_nil _ _
        · rw [bodyParts_of_room hcost fun _ => Nat.not_lt.mp hfull]
          have hmore : (pending.append line).text ≠ [] := by simp [hpending]
          apply ih hmore
          rw [pendingPart, if_neg (mt Text.Buffer.isEmpty_iff.mp hmore)]

theorem bodyParts_ne_nil {budget : Nat} {body : List Char} (hbudget : 2 ≤ budget)
    (hbody : body ≠ []) : bodyParts budget .empty (Text.lines body) ≠ [] := by
  have hlines := Text.lined_lines body
  have hflatten := Text.flatten_lines body
  cases hls : Text.lines body with
  | nil =>
      rw [hls] at hflatten
      exact absurd hflatten.symm hbody
  | cons line ls =>
      have hline := hlines.isLine line (by simp [hls])
      by_cases hlong : budget < lineCost line
      · rw [bodyParts_of_long hlong]
        have hpieces : hardPieces (budget - 1) line ≠ [] := hardPieces_ne_nil hline (by omega)
        simp [hpieces]
      · rw [bodyParts_of_room (Nat.not_lt.mp hlong) fun hne => absurd rfl hne]
        exact bodyParts_ne_nil_of_pending (by simp [hline.ne_nil]) ls

theorem refence_ne_nil (block : Block) (limit : Nat) : refence block limit ≠ [] := by
  by_cases hsplits : limit < block.width ∧ block.overhead + 2 ≤ limit
  · obtain ⟨hwide, hroom⟩ := hsplits
    rw [refence_of_splits hwide hroom]
    have hbody : block.body ≠ [] := by
      intro hempty
      have hbreak : (block.lineBreak []).length ≤ 1 := by
        rw [Block.lineBreak]
        generalize Text.endsLine _ = ended
        cases ended <;> decide
      rw [Block.width, hempty, Text.width_nil] at hwide
      rw [Block.overhead] at hroom
      omega
    simpa using bodyParts_ne_nil (by omega) hbody
  · rw [refence, if_neg (by simpa [splits] using hsplits)]
    exact List.cons_ne_nil _ _

theorem openLine_prefix_wrap (block : Block) (body : List Char) :
    block.openLine <+: block.wrap body := by
  rw [Block.wrap, List.append_assoc, List.append_assoc]
  exact List.prefix_append _ _

theorem openLine_prefix_of_mem_refence {block : Block} {limit : Nat} {piece : List Char}
    (h : piece ∈ refence block limit) : block.openLine <+: piece := by
  rw [refence] at h
  split at h
  · obtain ⟨body, -, rfl⟩ := List.mem_map.mp h
    exact openLine_prefix_wrap block body
  · rw [List.mem_singleton.mp h]
    exact openLine_prefix_wrap block block.body

theorem openLine_prefix_sent (block : Block) (closing : Closing) (limit : Nat) :
    block.openLine <+: (Segment.fenced block closing).sent limit := by
  rw [Segment.sent]
  split
  · obtain ⟨piece, pieces, hpieces⟩ := List.exists_cons_of_ne_nil (refence_ne_nil block limit)
    have hmem : piece ∈ refence block limit := by
      rw [hpieces]
      exact List.mem_cons_self
    rw [hpieces, List.flatten_cons]
    exact (openLine_prefix_of_mem_refence hmem).trans (List.prefix_append _ _)
  · exact openLine_prefix_wrap block block.body

/-! Texts of spaces only. -/

theorem Covers.spaces_of_nil {text : List Char} (h : Covers [] text) : Text.Spaces text := by
  cases h with
  | spaces hgap => exact hgap

section
variable {limit : Nat} {cs : List Char}

theorem plain_eq_nil_iff (hlong : limit < Text.width cs) :
    plain limit cs = [] ↔ Text.Spaces cs := by
  constructor
  · intro hnone
    exact (hnone ▸ covers_plain limit cs).spaces_of_nil
  · intro hspaces
    have hcs : cs ≠ [] := Text.width_pos.mp (Nat.lt_of_le_of_lt (Nat.zero_le limit) hlong)
    have hpiece : Text.Spaces (piece cs limit) := by
      obtain ⟨gap, -, hsplit⟩ := exists_eq_piece_append_rest cs limit
      intro c hc
      apply hspaces
      rw [hsplit]
      simp [hc]
    have hrest : rest cs limit = [] := by
      by_contra hne
      apply Text.not_spaces_of_head? hne (head?_rest_ne cs limit)
      intro c hc
      exact hspaces c ((rest_suffix cs limit).subset hc)
    rw [plain_of_not_fits hcs (mt Text.fits_iff.mp (Nat.not_le.mpr hlong)),
      finish_of_spaces hpiece, hrest, plain_nil, List.append_nil]

theorem fenced_eq_nil_iff (hlong : limit < Text.width cs) :
    fenced limit cs = [] ↔ Text.Spaces cs := by
  by_cases hprose : ∀ block closing, .fenced block closing ∉ Segment.ofText cs
  · rw [← plain_eq_nil_iff hlong, ← List.length_eq_zero_iff, ← List.length_eq_zero_iff,
      (trimsLast_fenced hprose hlong).length_eq]
  · simp only [not_forall, not_not] at hprose
    obtain ⟨block, closing, hmem⟩ := hprose
    obtain ⟨fence, hblock, -⟩ := Segment.exists_fenced_of_mem hmem
    obtain ⟨hsize, hcloses⟩ := Fence.ofLine?_eq_some hblock.opens
    obtain ⟨c, hc, hne⟩ := Fence.exists_ne_space_of_closedBy hsize hcloses
    -- the opening line stands in the text and is sent, and it is not made of spaces
    apply iff_of_false
    · intro hnone
      have hcovers := covers_fenced limit cs
      rw [hnone] at hcovers
      apply hne
      apply hcovers.spaces_of_nil
      exact List.mem_flatMap.mpr
        ⟨_, hmem, (openLine_prefix_sent block closing limit).subset hc⟩
    · intro hspaces
      apply hne
      apply hspaces
      rw [← Segment.flatMap_source_ofText cs]
      refine List.mem_flatMap.mpr ⟨_, hmem, ?_⟩
      cases closing <;> simp [Segment.source, hc]

end

theorem Strategy.chunk_eq_nil_iff (s : Strategy) (text : String) (limit : Nat) :
    s.chunk text limit = [] ↔
      text = "" ∨ 0 < limit ∧ limit < text.utf8ByteSize ∧ Text.Spaces text.toList := by
  by_cases hempty : text.isEmpty = true
  · rw [Strategy.chunk_of_isEmpty hempty]
    exact iff_of_true rfl (.inl (String.isEmpty_iff.mp hempty))
  · have hne : text ≠ "" := fun h => hempty (String.isEmpty_iff.mpr h)
    by_cases hlong : 0 < limit ∧ limit < text.utf8ByteSize
    · obtain ⟨hpos, hlong⟩ := hlong
      have hwidth : limit < Text.width text.toList := by rwa [Text.width_toList]
      have hcut : s.cut limit text.toList = [] ↔ Text.Spaces text.toList := by
        cases s with
        | fenced => exact fenced_eq_nil_iff hwidth
        | plain => exact plain_eq_nil_iff hwidth
      rw [Strategy.chunk_of_lt hpos hlong, List.map_eq_nil_iff, hcut]
      simp [hne, hpos, hlong]
    · rw [Strategy.chunk_of_le (Bool.not_eq_true _ ▸ hempty) (by omega)]
      apply iff_of_false (List.cons_ne_nil _ _)
      rintro (h | ⟨hpos, hsize, -⟩)
      · exact hne h
      · exact hlong ⟨hpos, hsize⟩

end Chunk

end ChannelAdapter
