import ChannelAdapter.Proofs.Chunk.Draft
import ChannelAdapter.Proofs.Chunk.Refence
import ChannelAdapter.Proofs.Chunk.Strategy
import ChannelAdapter.Proofs.Segment.Shape
/-!
Chunks lose nothing but spaces. The chunks of a text are slices, in order, of what is sent for it:
its segments, a block that is taken apart being replaced by the blocks that stand for it.
-/

namespace ChannelAdapter

def Segment.sent (limit : Nat) : Segment → List Char
  | .plain text => text
  | .fenced block _ =>
      if limit < block.width ∧ block.overhead + 2 ≤ limit then (Chunk.refence block limit).flatten
      else block.render

section
variable {limit : Nat} {block : Block} {closing : Closing}

theorem Segment.sent_of_fits (h : block.width ≤ limit) :
    (Segment.fenced block closing).sent limit = block.render := by
  rw [Segment.sent, if_neg (by omega)]

theorem Segment.sent_of_wide (h : limit < block.width) :
    (Segment.fenced block closing).sent limit = (Chunk.refence block limit).flatten := by
  by_cases hroom : block.overhead + 2 ≤ limit
  · rw [Segment.sent, if_pos ⟨h, hroom⟩]
  · rw [Segment.sent, if_neg (by omega), Chunk.refence_of_no_room (Nat.not_le.mp hroom),
      List.flatten_singleton]

end

namespace Chunk

/-- The chunks are slices of the text in order, not empty, and only spaces stand before, between and
after them. -/
inductive Covers : List (List Char) → List Char → Prop
  | spaces {gap : List Char} (hgap : Text.Spaces gap) : Covers [] gap
  | chunk {gap chunk text : List Char} {chunks : List (List Char)} (hgap : Text.Spaces gap)
      (hchunk : chunk ≠ []) (hchunks : Covers chunks text) :
      Covers (chunk :: chunks) (gap ++ chunk ++ text)

theorem Covers.nil : Covers [] [] :=
  .spaces (by simp [Text.Spaces])

theorem Covers.gap_append {chunks : List (List Char)} {text gap : List Char}
    (hgap : Text.Spaces gap) (h : Covers chunks text) : Covers chunks (gap ++ text) := by
  cases h with
  | spaces hmore => exact .spaces (hgap.append hmore)
  | chunk hmore hchunk hchunks =>
      rw [← List.append_assoc, ← List.append_assoc]
      exact .chunk (hgap.append hmore) hchunk hchunks

theorem Covers.append {front back : List (List Char)} {a b : List Char} (ha : Covers front a)
    (hb : Covers back b) : Covers (front ++ back) (a ++ b) := by
  induction ha with
  | spaces hgap => exact hb.gap_append hgap
  | chunk hgap hchunk _ ih =>
      rw [List.append_assoc]
      exact .chunk hgap hchunk ih

theorem Covers.append_gap {chunks : List (List Char)} {text gap : List Char}
    (h : Covers chunks text) (hgap : Text.Spaces gap) : Covers chunks (text ++ gap) := by
  have happend := h.append (.spaces hgap)
  rwa [List.append_nil] at happend

theorem Covers.singleton {chunk gap : List Char} (hchunk : chunk ≠ []) (hgap : Text.Spaces gap) :
    Covers [chunk] (chunk ++ gap) :=
  have hempty : Text.Spaces [] := by simp [Text.Spaces]
  .chunk hempty hchunk (.spaces hgap)

theorem Covers.ne_nil {chunks : List (List Char)} {text chunk : List Char}
    (h : Covers chunks text) (hmem : chunk ∈ chunks) : chunk ≠ [] := by
  induction h with
  | spaces => cases hmem
  | chunk _ hchunk _ ih =>
      rcases List.mem_cons.mp hmem with rfl | hmem
      · exact hchunk
      · exact ih hmem

theorem Covers.isInfix {chunks : List (List Char)} {text chunk : List Char}
    (h : Covers chunks text) (hmem : chunk ∈ chunks) : chunk <:+: text := by
  induction h with
  | spaces => cases hmem
  | @chunk gap _ text _ _ _ _ ih =>
      rcases List.mem_cons.mp hmem with rfl | hmem
      · exact ⟨gap, text, rfl⟩
      · exact (ih hmem).trans (List.suffix_append _ _).isInfix

theorem covers_finish (piece : List Char) : Covers (finish piece) piece := by
  by_cases hpiece : Text.Spaces piece
  · rw [finish_of_spaces hpiece]
    exact .spaces hpiece
  · obtain ⟨gap, hgap, hsplit⟩ := Text.exists_eq_trimEnd_append piece
    rw [finish_of_not_spaces hpiece]
    conv => arg 2; rw [hsplit]
    exact .singleton (mt Text.trimEnd_eq_nil_iff.mp hpiece) hgap

theorem covers_flatMap_finish (pieces : List (List Char)) :
    Covers (pieces.flatMap finish) pieces.flatten := by
  induction pieces with
  | nil => exact .nil
  | cons piece pieces ih => exact (covers_finish piece).append ih

/-! Prose. -/

theorem covers_plain (limit : Nat) (cs : List Char) : Covers (plain limit cs) cs := by
  induction cs using plain_induction limit with
  | nil =>
      rw [plain_nil]
      exact .nil
  | fits cs hcs hfits =>
      have hwhole : Covers [cs] (cs ++ []) := .singleton hcs (by simp [Text.Spaces])
      rwa [List.append_nil, ← plain_of_fits hcs hfits] at hwhole
  | cut cs hcs hfits ih =>
      obtain ⟨gap, hgap, hsplit⟩ := exists_eq_piece_append_rest cs limit
      rw [plain_of_not_fits hcs hfits]
      conv => arg 2; rw [hsplit]
      exact ((covers_finish _).append_gap hgap).append ih

/-! Drafts. -/

namespace Draft

/-- The finished chunks cover a text up to where the current one begins. -/
def Carries (d : Draft) (text : List Char) : Prop :=
  ∃ settled, text = settled ++ d.current.text ∧ Covers d.done.reverse settled

theorem carries_empty : empty.Carries [] :=
  ⟨[], rfl, .nil⟩

variable {d : Draft} {text : List Char}

theorem Carries.push (h : d.Carries text) (cs : List Char) : (d.push cs).Carries (text ++ cs) := by
  obtain ⟨settled, rfl, hcovers⟩ := h
  exact ⟨settled, by simp, hcovers⟩

theorem Carries.flush (h : d.Carries text) : d.flush.Carries text := by
  obtain ⟨settled, rfl, hcovers⟩ := h
  refine ⟨_, (List.append_nil _).symm, ?_⟩
  rw [done_flush, List.reverse_append, reverse_finish]
  exact hcovers.append (covers_finish _)

theorem Carries.skip (h : d.Carries text) (hcurrent : d.current.text = []) {gap : List Char}
    (hgap : Text.Spaces gap) : d.Carries (text ++ gap) := by
  obtain ⟨settled, rfl, hcovers⟩ := h
  refine ⟨settled ++ gap, by simp [hcurrent], hcovers.append_gap hgap⟩

theorem Carries.emit (h : d.Carries text) (hcurrent : d.current.text = [])
    (pieces : List (List Char)) : (d.emit pieces).Carries (text ++ pieces.flatten) := by
  obtain ⟨settled, rfl, hcovers⟩ := h
  refine ⟨settled ++ pieces.flatten, by simp [hcurrent], ?_⟩
  rw [done_emit, List.reverse_append, List.reverse_reverse]
  exact hcovers.append (covers_flatMap_finish pieces)

theorem carries_appendPlain (limit : Nat) (d : Draft) (cs : List Char) :
    ∀ text, d.Carries text → (d.appendPlain limit cs).Carries (text ++ cs) := by
  fun_induction Draft.appendPlain limit d cs with
  | case1 =>
      intro text h
      rwa [List.append_nil]
  | case2 d cs =>
      intro text h
      exact h.push cs
  | case3 d cs _ _ _ ih =>
      intro text h
      exact ih _ h.flush
  | case4 d cs _ _ _ _ filled ih =>
      intro text h
      obtain ⟨gap, hgap, hsplit⟩ := exists_eq_piece_append_rest cs (d.room limit)
      obtain ⟨trimmed, htrimmed, hpiece⟩ :=
        Text.exists_eq_trimEnd_append (piece cs (d.room limit))
      -- The spaces on both sides of the cut are skipped, so the rest begins a chunk after them.
      have hfilled : filled.flush.Carries (text ++ Text.trimEnd (piece cs (d.room limit))) :=
        (h.push _).flush
      have hskipped := (hfilled.skip filled.text_flush htrimmed).skip filled.text_flush hgap
      have hrest := ih _ hskipped
      conv => arg 2; rw [hsplit, hpiece]
      simpa using hrest

theorem Carries.appendBlock {limit : Nat} {block : Block} {closing : Closing}
    (h : d.Carries text) :
    (d.appendBlock limit block).Carries (text ++ (Segment.fenced block closing).sent limit) := by
  rw [Draft.appendBlock]
  by_cases hwide : limit < block.width
  · rw [if_pos hwide, Segment.sent_of_wide hwide]
    exact h.flush.emit d.text_flush _
  · rw [if_neg hwide, Segment.sent_of_fits (Nat.not_lt.mp hwide)]
    split
    · exact h.flush.push _
    · exact h.push _

theorem Carries.append {limit : Nat} {segment : Segment} (h : d.Carries text) :
    (d.append limit segment).Carries (text ++ segment.sent limit) := by
  cases segment with
  | plain cs => exact carries_appendPlain limit d cs text h
  | fenced block closing => exact h.appendBlock

theorem Carries.foldl {limit : Nat} (h : d.Carries text) (segments : List Segment) :
    (segments.foldl (Draft.append limit) d).Carries (text ++ segments.flatMap (Segment.sent limit)) := by
  induction segments generalizing d text with
  | nil => simpa using h
  | cons segment segments ih =>
      rw [List.foldl_cons, List.flatMap_cons, ← List.append_assoc]
      exact ih h.append

theorem Carries.covers (h : d.Carries text) : Covers d.chunks text := by
  obtain ⟨settled, rfl, hcovers⟩ := h
  rw [chunks_eq]
  exact hcovers.append (covers_finish _)

end Draft

theorem covers_fenced (limit : Nat) (cs : List Char) :
    Covers (fenced limit cs) ((Segment.ofText cs).flatMap (Segment.sent limit)) :=
  (Draft.carries_empty.foldl (Segment.ofText cs)).covers

/-! Texts that are sent as they are. -/

theorem flatMap_sent_of_whole {limit : Nat} {cs : List Char}
    (h : ∀ block closing, .fenced block closing ∈ Segment.ofText cs →
      closing = .written ∧ (block.width ≤ limit ∨ limit < block.overhead + 2)) :
    (Segment.ofText cs).flatMap (Segment.sent limit) = cs := by
  conv => rhs; rw [← Segment.flatMap_source_ofText cs]
  refine List.flatMap_congr ?_
  intro segment hmem
  cases segment with
  | plain text => rfl
  | fenced block closing =>
      obtain ⟨rfl, hwhole⟩ := h block closing hmem
      rw [Segment.sent, if_neg (by omega)]
      exact Segment.render_of_written hmem

/-- No part of a text is lost, repeated or moved; only spaces are dropped, where chunks meet. -/
theorem chunks_cover (text : String) (limit : Nat) :
    (0 < limit → limit < text.utf8ByteSize →
      Covers ((Strategy.fenced.chunk text limit).map String.toList)
          ((Segment.ofText text.toList).flatMap (Segment.sent limit)) ∧
        ((∀ block closing, .fenced block closing ∈ Segment.ofText text.toList →
            closing = .written ∧ (block.width ≤ limit ∨ limit < block.overhead + 2)) →
          (Segment.ofText text.toList).flatMap (Segment.sent limit) = text.toList)) ∧
      Covers ((Strategy.plain.chunk text limit).map String.toList) text.toList := by
  refine ⟨?_, ?_⟩
  · intro hpos hlong
    refine ⟨?_, flatMap_sent_of_whole⟩
    rw [Strategy.map_toList_chunk hpos hlong]
    exact covers_fenced limit text.toList
  · by_cases hempty : text.isEmpty = true
    · rw [Strategy.chunk_of_isEmpty hempty, String.isEmpty_iff.mp hempty]
      exact .nil
    · rw [Bool.not_eq_true] at hempty
      by_cases hlong : 0 < limit ∧ limit < text.utf8ByteSize
      · rw [Strategy.map_toList_chunk hlong.1 hlong.2]
        exact covers_plain limit text.toList
      · rw [Strategy.chunk_of_le hempty (by omega)]
        have hne : text.toList ≠ [] := by simpa [String.isEmpty_iff] using hempty
        have hwhole : Covers [text.toList] (text.toList ++ []) :=
          .singleton hne (by simp [Text.Spaces])
        rwa [List.append_nil] at hwhole

theorem chunks_cover_closed_block :
    0 < 12 ∧ 12 < "one two three four\n```\nx\n```\n".utf8ByteSize ∧
      Covers ((Strategy.fenced.chunk "one two three four\n```\nx\n```\n" 12).map String.toList)
        "one two three four\n```\nx\n```\n".toList := by
  refine ⟨by decide, by decide, ?_⟩
  obtain ⟨hcovers, hsame⟩ :=
    (chunks_cover "one two three four\n```\nx\n```\n" 12).1 (by decide) (by decide)
  have hsegments : Segment.ofText "one two three four\n```\nx\n```\n".toList =
      [.plain "one two three four\n".toList,
        .fenced ⟨"```\n".toList, "x\n".toList, "```\n".toList⟩ .written] := by
    decide +kernel
  rw [hsame] at hcovers
  · exact hcovers
  · intro block closing hmem
    rw [hsegments] at hmem
    simp only [List.mem_cons, reduceCtorEq, false_or, Segment.fenced.injEq, List.not_mem_nil,
      or_false] at hmem
    obtain ⟨rfl, rfl⟩ := hmem
    exact ⟨rfl, .inl (by decide)⟩

end Chunk

end ChannelAdapter
