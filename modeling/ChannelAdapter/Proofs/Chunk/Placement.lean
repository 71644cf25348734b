import ChannelAdapter.Proofs.Chunk.Draft
import ChannelAdapter.Proofs.Chunk.Strategy
import ChannelAdapter.Proofs.Segment.Shape
/-!
Where blocks that fit stand. Each of them is found whole in one chunk, at the start of a line, and
they stand in the order of the text without touching each other.
-/

namespace ChannelAdapter

/-! Closing lines without the spaces that end them. -/

/-- A block whose closing line has lost the spaces that end it. -/
def Block.trimmed (block : Block) : Block :=
  { block with closeLine := Text.trimEnd block.closeLine }

theorem Block.trimEnd_append_render {block : Block} (hclose : ¬ Text.Spaces block.closeLine)
    (before : List Char) :
    Text.trimEnd (before ++ block.render) = before ++ block.trimmed.render := by
  have hne : Text.trimEnd block.closeLine ≠ [] := mt Text.trimEnd_eq_nil_iff.mp hclose
  have hlineBreak : block.trimmed.lineBreak = block.lineBreak := rfl
  rw [render, wrap, ← List.append_assoc, Text.trimEnd_append, if_neg hne, render, wrap, hlineBreak]
  simp [trimmed]

theorem Block.Fenced.closeLine_not_spaces {block : Block} {fence : Fence} (h : block.Fenced fence) :
    ¬ Text.Spaces block.closeLine := by
  obtain ⟨hsize, -⟩ := Fence.ofLine?_eq_some h.opens
  obtain ⟨c, hc, hne⟩ := Fence.exists_ne_space_of_closedBy hsize h.closes
  exact fun hspaces => hne (hspaces c hc)

def Segment.fitting (limit : Nat) (segments : List Segment) : List Block :=
  segments.filterMap fun
    | .plain _ => none
    | .fenced block _ => if block.width ≤ limit then some block else none

namespace Chunk

/-- A place for a block at the start of a line: in a chunk, after the part `before` of it. -/
structure Place where
  block : Block
  index : Nat
  before : List Char
  startsLine : before = [] ∨ Text.endsLine before = true

namespace Place

/-- The block stands there whole, but for the spaces that end its closing line where the chunk ends
with it. -/
def StandsIn (p : Place) (chunks : List (List Char)) : Prop :=
  ∃ chunk, chunks[p.index]? = some chunk ∧
    (p.before ++ p.block.render <+: chunk ∨ chunk = p.before ++ p.block.trimmed.render)

/-- The block of `q` begins in a later chunk, or where that of `p` has ended. -/
def Precedes (p q : Place) : Prop :=
  p.index < q.index ∨ p.index = q.index ∧ p.before ++ p.block.render <+: q.before

theorem StandsIn.index_lt {p : Place} {chunks : List (List Char)} (h : p.StandsIn chunks) :
    p.index < chunks.length := by
  obtain ⟨chunk, hchunk, -⟩ := h
  exact (List.getElem?_eq_some_iff.mp hchunk).1

theorem StandsIn.append {p : Place} {chunks : List (List Char)} (h : p.StandsIn chunks)
    (more : List (List Char)) : p.StandsIn (chunks ++ more) := by
  obtain ⟨chunk, hchunk, hstands⟩ := h
  refine ⟨chunk, ?_, hstands⟩
  rw [List.getElem?_append_left (List.getElem?_eq_some_iff.mp hchunk).1, hchunk]

theorem standsIn_finish {p : Place} {chunks : List (List Char)} {text : List Char}
    (hindex : p.index = chunks.length) (hbegins : p.before ++ p.block.render <+: text)
    (hclose : ¬ Text.Spaces p.block.closeLine) : p.StandsIn (chunks ++ finish text) := by
  have htext : ¬ Text.Spaces text := by
    intro hspaces
    refine hclose fun c hc => hspaces c (hbegins.subset ?_)
    simp [Block.render, Block.wrap, hc]
  refine ⟨Text.trimEnd text, by simp [finish_of_not_spaces htext, hindex], ?_⟩
  refine (Text.prefix_trimEnd_or hbegins).imp_right ?_
  intro htrimmed
  rw [htrimmed, Block.trimEnd_append_render hclose]

end Place

/-! Drafts. -/

namespace Draft

/-- The blocks at the places stand in finished chunks or in the current one, in order. -/
structure Keeps (d : Draft) (places : List Place) : Prop where
  stands : ∀ p ∈ places, p.StandsIn d.done.reverse ∨
    p.index = d.done.length ∧ p.before ++ p.block.render <+: d.current.text
  closes : ∀ p ∈ places, ¬ Text.Spaces p.block.closeLine
  ordered : places.Pairwise Place.Precedes

theorem keeps_empty : empty.Keeps [] :=
  ⟨by simp, by simp, .nil⟩

variable {limit : Nat} {d : Draft} {places : List Place}

theorem Keeps.push (h : d.Keeps places) (cs : List Char) : (d.push cs).Keeps places := by
  refine ⟨?_, h.closes, h.ordered⟩
  intro p hp
  refine (h.stands p hp).imp_right ?_
  rintro ⟨hindex, hbegins⟩
  rw [text_push]
  exact ⟨hindex, hbegins.trans (List.prefix_append _ _)⟩

theorem Keeps.standsIn_done (h : d.Keeps places) {p : Place} (hp : p ∈ places) :
    p.StandsIn (d.done.reverse ++ finish d.current.text) := by
  rcases h.stands p hp with hstands | ⟨hindex, hbegins⟩
  · exact hstands.append _
  · refine Place.standsIn_finish ?_ hbegins (h.closes p hp)
    rw [hindex, List.length_reverse]

theorem Keeps.flush (h : d.Keeps places) : d.flush.Keeps places := by
  refine ⟨?_, h.closes, h.ordered⟩
  intro p hp
  rw [done_flush, List.reverse_append, reverse_finish]
  exact .inl (h.standsIn_done hp)

theorem Keeps.emit (h : d.Keeps places) (hcurrent : d.current.text = [])
    (pieces : List (List Char)) : (d.emit pieces).Keeps places := by
  refine ⟨?_, h.closes, h.ordered⟩
  intro p hp
  have hstands := h.standsIn_done hp
  have hblank : finish [] = [] := finish_of_spaces (by simp [Text.Spaces])
  rw [hcurrent, hblank, List.append_nil] at hstands
  rw [done_emit, List.reverse_append, List.reverse_reverse]
  exact .inl (hstands.append _)

theorem Keeps.appendPlain (h : d.Keeps places) (cs : List Char) :
    (d.appendPlain limit cs).Keeps places := by
  fun_induction Draft.appendPlain limit d cs with
  | case1 => exact h
  | case2 d cs => exact h.push cs
  | case3 d cs _ _ _ ih => exact ih h.flush
  | case4 d cs _ _ _ _ filled ih => exact ih (h.push _).flush

theorem Keeps.appendBlock_of_wide (h : d.Keeps places) {block : Block} (hwide : limit < block.width) :
    (d.appendBlock limit block).Keeps places := by
  rw [Draft.appendBlock, if_pos hwide]
  exact h.flush.emit d.text_flush _

theorem Keeps.push_block (h : d.Keeps places) (hline : d.AtLine) {block : Block}
    (hclose : ¬ Text.Spaces block.closeLine) :
    ∃ place, place.block = block ∧ (d.push block.render).Keeps (places ++ [place]) := by
  refine ⟨⟨block, d.done.length, d.current.text, hline⟩, rfl, ?_, ?_, ?_⟩
  · intro p hp
    rcases List.mem_append.mp hp with hp | hp
    · exact (h.push block.render).stands p hp
    · rw [List.mem_singleton.mp hp, text_push]
      exact .inr ⟨rfl, List.prefix_rfl⟩
  · intro p hp
    rcases List.mem_append.mp hp with hp | hp
    · exact h.closes p hp
    · rwa [List.mem_singleton.mp hp]
  · refine List.pairwise_append.mpr ⟨h.ordered, List.pairwise_singleton _ _, ?_⟩
    intro p hp q hq
    rw [List.mem_singleton.mp hq]
    refine (h.stands p hp).imp_left ?_
    intro hstands
    simpa using hstands.index_lt

theorem Keeps.appendBlock_of_fits (h : d.Keeps places) (hline : d.AtLine) {block : Block}
    (hfits : block.width ≤ limit) (hclose : ¬ Text.Spaces block.closeLine) :
    ∃ place, place.block = block ∧ (d.appendBlock limit block).Keeps (places ++ [place]) := by
  rw [Draft.appendBlock, if_neg (Nat.not_lt.mpr hfits)]
  split
  · exact h.flush.push_block d.atLine_flush hclose
  · exact h.push_block hline hclose

theorem Keeps.append (h : d.Keeps places) (limit : Nat) (hline : d.AtLine) {segment : Segment}
    (hclose : ∀ block closing, segment = .fenced block closing → ¬ Text.Spaces block.closeLine) :
    ∃ more, more.map Place.block = Segment.fitting limit [segment] ∧
      (d.append limit segment).Keeps (places ++ more) := by
  cases segment with
  | plain cs =>
      refine ⟨[], rfl, ?_⟩
      rw [List.append_nil]
      exact h.appendPlain cs
  | fenced block closing =>
      by_cases hfits : block.width ≤ limit
      · obtain ⟨place, rfl, hkeeps⟩ := h.appendBlock_of_fits hline hfits (hclose block closing rfl)
        exact ⟨[place], by simp [Segment.fitting, hfits], hkeeps⟩
      · refine ⟨[], by simp [Segment.fitting, hfits], ?_⟩
        rw [List.append_nil]
        exact h.appendBlock_of_wide (Nat.not_le.mp hfits)

theorem Keeps.foldl (h : d.Keeps places) (limit : Nat) {segments : List Segment}
    (hline : segments ≠ [] → d.AtLine)
    (hends : segments.Pairwise fun segment _ => Text.endsLine segment.render = true)
    (hclose : ∀ block closing, .fenced block closing ∈ segments → ¬ Text.Spaces block.closeLine) :
    ∃ more, more.map Place.block = Segment.fitting limit segments ∧
      (segments.foldl (Draft.append limit) d).Keeps (places ++ more) := by
  induction segments generalizing d places with
  | nil => exact ⟨[], rfl, by rwa [List.append_nil]⟩
  | cons segment segments ih =>
      obtain ⟨hsegment, hrest⟩ := List.pairwise_cons.mp hends
      have hclosed : ∀ block closing, segment = .fenced block closing →
          ¬ Text.Spaces block.closeLine := by
        rintro block closing rfl
        exact hclose block closing List.mem_cons_self
      obtain ⟨first, hfirst, hkeeps⟩ :=
        h.append limit (hline (List.cons_ne_nil _ _)) hclosed
      -- Only the last segment may leave the draft in mid-line, and no block comes after it.
      have hlineRest : segments ≠ [] → (d.append limit segment).AtLine := by
        intro hne
        obtain ⟨next, hnext⟩ := List.exists_mem_of_ne_nil segments hne
        exact (hline (List.cons_ne_nil _ _)).append (hsegment next hnext)
      obtain ⟨more, hmore, hkeepsAll⟩ := ih hkeeps hlineRest hrest fun block closing hmem =>
        hclose block closing (List.mem_cons_of_mem _ hmem)
      refine ⟨first ++ more, ?_, ?_⟩
      · rw [List.map_append, hfirst, hmore, Segment.fitting, Segment.fitting, ← List.filterMap_append,
          List.singleton_append, Segment.fitting]
      · rwa [← List.append_assoc]

theorem Keeps.standsIn_chunks (h : d.Keeps places) {p : Place} (hp : p ∈ places) :
    p.StandsIn d.chunks := by
  rw [chunks_eq]
  exact h.standsIn_done hp

end Draft

/-- Blocks that fit are never taken apart: each stands whole in one chunk, at the start of a line,
and they follow each other as in the text. -/
theorem exists_places_of_fitting (text : String) (limit : Nat) (hpos : 0 < limit)
    (hlong : limit < text.utf8ByteSize) :
    ∃ places : List Place,
      places.map Place.block = Segment.fitting limit (Segment.ofText text.toList) ∧
        (∀ p ∈ places, p.StandsIn ((Strategy.fenced.chunk text limit).map String.toList)) ∧
        places.Pairwise Place.Precedes := by
  have hclose : ∀ block closing, .fenced block closing ∈ Segment.ofText text.toList →
      ¬ Text.Spaces block.closeLine := by
    intro block closing hmem
    obtain ⟨fence, hfenced, -⟩ := Segment.exists_fenced_of_mem hmem
    exact hfenced.closeLine_not_spaces
  obtain ⟨places, hblocks, hkeeps⟩ := Draft.keeps_empty.foldl limit
    (fun _ => .inl Draft.text_empty) (Segment.pairwise_endsLine_ofText text.toList) hclose
  refine ⟨places, hblocks, ?_, hkeeps.ordered⟩
  intro p hp
  rw [Strategy.map_toList_chunk hpos hlong]
  exact hkeeps.standsIn_chunks hp

theorem exists_places_of_two_blocks :
    0 < 24 ∧ 24 < "one two\n```\na\n```\nthree four\n~~~\nb\n~~~  ".utf8ByteSize ∧
      ∃ places : List Place,
        places.map Place.block = [⟨"```\n".toList, "a\n".toList, "```\n".toList⟩,
          ⟨"~~~\n".toList, "b\n".toList, "~~~  ".toList⟩] ∧
        (∀ p ∈ places, p.StandsIn ["one two\n```\na\n```\nthree".toList,
          "four\n~~~\nb\n~~~".toList]) ∧
        places.Pairwise Place.Precedes := by
  refine ⟨by decide, by decide, ?_⟩
  obtain ⟨places, hblocks, hstands, hordered⟩ := exists_places_of_fitting
    "one two\n```\na\n```\nthree four\n~~~\nb\n~~~  " 24 (by decide) (by decide)
  have hfitting : Segment.fitting 24
      (Segment.ofText "one two\n```\na\n```\nthree four\n~~~\nb\n~~~  ".toList) =
        [⟨"```\n".toList, "a\n".toList, "```\n".toList⟩,
          ⟨"~~~\n".toList, "b\n".toList, "~~~  ".toList⟩] := by
    decide +kernel
  have hchunks : (Strategy.fenced.chunk
      "one two\n```\na\n```\nthree four\n~~~\nb\n~~~  " 24).map String.toList =
        ["one two\n```\na\n```\nthree".toList, "four\n~~~\nb\n~~~".toList] := by
    decide +kernel
  rw [hfitting] at hblocks
  rw [hchunks] at hstands
  exact ⟨places, hblocks, hstands, hordered⟩

end Chunk

end ChannelAdapter
