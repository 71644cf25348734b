import ChannelAdapter.Proofs.Chunk.Draft
import ChannelAdapter.Proofs.Chunk.Refence
import ChannelAdapter.Proofs.Chunk.SplitPoint
import ChannelAdapter.Proofs.Chunk.Strategy
import ChannelAdapter.Proofs.Segment.Shape
/-!
How long chunks are. A chunk takes at most the limit, but for single clusters that are wider and for
blocks whose lines leave no room.
-/

namespace ChannelAdapter.Chunk

/-! Chunks that are longer than the limit. -/

/-- A chunk of prose that is one cluster, longer than the limit: what trimming leaves of the first
cluster of the prose that was still to be cut. -/
structure WideCluster (limit : Nat) (prose chunk : List Char) : Prop where
  isCluster : Text.clusters chunk = [chunk]
  isInfix : chunk <:+: prose
  wide : limit < Text.width chunk
  first : ∃ rest, rest <:+ prose ∧ chunk = Text.trimEnd (Text.Cluster.first rest).1

/-- Why a chunk of a text with code blocks may be longer than the limit. -/
inductive Oversized (limit : Nat) (text chunk : List Char) : Prop
  /-- A block whose lines leave no room for a body is left whole. -/
  | block {block : Block} {closing : Closing} (hblock : .fenced block closing ∈ Segment.ofText text)
      (hwide : limit < block.width) (hroom : limit < block.overhead + 2)
      (hchunk : chunk = Text.trimEnd block.render)
  /-- A cluster of prose is left whole. -/
  | cluster {prose : List Char} (hprose : .plain prose ∈ Segment.ofText text)
      (hchunk : WideCluster limit prose chunk)
  /-- A cluster of a body line is left whole. -/
  | part {block : Block} {closing : Closing} {line g : List Char}
      (hblock : .fenced block closing ∈ Segment.ofText text)
      (hwide : limit < block.width) (hroom : block.overhead + 2 ≤ limit)
      (hline : line ∈ Text.lines block.body) (hlong : limit - block.overhead < lineCost line)
      (hcluster : g ∈ Text.clusters line) (hg : limit - block.overhead ≤ Text.width g)
      (hchunk : chunk = Text.trimEnd (block.wrap g))

theorem wideCluster_of_first {limit : Nat} {prose rest : List Char} (hrest : rest <:+ prose)
    (hwide : limit < Text.width (Text.trimEnd (Text.Cluster.first rest).1)) :
    WideCluster limit prose (Text.trimEnd (Text.Cluster.first rest).1) := by
  have hbegins := Text.trimEnd_prefix (Text.Cluster.first rest).1
  have hne : Text.trimEnd (Text.Cluster.first rest).1 ≠ [] :=
    Text.width_pos.mp (Nat.lt_of_le_of_lt (Nat.zero_le limit) hwide)
  refine ⟨Text.clusters_of_prefix_first hbegins hne, ?_, hwide, rest, hrest, rfl⟩
  have hfirst : (Text.Cluster.first rest).1 <+: rest := ⟨_, Text.Cluster.first_append rest⟩
  exact (hbegins.trans hfirst).isInfix.trans hrest.isInfix

/-! Prose. -/

theorem width_finish_piece_le_or {limit : Nat} {prose cs : List Char} (hcs : cs ≠ [])
    (hprose : cs <:+ prose) {chunk : List Char} (hchunk : chunk ∈ finish (piece cs limit)) :
    Text.width chunk ≤ limit ∨ WideCluster limit prose chunk := by
  obtain ⟨rfl, -⟩ := mem_finish hchunk
  rcases width_piece_le_or hcs limit with hle | ⟨-, hpiece, -⟩
  · exact .inl (Nat.le_trans (Text.width_trimEnd_le _) hle)
  · rw [hpiece]
    by_cases hwide : limit < Text.width (Text.trimEnd (Text.Cluster.first cs).1)
    · exact .inr (wideCluster_of_first hprose hwide)
    · exact .inl (Nat.not_lt.mp hwide)

theorem width_plain_le_or {limit : Nat} {prose cs : List Char} (hprose : cs <:+ prose)
    {chunk : List Char} (hchunk : chunk ∈ plain limit cs) :
    Text.width chunk ≤ limit ∨ WideCluster limit prose chunk := by
  induction cs using plain_induction limit with
  | nil => simp at hchunk
  | fits cs hcs hfits =>
      rw [plain_of_fits hcs hfits, List.mem_singleton] at hchunk
      exact .inl (hchunk ▸ Text.fits_iff.mp hfits)
  | cut cs hcs hfits ih =>
      rw [plain_of_not_fits hcs hfits, List.mem_append] at hchunk
      rcases hchunk with hchunk | hchunk
      · exact width_finish_piece_le_or hcs hprose hchunk
      · exact ih ((rest_suffix cs limit).trans hprose) hchunk

/-! Blocks that are taken apart. -/

theorem width_wrap_le_or {limit : Nat} {block : Block} {part : List Char}
    (hroom : block.overhead + 2 ≤ limit)
    (hpart : part ∈ bodyParts (limit - block.overhead) .empty (Text.lines block.body)) :
    Text.width (block.wrap part) ≤ limit ∨
      ∃ line ∈ Text.lines block.body, limit - block.overhead < lineCost line ∧
        part ∈ Text.clusters line ∧ limit - block.overhead ≤ Text.width part := by
  rw [width_wrap (ne_nil_of_mem_bodyParts hpart)]
  rcases mem_bodyParts hpart with ⟨run, -, -, -, hcost⟩ | ⟨line, hline, hlong, hpiece⟩
  · exact .inl (by omega)
  · have hpiece := hardPiece_of_mem hpiece
    rw [lineCost]
    by_cases hfits : Text.width part ≤ limit - block.overhead - 1
    · refine .inl ?_
      split <;> omega
    · obtain ⟨front, clusters, back, hclusters, -, rfl, hwidth⟩ := hpiece
      obtain ⟨g, rfl⟩ := hwidth.resolve_left hfits
      refine .inr ⟨line, hline, hlong, ?_, by omega⟩
      simp [hclusters]

theorem width_refence_le_or {limit : Nat} {text : List Char} {block : Block} {closing : Closing}
    (hblock : .fenced block closing ∈ Segment.ofText text) (hwide : limit < block.width)
    {blockText chunk : List Char} (hmem : blockText ∈ refence block limit)
    (hchunk : chunk ∈ finish blockText) :
    Text.width chunk ≤ limit ∨ Oversized limit text chunk := by
  obtain ⟨rfl, -⟩ := mem_finish hchunk
  by_cases hroom : block.overhead + 2 ≤ limit
  · rw [refence_of_splits hwide hroom] at hmem
    obtain ⟨part, hpart, rfl⟩ := List.mem_map.mp hmem
    rcases width_wrap_le_or hroom hpart with hle | ⟨line, hline, hlong, hcluster, hg⟩
    · exact .inl (Nat.le_trans (Text.width_trimEnd_le _) hle)
    · exact .inr (.part hblock hwide hroom hline hlong hcluster hg rfl)
  · have hroom := Nat.not_le.mp hroom
    rw [refence_of_no_room hroom, List.mem_singleton] at hmem
    exact .inr (.block hblock hwide hroom (hmem ▸ rfl))

/-! Drafts. -/

namespace Draft

/-- The current chunk fits, and so do the finished ones, with exceptions. -/
structure Bounded (limit : Nat) (text : List Char) (d : Draft) : Prop where
  current : Text.width d.current.text ≤ limit
  done : ∀ chunk ∈ d.done, Text.width chunk ≤ limit ∨ Oversized limit text chunk

variable {limit : Nat} {text : List Char} {d : Draft}

theorem bounded_empty (limit : Nat) (text : List Char) : empty.Bounded limit text :=
  ⟨by simp, by simp⟩

theorem Bounded.flush_of_finish (h : d.Bounded limit text)
    (hcurrent : ∀ chunk ∈ finish d.current.text,
      Text.width chunk ≤ limit ∨ Oversized limit text chunk) : d.flush.Bounded limit text := by
  refine ⟨by simp, ?_⟩
  intro chunk hchunk
  rw [done_flush, List.mem_append] at hchunk
  exact hchunk.elim (hcurrent chunk) (h.done chunk)

theorem Bounded.flush (h : d.Bounded limit text) : d.flush.Bounded limit text := by
  refine h.flush_of_finish ?_
  intro chunk hchunk
  obtain ⟨rfl, -⟩ := mem_finish hchunk
  exact .inl (Nat.le_trans (Text.width_trimEnd_le _) h.current)

theorem Bounded.push (h : d.Bounded limit text) {cs : List Char}
    (hcs : Text.width d.current.text + Text.width cs ≤ limit) : (d.push cs).Bounded limit text :=
  ⟨by simpa using hcs, h.done⟩

theorem width_current_add_room (h : d.Bounded limit text) :
    Text.width d.current.text + d.room limit = limit := by
  have := h.current
  rw [room, width_current]
  omega

theorem Bounded.fill (h : d.Bounded limit text) {prose cs : List Char}
    (hprose : .plain prose ∈ Segment.ofText text) (hcs : cs ≠ []) (hsuffix : cs <:+ prose)
    (hcut : ¬ (!d.current.isEmpty ∧ d.isSpent limit cs)) :
    (d.push (Text.trimEnd (piece cs (d.room limit)))).flush.Bounded limit text := by
  have htrim := Text.width_trimEnd_le (piece cs (d.room limit))
  rcases width_piece_le_or hcs (d.room limit) with hle | ⟨hhard, -, -⟩
  · refine (h.push ?_).flush
    have := width_current_add_room h
    omega
  · -- A hard cut that exceeds the room is put off while the current chunk holds anything.
    have hempty : d.current.text = [] := by
      by_contra hne
      have hnot : ¬ d.current.isEmpty = true := fun hisEmpty =>
        hne (Text.Buffer.isEmpty_iff.mp hisEmpty)
      exact hcut ⟨by simpa using hnot, by simp [isSpent, hhard]⟩
    have hroom : d.room limit = limit := by
      rw [room, width_current, hempty]
      simp
    refine ⟨by simp, ?_⟩
    intro chunk hchunk
    rw [done_flush, text_push, hempty, List.nil_append, finish_trimEnd, hroom, List.mem_append]
      at hchunk
    rcases hchunk with hchunk | hchunk
    · exact (width_finish_piece_le_or hcs hsuffix hchunk).imp_right (.cluster hprose)
    · exact h.done chunk hchunk

theorem Bounded.appendPlain (h : d.Bounded limit text) {prose cs : List Char}
    (hprose : .plain prose ∈ Segment.ofText text) (hsuffix : cs <:+ prose) :
    (d.appendPlain limit cs).Bounded limit text := by
  fun_induction Draft.appendPlain limit d cs with
  | case1 => exact h
  | case2 d cs _ hfits =>
      refine h.push ?_
      have := width_current_add_room h
      have := Text.fits_iff.mp hfits
      omega
  | case3 d cs _ _ _ ih => exact ih h.flush hsuffix
  | case4 d cs hcs _ hcut _ filled ih =>
      exact ih (h.fill hprose hcs hsuffix hcut) ((rest_suffix cs _).trans hsuffix)

theorem Bounded.appendBlock (h : d.Bounded limit text) {block : Block} {closing : Closing}
    (hblock : .fenced block closing ∈ Segment.ofText text) :
    (d.appendBlock limit block).Bounded limit text := by
  rw [Draft.appendBlock]
  split
  · next hwide =>
      refine ⟨by simp, ?_⟩
      intro chunk hchunk
      rw [done_emit, List.mem_append, List.mem_reverse, List.mem_flatMap] at hchunk
      rcases hchunk with ⟨blockText, hmem, hchunk⟩ | hchunk
      · exact width_refence_le_or hblock hwide hmem hchunk
      · exact h.flush.done chunk hchunk
  · next hfits =>
      split
      · refine h.flush.push ?_
        rw [text_flush, Text.width_nil, Block.width_render]
        omega
      · next hroom =>
          refine h.push ?_
          rw [← width_current, Block.width_render]
          omega

theorem Bounded.foldl (h : d.Bounded limit text) {segments : List Segment}
    (hsegments : segments ⊆ Segment.ofText text) :
    (segments.foldl (Draft.append limit) d).Bounded limit text := by
  induction segments generalizing d with
  | nil => exact h
  | cons segment segments ih =>
      obtain ⟨hsegment, hrest⟩ := List.cons_subset.mp hsegments
      refine ih ?_ hrest
      cases segment with
      | plain prose => exact h.appendPlain hsegment List.suffix_rfl
      | fenced block closing => exact h.appendBlock hsegment

end Draft

theorem width_fenced_le_or {limit : Nat} {text chunk : List Char} (hchunk : chunk ∈ fenced limit text) :
    Text.width chunk ≤ limit ∨ Oversized limit text chunk := by
  have hbounded := (Draft.bounded_empty limit text).foldl (List.Subset.refl (Segment.ofText text))
  refine hbounded.flush.done chunk ?_
  rwa [fenced, Draft.chunks, List.mem_reverse] at hchunk

/-! Strategies. -/

theorem utf8ByteSize_le_or {s : Strategy} {limit : Nat} (hpos : 0 < limit) {text : String}
    {exempt : List Char → Prop}
    (hcut : ∀ chunk ∈ s.cut limit text.toList, Text.width chunk ≤ limit ∨ exempt chunk)
    {chunk : String} (hchunk : chunk ∈ s.chunk text limit) :
    chunk.utf8ByteSize ≤ limit ∨ exempt chunk.toList := by
  by_cases hlong : limit < text.utf8ByteSize
  · rw [← Text.width_toList]
    refine hcut chunk.toList ?_
    rw [← Strategy.map_toList_chunk hpos hlong]
    exact List.mem_map_of_mem hchunk
  · cases hempty : text.isEmpty with
    | true =>
        rw [Strategy.chunk_of_isEmpty hempty] at hchunk
        simp at hchunk
    | false =>
        rw [Strategy.chunk_of_le hempty (.inr (Nat.not_lt.mp hlong)), List.mem_singleton] at hchunk
        exact .inl (hchunk ▸ Nat.not_lt.mp hlong)

/-- A chunk takes at most the limit, or it is one that cannot be made smaller. -/
theorem size_of_chunks (text : String) (limit : Nat) (hpos : 0 < limit) :
    (∀ chunk ∈ Strategy.fenced.chunk text limit,
      chunk.utf8ByteSize ≤ limit ∨ Oversized limit text.toList chunk.toList) ∧
    (∀ chunk ∈ Strategy.plain.chunk text limit,
      chunk.utf8ByteSize ≤ limit ∨ WideCluster limit text.toList chunk.toList) := by
  refine ⟨?_, ?_⟩
  · intro chunk hchunk
    exact utf8ByteSize_le_or hpos (fun _ => width_fenced_le_or) hchunk
  · intro chunk hchunk
    exact utf8ByteSize_le_or hpos (fun _ => width_plain_le_or List.suffix_rfl) hchunk

theorem size_of_chunks_wide_cluster :
    0 < 11 ∧
      Oversized 11 "```\na👩‍👩‍👧‍👦b\n```\none 👩‍👩‍👧‍👦 two".toList "```\n👩‍👩‍👧‍👦\n```\n".toList ∧
      WideCluster 11 "```\na👩‍👩‍👧‍👦b\n```\none 👩‍👩‍👧‍👦 two".toList "👩‍👩‍👧‍👦".toList := by
  obtain ⟨hfenced, hplain⟩ :=
    size_of_chunks "```\na👩‍👩‍👧‍👦b\n```\none 👩‍👩‍👧‍👦 two" 11 (by decide)
  refine ⟨by decide, ?_, ?_⟩
  · exact (hfenced "```\n👩‍👩‍👧‍👦\n```\n" (by decide +kernel)).resolve_left (by decide)
  · exact (hplain "👩‍👩‍👧‍👦" (by decide +kernel)).resolve_left (by decide)

end ChannelAdapter.Chunk
