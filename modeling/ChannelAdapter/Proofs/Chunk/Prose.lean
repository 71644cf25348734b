import ChannelAdapter.Proofs.Chunk.Agreement
import ChannelAdapter.Proofs.Chunk.Coverage
/-!
Prose that is cut and read again. A line that opened no fence in the text may do so once a chunk
begins inside it; this is the only way in which prose becomes a block, and then the whole chunk does.
-/

namespace ChannelAdapter

/-! Lines without fences. -/

namespace Segment

theorem opens_eq_false_of_not_fenced {cs : List Char}
    (hprose : ∀ block closing, .fenced block closing ∉ ofText cs) :
    ∀ line ∈ Text.lines cs, Fence.opens line = false := by
  have hread := reads_ofText cs
  generalize Text.lines cs = ls at hread
  generalize ofText cs = segments at hread hprose
  cases hread with
  | prose hbefore => exact hbefore
  | unclosed => exact absurd (List.mem_append_right _ List.mem_cons_self) (hprose _ _)
  | closed => exact absurd (List.mem_append_right _ List.mem_cons_self) (hprose _ _)

section
variable {cs first : List Char} {rest : List (List Char)}

theorem ofText_of_opens_eq_false (hlines : Text.lines cs = first :: rest)
    (hfirst : Fence.opens first = false) (hrest : ∀ line ∈ rest, Fence.opens line = false) :
    ofText cs = [.plain cs] := by
  have hall : ∀ line ∈ first :: rest, Fence.opens line = false :=
    List.forall_mem_cons.mpr ⟨hfirst, hrest⟩
  rw [ofText, hlines, ofLines_prose hall, passage_of_ne_nil (List.cons_ne_nil first rest), ← hlines,
    Text.flatten_lines]

theorem ofText_of_first_opens {fence : Fence} (hlines : Text.lines cs = first :: rest)
    (hfirst : Fence.ofLine? first = some fence) (hrest : ∀ line ∈ rest, Fence.opens line = false) :
    ofText cs = [.fenced ⟨first, rest.flatten, fence.closingLine⟩ .supplied] := by
  obtain ⟨hsize, -⟩ := Fence.ofLine?_eq_some hfirst
  have hbody : ∀ line ∈ rest, fence.closedBy line = false := by
    intro line hline
    rw [← Bool.not_eq_true]
    intro hclose
    have hopens := Fence.opens_of_closedBy hsize hclose
    rw [hrest line hline] at hopens
    cases hopens
  have hread := ofLines_unclosed (List.forall_mem_nil _) hfirst hbody
  rw [ofText, hlines]
  exact hread

end

end Segment

namespace Chunk

/-! Parts of prose. -/

section
variable {before part after first : List Char} {rest : List (List Char)}
  (hopens : ∀ line ∈ Text.lines (before ++ part ++ after), Fence.opens line = false)
include hopens

theorem opens_rest_eq_false (hlines : Text.lines part = first :: rest) {line : List Char}
    (hline : line ∈ rest) : Fence.opens line = false := by
  obtain ⟨whole, hwhole, hstart⟩ := Text.exists_line_of_rest before after hlines hline
  rw [← Bool.not_eq_true]
  intro hopen
  have hopenWhole := Fence.opens_of_prefix hopen hstart
  rw [hopens whole hwhole] at hopenWhole
  cases hopenWhole

theorem exists_not_indent_of_opens (hlines : Text.lines part = first :: rest)
    (hfirst : Fence.opens first = true) :
    ∃ c ∈ Text.lineSoFar before, Fence.isIndent c = false := by
  by_contra hnone
  have hindent : ∀ c ∈ Text.lineSoFar before, Fence.isIndent c = true := by
    intro c hc
    rw [← Bool.not_eq_false]
    exact fun hnot => hnone ⟨c, hc, hnot⟩
  obtain ⟨whole, hwhole, hstart⟩ := Text.exists_line_of_first before after hlines
  have hopenWhole := Fence.opens_of_prefix (Fence.opens_indented hindent hfirst) hstart
  rw [hopens whole hwhole] at hopenWhole
  cases hopenWhole

end

theorem isInfix_of_mem_fenced {text : String} {limit : Nat}
    (hprose : ∀ block closing, .fenced block closing ∉ Segment.ofText text.toList) {chunk : String}
    (hchunk : chunk ∈ Strategy.fenced.chunk text limit) :
    chunk.toList ≠ [] ∧ chunk.toList <:+: text.toList := by
  by_cases hempty : text.isEmpty = true
  · rw [Strategy.chunk_of_isEmpty hempty] at hchunk
    cases hchunk
  · have hne : text.toList ≠ [] := by simpa [String.isEmpty_iff] using hempty
    by_cases hlong : 0 < limit ∧ limit < text.utf8ByteSize
    · have hmem := List.mem_map_of_mem (f := String.toList) hchunk
      rw [Strategy.map_toList_chunk hlong.1 hlong.2] at hmem
      have hcovers := covers_fenced limit text.toList
      rw [Segment.ofText_of_not_fenced hprose hne, List.flatMap_singleton, Segment.sent] at hcovers
      exact ⟨hcovers.ne_nil hmem, hcovers.isInfix hmem⟩
    · rw [Strategy.chunk_of_le (by simpa using hempty) (by omega), List.mem_singleton] at hchunk
      subst hchunk
      exact ⟨hne, List.infix_rfl⟩

/-- A chunk of prose is read as prose again unless its first line opens a fence. Then all of it is
one block that is left open, and it begins inside a line, behind more than the indentation. -/
theorem fenced_of_prose (text : String) (limit : Nat)
    (hprose : ∀ block closing, .fenced block closing ∉ Segment.ofText text.toList) (chunk : String)
    (hchunk : chunk ∈ Strategy.fenced.chunk text limit) :
    ∃ first rest, Text.lines chunk.toList = first :: rest ∧
      ((∃ block closing, .fenced block closing ∈ Segment.ofText chunk.toList) ↔
        Fence.opens first = true) ∧
      (Fence.opens first = false → Segment.ofText chunk.toList = [.plain chunk.toList]) ∧
      (∀ fence, Fence.ofLine? first = some fence → Segment.ofText chunk.toList =
        [.fenced ⟨first, rest.flatten, fence.closingLine⟩ .supplied]) ∧
      (∀ line ∈ rest, Fence.opens line = false) ∧
      (∃ before after, text.toList = before ++ chunk.toList ++ after) ∧
      ∀ before after, text.toList = before ++ chunk.toList ++ after → Fence.opens first = true →
        ∃ c ∈ Text.lineSoFar before, Fence.isIndent c = false := by
  obtain ⟨hne, before, after, hsplit⟩ := isInfix_of_mem_fenced hprose hchunk
  have hopens := Segment.opens_eq_false_of_not_fenced hprose
  have hlinesNe : Text.lines chunk.toList ≠ [] := by
    intro hnil
    exact hne (by rw [← Text.flatten_lines chunk.toList, hnil, List.flatten_nil])
  obtain ⟨first, rest, hlines⟩ := List.exists_cons_of_ne_nil hlinesNe
  have hrest : ∀ line ∈ rest, Fence.opens line = false := by
    rw [← hsplit] at hopens
    exact fun line hline => opens_rest_eq_false hopens hlines hline
  have hplain := fun hfirst => Segment.ofText_of_opens_eq_false hlines hfirst hrest
  have hblock := fun fence (hfirst : Fence.ofLine? first = some fence) =>
    Segment.ofText_of_first_opens hlines hfirst hrest
  refine ⟨first, rest, hlines, ⟨?_, ?_⟩, hplain, hblock, hrest, ⟨before, after, hsplit.symm⟩, ?_⟩
  · rintro ⟨block, closing, hmem⟩
    rw [← Bool.not_eq_false]
    intro hfirst
    rw [hplain hfirst] at hmem
    cases List.mem_singleton.mp hmem
  · intro hfirst
    obtain ⟨fence, hfence⟩ := Option.isSome_iff_exists.mp hfirst
    refine ⟨⟨first, rest.flatten, fence.closingLine⟩, .supplied, ?_⟩
    rw [hblock fence hfence]
    exact List.mem_cons_self
  · intro before after hsplit hfirst
    rw [hsplit] at hopens
    exact exists_not_indent_of_opens hopens hlines hfirst

theorem write_rust_not_fenced (block : Block) (closing : Closing) :
    .fenced block closing ∉ Segment.ofText "write ```rust".toList := by
  have hsegments : Segment.ofText "write ```rust".toList = [.plain "write ```rust".toList] := by
    decide +kernel
  intro hmem
  rw [hsegments] at hmem
  cases List.mem_singleton.mp hmem

theorem fenced_of_prose_inner_run :
    (∀ block closing, .fenced block closing ∉ Segment.ofText "write ```rust".toList) ∧
      "```rust" ∈ Strategy.fenced.chunk "write ```rust" 7 ∧
      Segment.ofText "```rust".toList =
        [.fenced ⟨"```rust".toList, [], "```\n".toList⟩ .supplied] ∧
      ∀ before after, "write ```rust".toList = before ++ "```rust".toList ++ after →
        ∃ c ∈ Text.lineSoFar before, Fence.isIndent c = false := by
  have hchunk : "```rust" ∈ Strategy.fenced.chunk "write ```rust" 7 := by decide +kernel
  obtain ⟨first, rest, hlines, -, -, hblock, -, -, hplace⟩ :=
    fenced_of_prose "write ```rust" 7 write_rust_not_fenced "```rust" hchunk
  have hone : Text.lines "```rust".toList = ["```rust".toList] := by decide
  rw [hone] at hlines
  cases hlines
  exact ⟨write_rust_not_fenced, hchunk, hblock ⟨.backtick, 3⟩ (by decide),
    fun before after hsplit => hplace before after hsplit (by decide)⟩

/-- A run of backticks in the middle of a line opens a block once a chunk begins with it. -/
theorem not_forall_prose_stays_prose :
    ¬ ∀ (text : String) (limit : Nat),
      (∀ block closing, .fenced block closing ∉ Segment.ofText text.toList) →
        ∀ chunk ∈ Strategy.fenced.chunk text limit,
          ∀ block closing, .fenced block closing ∉ Segment.ofText chunk.toList := by
  intro hall
  refine hall "write ```rust" 7 write_rust_not_fenced "```rust" (by decide +kernel)
    ⟨"```rust".toList, [], "```\n".toList⟩ .supplied ?_
  decide +kernel

end Chunk

end ChannelAdapter
