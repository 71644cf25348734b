import ChannelAdapter.Proofs.Chunk.Draft
import ChannelAdapter.Proofs.Chunk.Strategy
import ChannelAdapter.Proofs.Segment.Shape
/-!
Where the strategies agree. Prose alone is cut at the same places by both. The one that knows blocks
finishes the last chunk as it does every other, so the spaces at its end are dropped.
-/

namespace ChannelAdapter

theorem Text.head?_trimStart_ne (cs : List Char) : (Text.trimStart cs).head? ≠ some ' ' := by
  intro hhead
  have hstop := List.head?_dropWhile_not (· == ' ') cs
  rw [Text.trimStart] at hhead
  simp [hhead] at hstop

theorem Text.not_spaces_of_head? {cs : List Char} (hcs : cs ≠ []) (hhead : cs.head? ≠ some ' ') :
    ¬ Text.Spaces cs := by
  intro hspaces
  cases cs with
  | nil => exact hcs rfl
  | cons c cs =>
      apply hhead
      rw [List.head?_cons, hspaces c List.mem_cons_self]

namespace Chunk

/-- The second list lacks the spaces that end the last text of the first one, and nothing else. -/
inductive TrimsLast : List (List Char) → List (List Char) → Prop
  | nil : TrimsLast [] []
  | concat (front : List (List Char)) (last : List Char) :
      TrimsLast (front ++ [last]) (front ++ [Text.trimEnd last])

namespace TrimsLast

variable {whole trimmed : List (List Char)}

theorem length_eq (h : TrimsLast whole trimmed) : trimmed.length = whole.length := by
  cases h with
  | nil => rfl
  | concat front last => rw [List.length_append, List.length_append]; rfl

theorem dropLast_eq (h : TrimsLast whole trimmed) : trimmed.dropLast = whole.dropLast := by
  cases h with
  | nil => rfl
  | concat front last => rw [List.dropLast_concat, List.dropLast_concat]

theorem getLast?_eq (h : TrimsLast whole trimmed) :
    trimmed.getLast? = whole.getLast?.map Text.trimEnd := by
  cases h with
  | nil => rfl
  | concat front last => rw [List.getLast?_concat, List.getLast?_concat, Option.map_some]

theorem finish_append (piece : List Char) (h : TrimsLast whole trimmed) :
    TrimsLast (finish piece ++ whole) (finish piece ++ trimmed) := by
  cases h with
  | concat front last =>
      rw [← List.append_assoc, ← List.append_assoc]
      exact .concat _ _
  | nil =>
      rw [List.append_nil]
      by_cases hpiece : Text.Spaces piece
      · rw [finish_of_spaces hpiece]
        exact .nil
      · have htrim := TrimsLast.concat [] (Text.trimEnd piece)
        rw [Text.trimEnd_trimEnd, List.nil_append] at htrim
        rw [finish_of_not_spaces hpiece]
        exact htrim

end TrimsLast

theorem head?_rest_ne (cs : List Char) (limit : Nat) : (rest cs limit).head? ≠ some ' ' :=
  Text.head?_trimStart_ne _

/-! Prose in an empty draft. -/

theorem Draft.room_of_text_eq_nil {d : Draft} (hempty : d.current.text = []) (limit : Nat) :
    d.room limit = limit := by
  rw [Draft.room, Draft.width_current, hempty, Text.width_nil, Nat.sub_zero]

/-- A draft that is empty cuts prose as it is cut by itself. A text that fits may not begin with a
space, as no rest of a cut does; else it could be all spaces, of which nothing would be left. -/
theorem Draft.exists_chunks_appendPlain (limit : Nat) (d : Draft) (cs : List Char)
    (hempty : d.current.text = []) (hstart : Text.fits cs limit = true → cs.head? ≠ some ' ') :
    ∃ back, (d.appendPlain limit cs).chunks = d.done.reverse ++ back ∧
      TrimsLast (plain limit cs) back := by
  fun_induction Draft.appendPlain limit d cs with
  | case1 d =>
      refine ⟨[], ?_, ?_⟩
      · rw [Draft.chunks_eq, hempty]
        rfl
      · rw [plain_nil]
        exact .nil
  | case2 d cs hcs hfits =>
      rw [Draft.room_of_text_eq_nil hempty] at hfits
      have hnot := Text.not_spaces_of_head? hcs (hstart hfits)
      refine ⟨[Text.trimEnd cs], ?_, ?_⟩
      · rw [Draft.chunks_eq, Draft.done_push, Draft.text_push, hempty, List.nil_append,
          finish_of_not_spaces hnot]
      · rw [plain_of_fits hcs hfits]
        exact .concat [] cs
  | case3 d cs hcs hfits hspent ih =>
      -- the draft that is flushed for more room is not empty
      have hisEmpty : d.current.isEmpty = true := Text.Buffer.isEmpty_iff.mpr hempty
      rw [hisEmpty] at hspent
      exact absurd hspent.1 (by decide)
  | case4 d cs hcs hfits hspent hshorter filled ih =>
      obtain ⟨back, hchunks, htrims⟩ :=
        ih filled.text_flush fun _ => head?_rest_ne cs (d.room limit)
      rw [Draft.room_of_text_eq_nil hempty] at hfits hchunks htrims
      refine ⟨finish (piece cs limit) ++ back, ?_, ?_⟩
      · have hfilled : filled.flush.done.reverse =
            d.done.reverse ++ finish (piece cs limit) := by
          rw [Draft.done_flush, Draft.text_push, hempty, List.nil_append, finish_trimEnd,
            Draft.room_of_text_eq_nil hempty, List.reverse_append, reverse_finish, Draft.done_push]
        rw [Draft.room_of_text_eq_nil hempty, hchunks, hfilled, List.append_assoc]
      · rw [plain_of_not_fits hcs hfits]
        exact htrims.finish_append (piece cs limit)

/-! Texts without blocks. -/

theorem trimsLast_fenced {limit : Nat} {cs : List Char}
    (hprose : ∀ block closing, .fenced block closing ∉ Segment.ofText cs)
    (hlong : limit < Text.width cs) : TrimsLast (plain limit cs) (fenced limit cs) := by
  have hcs : cs ≠ [] := Text.width_pos.mp (Nat.lt_of_le_of_lt (Nat.zero_le limit) hlong)
  have hstart (hfits : Text.fits cs limit = true) : cs.head? ≠ some ' ' :=
    absurd (Text.fits_iff.mp hfits) (Nat.not_le.mpr hlong)
  obtain ⟨back, hchunks, htrims⟩ :=
    Draft.exists_chunks_appendPlain limit .empty cs Draft.text_empty hstart
  rw [Draft.done_empty, List.reverse_nil, List.nil_append] at hchunks
  rw [fenced, Segment.ofText_of_not_fenced hprose hcs, List.foldl_cons, List.foldl_nil,
    Draft.append, hchunks]
  exact htrims

/-- The strategies agree on a text without code blocks, but for the spaces that end its last chunk. -/
theorem strategies_agree (text : String) (limit : Nat)
    (hprose : ∀ block closing, .fenced block closing ∉ Segment.ofText text.toList) :
    (limit = 0 ∨ text.utf8ByteSize ≤ limit →
      Strategy.fenced.chunk text limit = Strategy.plain.chunk text limit) ∧
    (0 < limit → limit < text.utf8ByteSize →
      (Strategy.fenced.chunk text limit).length = (Strategy.plain.chunk text limit).length ∧
      (Strategy.fenced.chunk text limit).dropLast = (Strategy.plain.chunk text limit).dropLast ∧
      (Strategy.fenced.chunk text limit).getLast? =
        (Strategy.plain.chunk text limit).getLast?.map
          fun chunk => String.ofList (Text.trimEnd chunk.toList)) := by
  constructor
  · intro hwhole
    cases hempty : text.isEmpty with
    | true => rw [Strategy.chunk_of_isEmpty hempty, Strategy.chunk_of_isEmpty hempty]
    | false => rw [Strategy.chunk_of_le hempty hwhole, Strategy.chunk_of_le hempty hwhole]
  · intro hpos hlong
    have htrims : TrimsLast (plain limit text.toList) (fenced limit text.toList) := by
      apply trimsLast_fenced hprose
      rwa [Text.width_toList]
    rw [Strategy.chunk_of_lt hpos hlong, Strategy.chunk_of_lt hpos hlong, Strategy.cut,
      Strategy.cut]
    refine ⟨?_, ?_, ?_⟩
    · rw [List.length_map, List.length_map, htrims.length_eq]
    · rw [← List.map_dropLast, ← List.map_dropLast, htrims.dropLast_eq]
    · rw [List.getLast?_map, List.getLast?_map, htrims.getLast?_eq, Option.map_map, Option.map_map]
      apply congrArg (Option.map · _)
      funext chunk
      simp only [Function.comp_apply, String.toList_ofList]

theorem strategies_agree_trailing_spaces :
    (∀ block closing, .fenced block closing ∉ Segment.ofText "alpha beta  ".toList) ∧
      0 < 7 ∧ 7 < "alpha beta  ".utf8ByteSize ∧
      (Strategy.plain.chunk "alpha beta  " 7).getLast? = some "beta  " ∧
      (Strategy.fenced.chunk "alpha beta  " 7).getLast? = some "beta" := by
  have hsegments : Segment.ofText "alpha beta  ".toList = [.plain "alpha beta  ".toList] := by
    decide +kernel
  have hprose : ∀ block closing, .fenced block closing ∉ Segment.ofText "alpha beta  ".toList := by
    intro block closing hmem
    rw [hsegments] at hmem
    cases List.mem_singleton.mp hmem
  have hlast : (Strategy.plain.chunk "alpha beta  " 7).getLast? = some "beta  " := by
    decide +kernel
  obtain ⟨-, -, htrimmed⟩ :=
    (strategies_agree "alpha beta  " 7 hprose).2 (by decide) (by decide)
  refine ⟨hprose, by decide, by decide, hlast, ?_⟩
  rw [htrimmed, hlast]
  decide +kernel

end Chunk

end ChannelAdapter
