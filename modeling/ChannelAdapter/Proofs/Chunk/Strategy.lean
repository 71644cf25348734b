import ChannelAdapter.Chunk.Strategy
/-!
When a strategy cuts a text, and when it leaves it alone.
-/

namespace ChannelAdapter.Chunk.Strategy

variable {s : Strategy} {text : String} {limit : Nat}

theorem chunk_of_isEmpty (h : text.isEmpty = true) : s.chunk text limit = [] := by
  rw [chunk, if_pos h]

theorem chunk_of_le (hne : text.isEmpty = false) (h : limit = 0 ∨ text.utf8ByteSize ≤ limit) :
    s.chunk text limit = [text] := by
  rw [chunk, hne, if_neg Bool.false_ne_true, if_pos (by simpa using h)]

theorem isEmpty_of_lt (h : limit < text.utf8ByteSize) : text.isEmpty = false := by
  cases hempty : text.isEmpty with
  | false => rfl
  | true =>
      rw [String.isEmpty_iff] at hempty
      simp [hempty] at h

theorem chunk_of_lt (hpos : 0 < limit) (hlong : limit < text.utf8ByteSize) :
    s.chunk text limit = (s.cut limit text.toList).map String.ofList := by
  have hcut : ¬ (limit = 0 ∨ text.utf8ByteSize ≤ limit) := by omega
  rw [chunk, isEmpty_of_lt hlong, if_neg Bool.false_ne_true, if_neg (by simpa using hcut)]

theorem map_toList_chunk (hpos : 0 < limit) (hlong : limit < text.utf8ByteSize) :
    (s.chunk text limit).map String.toList = s.cut limit text.toList := by
  rw [chunk_of_lt hpos hlong, List.map_map]
  simp [Function.comp_def]

end ChannelAdapter.Chunk.Strategy
