import ChannelAdapter.Chunk.Plain
import ChannelAdapter.Proofs.Text.Spaces
/-!
Prose is cut step by step: a piece, the spaces after it, and the chunks of the rest.
-/

namespace ChannelAdapter.Chunk

/-! Finished pieces. -/

theorem finish_of_spaces {piece : List Char} (h : Text.Spaces piece) : finish piece = [] := by
  simp [finish, Text.trimEnd_eq_nil_iff.mpr h]

theorem finish_of_not_spaces {piece : List Char} (h : ¬ Text.Spaces piece) :
    finish piece = [Text.trimEnd piece] := by
  simp [finish, mt Text.trimEnd_eq_nil_iff.mp h]

theorem mem_finish {piece chunk : List Char} (h : chunk ∈ finish piece) :
    chunk = Text.trimEnd piece ∧ chunk ≠ [] := by
  by_cases hpiece : Text.Spaces piece
  · simp [finish_of_spaces hpiece] at h
  · rw [finish_of_not_spaces hpiece, List.mem_singleton] at h
    exact ⟨h, h ▸ mt Text.trimEnd_eq_nil_iff.mp hpiece⟩

@[simp] theorem reverse_finish (piece : List Char) : (finish piece).reverse = finish piece := by
  by_cases hpiece : Text.Spaces piece
  · rw [finish_of_spaces hpiece, List.reverse_nil]
  · rw [finish_of_not_spaces hpiece, List.reverse_singleton]

@[simp] theorem finish_trimEnd (piece : List Char) :
    finish (Text.trimEnd piece) = finish piece := by
  rw [finish, Text.trimEnd_trimEnd, finish]

/-! The first piece of a text and the rest. -/

theorem exists_eq_piece_append_rest (cs : List Char) (limit : Nat) :
    ∃ gap, Text.Spaces gap ∧ cs = piece cs limit ++ gap ++ rest cs limit := by
  obtain ⟨gap, hgap, hrest⟩ :=
    Text.exists_eq_append_trimStart (Text.splitAt (splitPoint cs limit).pos cs).2
  refine ⟨gap, hgap, ?_⟩
  conv => lhs; rw [← Text.splitAt_append (splitPoint cs limit).pos cs, hrest]
  rw [piece, rest, List.append_assoc]

theorem rest_suffix (cs : List Char) (limit : Nat) : rest cs limit <:+ cs := by
  obtain ⟨gap, -, hcs⟩ := exists_eq_piece_append_rest cs limit
  exact ⟨piece cs limit ++ gap, hcs.symm⟩

/-! The chunks of prose. -/

section
variable {limit : Nat} {cs : List Char}

private theorem go_append (limit : Nat) (cs : List Char) (done earlier : List (List Char)) :
    plain.go limit cs (done ++ earlier) = earlier.reverse ++ plain.go limit cs done := by
  fun_induction plain.go limit cs done with
  | case1 done => simp [plain.go]
  | case2 cs done hcs hfits =>
      rw [plain.go, dif_neg hcs, if_pos hfits]
      simp
  | case3 cs done hcs hfits _ ih =>
      rw [plain.go, dif_neg hcs, if_neg hfits, ← List.append_assoc]
      exact ih

@[simp] theorem plain_nil : plain limit [] = [] := by
  simp [plain, plain.go]

theorem plain_of_fits (hcs : cs ≠ []) (hfits : Text.fits cs limit = true) :
    plain limit cs = [cs] := by
  rw [plain, plain.go, dif_neg hcs, if_pos hfits, List.reverse_singleton]

theorem plain_of_not_fits (hcs : cs ≠ []) (hfits : ¬ Text.fits cs limit = true) :
    plain limit cs = finish (piece cs limit) ++ plain limit (rest cs limit) := by
  have hgo := go_append limit (rest cs limit) [] (finish (piece cs limit))
  rw [List.nil_append, reverse_finish] at hgo
  rw [plain, plain.go, dif_neg hcs, if_neg hfits, List.append_nil, hgo, plain]

theorem plain_induction (limit : Nat) {motive : List Char → Prop} (nil : motive [])
    (fits : ∀ cs, cs ≠ [] → Text.fits cs limit = true → motive cs)
    (cut : ∀ cs, cs ≠ [] → ¬ Text.fits cs limit = true → motive (rest cs limit) → motive cs)
    (cs : List Char) : motive cs := by
  by_cases hcs : cs = []
  · rw [hcs]
    exact nil
  · by_cases hfits : Text.fits cs limit = true
    · exact fits cs hcs hfits
    · have := length_rest_lt hcs limit
      exact cut cs hcs hfits (plain_induction limit nil fits cut (rest cs limit))
termination_by cs.length

end

end ChannelAdapter.Chunk
