import ChannelAdapter.Proofs.Chunk.Refence
/-!
What becomes of a body that is shared out over several blocks. The parts hold all of it in order,
but for newlines that end lines which are too long, and no line that fits is divided.
-/

namespace ChannelAdapter.Chunk

/-- What the parts of a body hold of a line. -/
def kept (budget : Nat) (line : List Char) : List Char :=
  if budget < lineCost line then (hardPieces (budget - 1) line).flatten else line

theorem kept_of_long {budget : Nat} {line : List Char} (h : budget < lineCost line) :
    kept budget line = (hardPieces (budget - 1) line).flatten :=
  if_pos h

theorem kept_of_le {budget : Nat} {line : List Char} (h : lineCost line ≤ budget) :
    kept budget line = line :=
  if_neg (Nat.not_lt.mpr h)

/-! Hard cuts. -/

theorem eq_singleton_of_newline_prefix {line rest : List Char} (hline : Text.IsLine line)
    (h : ['\n'] ++ rest = line) : line = ['\n'] := by
  cases rest with
  | nil => exact h.symm
  | cons c rest =>
      apply absurd _ hline.newline_not_mem
      rw [← h, List.singleton_append, List.dropLast_cons_of_ne_nil (List.cons_ne_nil c rest)]
      exact List.mem_cons_self

theorem flatten_hardPieces {budget : Nat} {line : List Char}
    (hline : line = [] ∨ Text.IsLine line) :
    (hardPieces budget line).flatten = line ∨
      line = (hardPieces budget line).flatten ++ ['\n'] := by
  induction line using hardPieces.induct budget with
  | case1 => exact .inl (by simp [hardPieces])
  | case2 line hne _ parts hnewline =>
      have hsplit : parts.1 ++ parts.2 = line := Text.splitAt_append _ line
      rw [hnewline] at hsplit
      right
      rw [hardPieces, dif_neg hne, if_pos hnewline]
      exact eq_singleton_of_newline_prefix (hline.resolve_left hne) hsplit
  | case3 line hne _ parts hnewline ih =>
      have hsplit : parts.1 ++ parts.2 = line := Text.splitAt_append _ line
      have hrest : parts.2 = [] ∨ Text.IsLine parts.2 := by
        by_cases hback : parts.2 = []
        · exact .inl hback
        · have hsuffix : parts.2 <:+ line := ⟨_, hsplit⟩
          have hisLine := hline.resolve_left hne
          exact .inr (hisLine.of_infix hsuffix.isInfix hback)
      have hpieces : hardPieces budget line = parts.1 :: hardPieces budget parts.2 := by
        rw [hardPieces, dif_neg hne, if_neg hnewline]
      rw [hpieces, List.flatten_cons]
      rcases ih hrest with hwhole | hdropped
      · left
        rw [hwhole, hsplit]
      · right
        rw [List.append_assoc, ← hdropped, hsplit]

theorem kept_eq_or {budget : Nat} {line : List Char} (hline : Text.IsLine line) :
    kept budget line = line ∨ budget < Text.width line ∧ line = kept budget line ++ ['\n'] := by
  by_cases hlong : budget < lineCost line
  · rw [kept_of_long hlong]
    refine (flatten_hardPieces (.inr hline)).imp_right fun hdropped => ⟨?_, hdropped⟩
    have hends : Text.endsLine line = true := Text.endsLine_iff.mpr ⟨_, hdropped⟩
    rwa [lineCost, if_pos hends] at hlong
  · exact .inl (kept_of_le (Nat.not_lt.mp hlong))

/-! The parts hold what is kept of the lines. -/

theorem flatten_pendingPart (pending : Text.Buffer) :
    (pendingPart pending).flatten = pending.text := by
  rw [pendingPart]
  split
  · next hempty => rw [Text.Buffer.isEmpty_iff.mp hempty, List.flatten_nil]
  · exact List.flatten_singleton

theorem pendingPart_of_ne_nil {pending : Text.Buffer} (h : pending.text ≠ []) :
    pendingPart pending = [pending.text] := by
  rw [pendingPart, if_neg (mt Text.Buffer.isEmpty_iff.mp h)]

section
variable {budget : Nat}

theorem bodyParts_of_fits {line : List Char} (hcost : lineCost line ≤ budget)
    (pending : Text.Buffer) (ls : List (List Char)) :
    (pending.text ≠ [] ∧ bodyParts budget pending (line :: ls) =
        pending.text :: bodyParts budget (.append .empty line) ls) ∨
      bodyParts budget pending (line :: ls) = bodyParts budget (pending.append line) ls := by
  by_cases hfull : pending.text ≠ [] ∧ budget < pending.width + lineCost line
  · exact .inl ⟨hfull.1, bodyParts_of_full hcost hfull.1 hfull.2⟩
  · refine .inr (bodyParts_of_room hcost fun hne => ?_)
    exact Nat.not_lt.mp fun hwide => hfull ⟨hne, hwide⟩

theorem flatten_bodyParts (pending : Text.Buffer) (ls : List (List Char)) :
    (bodyParts budget pending ls).flatten = pending.text ++ ls.flatMap (kept budget) := by
  induction ls generalizing pending with
  | nil => rw [bodyParts, flatten_pendingPart, List.flatMap_nil, List.append_nil]
  | cons line ls ih =>
      rw [List.flatMap_cons]
      by_cases hlong : budget < lineCost line
      · rw [bodyParts_of_long hlong, List.flatten_append, List.flatten_append, ih,
          flatten_pendingPart, kept_of_long hlong, Text.Buffer.text_empty, List.nil_append,
          List.append_assoc]
      · have hcost := Nat.not_lt.mp hlong
        rw [kept_of_le hcost]
        rcases bodyParts_of_fits hcost pending ls with ⟨-, hparts⟩ | hparts
        · rw [hparts, List.flatten_cons, ih]
          simp
        · rw [hparts, ih]
          simp

theorem exists_bodyParts_eq_cons {pending : Text.Buffer} (hpending : pending.text ≠ [])
    (ls : List (List Char)) :
    ∃ more back, bodyParts budget pending ls = (pending.text ++ more) :: back := by
  induction ls generalizing pending with
  | nil => exact ⟨[], [], by rw [bodyParts, pendingPart_of_ne_nil hpending, List.append_nil]⟩
  | cons line ls ih =>
      by_cases hlong : budget < lineCost line
      · refine ⟨[], hardPieces (budget - 1) line ++ bodyParts budget .empty ls, ?_⟩
        rw [bodyParts_of_long hlong, pendingPart_of_ne_nil hpending, List.append_nil]
        rfl
      · rcases bodyParts_of_fits (Nat.not_lt.mp hlong) pending ls with ⟨-, hparts⟩ | hparts
        · exact ⟨[], _, by rw [hparts, List.append_nil]⟩
        · have hmore : (pending.append line).text ≠ [] := by simp [hpending]
          obtain ⟨more, back, hback⟩ := ih hmore
          refine ⟨line ++ more, back, ?_⟩
          rw [hparts, hback, Text.Buffer.text_append, List.append_assoc]

/-- Where a line of a body stands in the parts: whole in one of them, with what is kept of the lines
before it in front and of those after it behind. -/
def StandsIn (parts : List (List Char)) (before line after : List Char) : Prop :=
  ∃ front a b back, parts = front ++ (a ++ line ++ b) :: back ∧ front.flatten ++ a = before ∧
    b ++ back.flatten = after

theorem StandsIn.append_left {parts : List (List Char)} {before line after : List Char}
    (h : StandsIn parts before line after) (earlier : List (List Char)) :
    StandsIn (earlier ++ parts) (earlier.flatten ++ before) line after := by
  obtain ⟨front, a, b, back, rfl, rfl, rfl⟩ := h
  exact ⟨earlier ++ front, a, b, back, by simp, by simp, rfl⟩

theorem standsIn_pending {pending : Text.Buffer} {line : List Char} (hline : line ≠ [])
    (after : List (List Char)) :
    StandsIn (bodyParts budget (pending.append line) after) pending.text line
      (after.flatMap (kept budget)) := by
  have hpending : (pending.append line).text ≠ [] := by simp [hline]
  obtain ⟨more, back, hparts⟩ : ∃ more back, bodyParts budget (pending.append line) after =
      ((pending.append line).text ++ more) :: back :=
    exists_bodyParts_eq_cons hpending after
  have hflatten : (bodyParts budget (pending.append line) after).flatten =
      (pending.append line).text ++ after.flatMap (kept budget) :=
    flatten_bodyParts _ after
  rw [hparts, List.flatten_cons, List.append_assoc, List.append_right_inj] at hflatten
  refine ⟨[], pending.text, more, back, ?_, rfl, hflatten⟩
  rw [hparts, Text.Buffer.text_append, List.nil_append]

theorem standsIn_bodyParts (pending : Text.Buffer) (before : List (List Char)) {line : List Char}
    (hline : line ≠ []) (hcost : lineCost line ≤ budget) (after : List (List Char)) :
    StandsIn (bodyParts budget pending (before ++ line :: after))
      (pending.text ++ before.flatMap (kept budget)) line (after.flatMap (kept budget)) := by
  induction before generalizing pending with
  | nil =>
      rw [List.nil_append, List.flatMap_nil, List.append_nil]
      rcases bodyParts_of_fits hcost pending after with ⟨-, hparts⟩ | hparts
      · have hempty : StandsIn (bodyParts budget (.append .empty line) after) [] line
            (after.flatMap (kept budget)) :=
          standsIn_pending hline after
        rw [hparts]
        simpa using hempty.append_left [pending.text]
      · rw [hparts]
        exact standsIn_pending hline after
  | cons earlier before ih =>
      rw [List.cons_append, List.flatMap_cons]
      by_cases hlong : budget < lineCost earlier
      · rw [bodyParts_of_long hlong, kept_of_long hlong]
        have hstands := (ih .empty).append_left
          (pendingPart pending ++ hardPieces (budget - 1) earlier)
        simpa [flatten_pendingPart] using hstands
      · have hfits := Nat.not_lt.mp hlong
        rw [kept_of_le hfits]
        rcases bodyParts_of_fits hfits pending (before ++ line :: after) with ⟨-, hparts⟩ | hparts
        · have hstands := (ih (.append .empty earlier)).append_left [pending.text]
          rw [hparts]
          simpa using hstands
        · have hstands := ih (pending.append earlier)
          rw [hparts]
          simpa using hstands

end

/-! Blocks. -/

/-- How parts share out a body: they hold what is kept of its lines, in order. Every line that fits
stands whole in one of them, and only a line that is too long may lose its newline. -/
structure Shares (budget : Nat) (body : List Char) (kept : List Char → List Char)
    (parts : List (List Char)) : Prop where
  ne_nil : ∀ part ∈ parts, part ≠ []
  flatten_eq : parts.flatten = (Text.lines body).flatMap kept
  kept_eq_or : ∀ line ∈ Text.lines body, kept line = line ∨
    budget < Text.width line ∧ line = kept line ++ ['\n']
  standsIn : ∀ before line after, Text.lines body = before ++ line :: after →
    lineCost line ≤ budget → StandsIn parts (before.flatMap kept) line (after.flatMap kept)

theorem shares_bodyParts (budget : Nat) (body : List Char) :
    Shares budget body (kept budget) (bodyParts budget .empty (Text.lines body)) := by
  have hisLine := (Text.lined_lines body).isLine
  refine ⟨fun part hpart => ne_nil_of_mem_bodyParts hpart, flatten_bodyParts .empty _,
    fun line hline => kept_eq_or (hisLine line hline), ?_⟩
  intro before line after hlines hcost
  have hline : line ≠ [] := (hisLine line (by simp [hlines])).ne_nil
  rw [hlines]
  exact standsIn_bodyParts .empty before hline hcost after

theorem Shares.flatten_eq_body {budget : Nat} {body : List Char} {kept : List Char → List Char}
    {parts : List (List Char)} (h : Shares budget body kept parts)
    (hcost : ∀ line ∈ Text.lines body, lineCost line ≤ budget) : parts.flatten = body := by
  have hkept : ∀ line ∈ Text.lines body, kept line = line := by
    intro line hline
    rcases h.kept_eq_or line hline with hwhole | ⟨hlong, -⟩
    · exact hwhole
    · have hle := hcost line hline
      rw [lineCost] at hle
      omega
  rw [h.flatten_eq, List.flatMap_congr hkept, List.flatMap_id', Text.flatten_lines]

/-- A block that is taken apart keeps its body. -/
theorem parts_keep_body {block : Block} {limit : Nat} (hwide : limit < block.width)
    (hroom : block.overhead + 2 ≤ limit) :
    ∃ parts kept, refence block limit = parts.map block.wrap ∧
      Shares (limit - block.overhead) block.body kept parts ∧
      ((∀ line ∈ Text.lines block.body, lineCost line ≤ limit - block.overhead) →
        parts.flatten = block.body) :=
  have hshares := shares_bodyParts (limit - block.overhead) block.body
  ⟨_, _, refence_of_splits hwide hroom, hshares, hshares.flatten_eq_body⟩

theorem parts_keep_body_lost_newline :
    ∃ block : Block, 12 < block.width ∧ block.overhead + 2 ≤ 12 ∧
      refence block 12 = ["```\nab\n```\n", "```\nxxx\n```\n", "```\nxxx\n```\n",
        "```\ncd\n```\n"].map String.toList ∧
      ∃ parts kept, refence block 12 = parts.map block.wrap ∧
        Shares (12 - block.overhead) block.body kept parts ∧
        ((∀ line ∈ Text.lines block.body, lineCost line ≤ 12 - block.overhead) →
          parts.flatten = block.body) := by
  have hwide : 12 < Block.width ⟨"```\n".toList, "ab\nxxxxxx\ncd\n".toList, "```\n".toList⟩ := by
    decide
  have hroom :
      Block.overhead ⟨"```\n".toList, "ab\nxxxxxx\ncd\n".toList, "```\n".toList⟩ + 2 ≤ 12 := by
    decide
  exact ⟨_, hwide, hroom, by decide +kernel, parts_keep_body hwide hroom⟩

end ChannelAdapter.Chunk
