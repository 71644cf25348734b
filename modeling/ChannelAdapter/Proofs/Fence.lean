import ChannelAdapter.Fence
import ChannelAdapter.Proofs.Text.Spaces
import ChannelAdapter.Proofs.Text.Line
/-!
Which lines open and close fences. A line closes a fence if and only if it begins, after its
indentation, with the fence's run; what follows the run does not matter.
-/

namespace ChannelAdapter.Fence

def isLineEnd (c : Char) : Bool :=
  c == '\n' || c == '\r'

def isIndent (c : Char) : Bool :=
  c == ' ' || c == '\t'

/-! The run at the start of a line. -/

theorem le_runLength_iff {n : Nat} {c : Char} {cs : List Char} :
    n ≤ runLength c cs ↔ List.replicate n c <+: cs := by
  induction n generalizing cs with
  | zero => simp
  | succ n ih =>
      cases cs with
      | nil => simp [runLength]
      | cons d cs =>
          rw [List.replicate_succ, List.cons_prefix_cons, ← ih]
          by_cases hd : d = c
          · simp [runLength, hd]
          · simp [runLength, hd, Ne.symm hd]

theorem Mark.not_lineEnd (mark : Mark) : isLineEnd mark.char = false := by
  cases mark <;> rfl

theorem Mark.not_indent (mark : Mark) : isIndent mark.char = false := by
  cases mark <;> rfl

theorem bare_eq (line : List Char) :
    bare line = (line.rdropWhile isLineEnd).dropWhile isIndent :=
  rfl

theorem exists_eq_bare (line : List Char) :
    ∃ indent lineEnd, (∀ c ∈ indent, isIndent c = true) ∧ (∀ c ∈ lineEnd, isLineEnd c = true) ∧
      line = indent ++ bare line ++ lineEnd := by
  refine ⟨(line.rdropWhile isLineEnd).takeWhile isIndent, line.rtakeWhile isLineEnd, ?_, ?_, ?_⟩
  · intro c hc
    exact List.mem_takeWhile_imp hc
  · intro c hc
    exact List.mem_rtakeWhile_imp hc
  · rw [bare_eq, List.takeWhile_append_dropWhile, List.rdropWhile_append_rtakeWhile]

theorem bare_append_newline (line : List Char) : bare (line ++ ['\n']) = bare line := by
  rw [bare_eq, List.rdropWhile_concat_pos _ _ _ (by rfl), bare_eq]

theorem bare_append_run {mark : Mark} {n : Nat} {indent tail : List Char} (hn : 0 < n)
    (hindent : ∀ c ∈ indent, isIndent c = true) :
    bare (indent ++ List.replicate n mark.char ++ tail) =
      List.replicate n mark.char ++ tail.rdropWhile isLineEnd := by
  obtain ⟨n, rfl⟩ := Nat.exists_eq_succ_of_ne_zero (Nat.pos_iff_ne_zero.mp hn)
  set run := List.replicate (n + 1) mark.char with hrun
  have hkept : run.rdropWhile isLineEnd = run := by
    rw [List.rdropWhile_eq_self_iff]
    intro hne
    simp [hrun, mark.not_lineEnd]
  have hrunNe : run ≠ [] := by simp [hrun]
  have htail : (indent ++ run ++ tail).rdropWhile isLineEnd =
      indent ++ (run ++ tail.rdropWhile isLineEnd) := by
    rw [Text.rdropWhile_append, Text.rdropWhile_append, hkept, if_neg hrunNe]
    split
    · next hnil => rw [hnil, List.append_nil]
    · rw [List.append_assoc]
  rw [bare_eq, htail, List.dropWhile_append_of_pos hindent, hrun, List.replicate_succ,
    List.cons_append, List.dropWhile_cons_of_neg]
  rw [mark.not_indent]
  exact Bool.false_ne_true

theorem replicate_prefix_bare {mark : Mark} {n : Nat} {indent tail : List Char}
    (hindent : ∀ c ∈ indent, isIndent c = true) :
    List.replicate n mark.char <+: bare (indent ++ List.replicate n mark.char ++ tail) := by
  cases n with
  | zero => simp
  | succ n =>
      rw [bare_append_run n.succ_pos hindent]
      exact List.prefix_append _ _

/-! Lines that close a fence. -/

/-- A line that, after its indentation, begins with a run at least as long as that of a fence. -/
def ClosedBy (fence : Fence) (line : List Char) : Prop :=
  ∃ indent tail, (∀ c ∈ indent, isIndent c = true) ∧
    line = indent ++ List.replicate fence.size fence.mark.char ++ tail

theorem closedBy_iff {fence : Fence} {line : List Char} :
    fence.closedBy line = true ↔ fence.ClosedBy line := by
  rw [closedBy, closedByBare, decide_eq_true_eq, le_runLength_iff]
  constructor
  · rintro ⟨tail, htail⟩
    obtain ⟨indent, lineEnd, hindent, -, hline⟩ := exists_eq_bare line
    refine ⟨indent, tail ++ lineEnd, hindent, ?_⟩
    conv => lhs; rw [hline, ← htail]
    simp
  · rintro ⟨indent, tail, hindent, rfl⟩
    exact replicate_prefix_bare hindent

theorem closedBy_append {fence : Fence} {line : List Char} (h : fence.closedBy line = true)
    (tail : List Char) : fence.closedBy (line ++ tail) = true := by
  obtain ⟨indent, rest, hindent, rfl⟩ := closedBy_iff.mp h
  exact closedBy_iff.mpr ⟨indent, rest ++ tail, hindent, by simp⟩

@[simp] theorem closedBy_append_newline (fence : Fence) (line : List Char) :
    fence.closedBy (line ++ ['\n']) = fence.closedBy line := by
  rw [closedBy, closedBy, bare_append_newline]

/-! The line that opens a fence, and the one that is supplied to close it. -/

@[simp] theorem ofLine?_append_newline (line : List Char) :
    ofLine? (line ++ ['\n']) = ofLine? line := by
  rw [ofLine?, ofLine?, bare_append_newline]

theorem ofLine?_eq_some {line : List Char} {fence : Fence} (h : ofLine? line = some fence) :
    minSize ≤ fence.size ∧ fence.closedBy line = true := by
  simp only [ofLine?, ofBare?, Option.bind_eq_bind, Option.bind_eq_some_iff] at h
  obtain ⟨c, -, mark, -, h⟩ := h
  split at h
  · next hsize =>
      cases h
      exact ⟨hsize, by simp [closedBy, closedByBare]⟩
  · cases h

/-- A line that, after its indentation, begins with the whole run of a fence. -/
def OpenedBy (fence : Fence) (line : List Char) : Prop :=
  minSize ≤ fence.size ∧ ∃ indent tail, (∀ c ∈ indent, isIndent c = true) ∧
    line = indent ++ List.replicate fence.size fence.mark.char ++ tail ∧
    tail.head? ≠ some fence.mark.char

theorem runLength_eq_iff {n : Nat} {c : Char} {cs : List Char} :
    runLength c cs = n ↔ ∃ tail, cs = List.replicate n c ++ tail ∧ tail.head? ≠ some c := by
  constructor
  · intro hlength
    refine ⟨cs.dropWhile (· == c), ?_, ?_⟩
    · have hrun : cs.takeWhile (· == c) = List.replicate n c := by
        refine List.eq_replicate_iff.mpr ⟨hlength, ?_⟩
        intro d hd
        simpa using List.mem_takeWhile_imp hd
      rw [← hrun, List.takeWhile_append_dropWhile]
    · intro hhead
      have hstop := List.head?_dropWhile_not (· == c) cs
      simp [hhead] at hstop
  · rintro ⟨tail, rfl, htail⟩
    have hstop : tail.takeWhile (· == c) = [] := by
      cases tail with
      | nil => rfl
      | cons d tail => simpa using htail
    rw [runLength, List.takeWhile_append_of_pos (by simp), hstop, List.append_nil,
      List.length_replicate]

theorem ofBare?_eq_some_iff {cs : List Char} {fence : Fence} :
    ofBare? cs = some fence ↔
      minSize ≤ fence.size ∧ runLength fence.mark.char cs = fence.size := by
  simp only [ofBare?, Option.bind_eq_bind, Option.bind_eq_some_iff]
  constructor
  · rintro ⟨c, -, mark, -, h⟩
    split at h
    · next hsize =>
        cases h
        exact ⟨hsize, rfl⟩
    · cases h
  · rintro ⟨hsize, hrun⟩
    obtain ⟨tail, rfl, -⟩ := runLength_eq_iff.mp hrun
    have hhead : (List.replicate fence.size fence.mark.char ++ tail).head? =
        some fence.mark.char := by
      rw [minSize] at hsize
      rw [← Nat.sub_add_cancel (Nat.le_trans (by decide) hsize : 1 ≤ fence.size),
        List.replicate_succ]
      rfl
    refine ⟨fence.mark.char, hhead, fence.mark, Mark.ofChar?_eq_some.mpr rfl, ?_⟩
    rw [hrun, if_pos hsize]

theorem ofLine?_eq_some_iff {line : List Char} {fence : Fence} :
    ofLine? line = some fence ↔ fence.OpenedBy line := by
  rw [ofLine?, ofBare?_eq_some_iff]
  constructor
  · rintro ⟨hsize, hrun⟩
    obtain ⟨tail, hbare, htail⟩ := runLength_eq_iff.mp hrun
    obtain ⟨indent, lineEnd, hindent, hlineEnd, hline⟩ := exists_eq_bare line
    refine ⟨hsize, indent, tail ++ lineEnd, hindent, ?_, ?_⟩
    · rw [hbare] at hline
      rw [hline]
      simp
    · cases tail with
      | cons c tail => exact htail
      | nil =>
          intro hhead
          have hmark := hlineEnd _ (List.mem_of_head? hhead)
          rw [fence.mark.not_lineEnd] at hmark
          cases hmark
  · rintro ⟨hsize, indent, tail, hindent, rfl, htail⟩
    refine ⟨hsize, runLength_eq_iff.mpr ⟨tail.rdropWhile isLineEnd, ?_, ?_⟩⟩
    · exact bare_append_run (Nat.lt_of_lt_of_le (by decide) hsize) hindent
    · intro hhead
      obtain ⟨rest, hrest⟩ := List.rdropWhile_prefix isLineEnd tail
      apply htail
      rw [← hrest, List.head?_append, hhead]
      rfl

theorem opens_eq_false_iff {line : List Char} :
    opens line = false ↔ ∀ fence : Fence, ¬ fence.OpenedBy line := by
  rw [opens, Option.isSome_eq_false_iff, Option.isNone_iff_eq_none, Option.eq_none_iff_forall_ne_some]
  exact forall_congr' fun fence => not_congr ofLine?_eq_some_iff

theorem closedBy_eq_false_iff {fence : Fence} {line : List Char} :
    fence.closedBy line = false ↔ ¬ fence.ClosedBy line := by
  rw [← Bool.not_eq_true, closedBy_iff]

/-! Lines that open some fence. -/

/-- A line opens a fence if it begins, after its indentation, with a run of the least size. -/
theorem opens_iff {line : List Char} :
    opens line = true ↔ ∃ mark, closedBy ⟨mark, minSize⟩ line = true := by
  rw [opens, Option.isSome_iff_exists]
  constructor
  · rintro ⟨fence, hopen⟩
    obtain ⟨hsize, hrun⟩ := ofBare?_eq_some_iff.mp hopen
    refine ⟨fence.mark, ?_⟩
    rw [closedBy, closedByBare, decide_eq_true_eq, hrun]
    exact hsize
  · rintro ⟨mark, hclose⟩
    rw [closedBy, closedByBare, decide_eq_true_eq] at hclose
    exact ⟨⟨mark, runLength mark.char (bare line)⟩, ofBare?_eq_some_iff.mpr ⟨hclose, rfl⟩⟩

theorem opens_of_closedBy {fence : Fence} {line : List Char} (hsize : minSize ≤ fence.size)
    (h : fence.closedBy line = true) : opens line = true := by
  rw [closedBy, closedByBare, decide_eq_true_eq] at h
  refine opens_iff.mpr ⟨fence.mark, ?_⟩
  rw [closedBy, closedByBare, decide_eq_true_eq]
  exact Nat.le_trans hsize h

theorem opens_of_prefix {part line : List Char} (h : opens part = true) (hpart : part <+: line) :
    opens line = true := by
  obtain ⟨tail, rfl⟩ := hpart
  obtain ⟨mark, hclose⟩ := opens_iff.mp h
  exact opens_iff.mpr ⟨mark, closedBy_append hclose tail⟩

theorem opens_indented {indent line : List Char} (hindent : ∀ c ∈ indent, isIndent c = true)
    (h : opens line = true) : opens (indent ++ line) = true := by
  obtain ⟨mark, hclose⟩ := opens_iff.mp h
  obtain ⟨more, tail, hmore, rfl⟩ := closedBy_iff.mp hclose
  refine opens_iff.mpr ⟨mark, closedBy_iff.mpr ⟨indent ++ more, tail, ?_, by simp⟩⟩
  intro c hc
  exact (List.mem_append.mp hc).elim (hindent c) (hmore c)

theorem exists_ne_space_of_closedBy {line : List Char} {fence : Fence}
    (hsize : minSize ≤ fence.size) (h : fence.closedBy line = true) : ∃ c ∈ line, c ≠ ' ' := by
  obtain ⟨indent, tail, -, rfl⟩ := closedBy_iff.mp h
  refine ⟨fence.mark.char, ?_, ?_⟩
  · have : fence.size ≠ 0 := by rw [minSize] at hsize; omega
    simp [this]
  · cases fence.mark <;> decide

theorem closedBy_closingLine (fence : Fence) : fence.closedBy fence.closingLine = true := by
  refine closedBy_iff.mpr ⟨[], List.replicate (max fence.size minSize - fence.size)
    fence.mark.char ++ ['\n'], by simp, ?_⟩
  rw [List.nil_append, ← List.append_assoc, List.replicate_append_replicate, closingLine,
    Nat.add_sub_cancel' (Nat.le_max_left _ _)]

theorem isLine_closingLine (fence : Fence) : Text.IsLine fence.closingLine := by
  refine Text.isLine_concat_newline ?_
  intro hmem
  have := List.eq_of_mem_replicate hmem
  cases hmark : fence.mark <;> simp [hmark, Mark.char] at this

end ChannelAdapter.Fence
