import Mathlib.Data.List.DropRight
import ChannelAdapter.Text.Line
/-!
What the lines of a text are: non-empty, with a newline at their end and nowhere else, and only the
last one may lack it. There is one such list of lines for each text, so that lines can be computed
by giving them.
-/

namespace ChannelAdapter.Text

/-! Texts that end in a newline. -/

theorem endsLine_iff {cs : List Char} : endsLine cs = true ↔ ∃ init, cs = init ++ ['\n'] := by
  simp [endsLine, List.getLast?_eq_some_iff]

@[simp] theorem endsLine_concat_newline (cs : List Char) : endsLine (cs ++ ['\n']) = true :=
  endsLine_iff.mpr ⟨cs, rfl⟩

theorem endsLine_append {a b : List Char} (hb : b ≠ []) : endsLine (a ++ b) = endsLine b := by
  simp [endsLine, List.getLast?_append_of_ne_nil _ hb]

theorem ne_nil_of_endsLine {cs : List Char} (h : endsLine cs = true) : cs ≠ [] := by
  rintro rfl
  simp [endsLine] at h

theorem endsLine_of_suffix {cs rest : List Char} (h : endsLine cs = true) (hsuffix : rest <:+ cs)
    (hrest : rest ≠ []) : endsLine rest = true := by
  obtain ⟨taken, rfl⟩ := hsuffix
  rwa [endsLine_append hrest] at h

theorem endsLine_flatten {ls : List (List Char)} (hls : ls ≠ [])
    (h : ∀ line ∈ ls, endsLine line = true) : endsLine ls.flatten = true := by
  obtain ⟨front, line, rfl⟩ := (List.eq_nil_or_concat' ls).resolve_left hls
  have hline := h line (by simp)
  rw [List.flatten_append, List.flatten_singleton,
    endsLine_append (ne_nil_of_endsLine hline)]
  exact hline

/-! Lines. -/

/-- A line by itself: a newline stands at its end, if anywhere. -/
structure IsLine (line : List Char) : Prop where
  ne_nil : line ≠ []
  newline_not_mem : '\n' ∉ line.dropLast

structure Lined (ls : List (List Char)) : Prop where
  isLine : ∀ line ∈ ls, IsLine line
  endsLine : ls.Pairwise fun line _ => endsLine line = true

theorem IsLine.eq_or {line : List Char} (h : IsLine line) :
    '\n' ∉ line ∨ ∃ init, '\n' ∉ init ∧ line = init ++ ['\n'] := by
  obtain ⟨init, c, rfl⟩ := (List.eq_nil_or_concat' line).resolve_left h.ne_nil
  have hinit : '\n' ∉ init := by simpa using h.newline_not_mem
  by_cases hc : c = '\n'
  · subst hc
    exact .inr ⟨init, hinit, rfl⟩
  · refine .inl ?_
    simp [hinit, Ne.symm hc]

theorem isLine_of_newline_not_mem {cs : List Char} (hcs : cs ≠ []) (h : '\n' ∉ cs) : IsLine cs :=
  ⟨hcs, fun hmem => h (List.dropLast_subset cs hmem)⟩

theorem isLine_concat_newline {cs : List Char} (h : '\n' ∉ cs) : IsLine (cs ++ ['\n']) :=
  ⟨by simp, by simpa using h⟩

theorem IsLine.of_infix {line part : List Char} (h : IsLine line) (hpart : part <:+: line)
    (hne : part ≠ []) : IsLine part := by
  obtain ⟨a, b, rfl⟩ := hpart
  obtain ⟨init, c, rfl⟩ := (List.eq_nil_or_concat' part).resolve_left hne
  refine ⟨hne, ?_⟩
  intro hmem
  apply h.newline_not_mem
  rw [List.dropLast_concat] at hmem
  rcases List.eq_nil_or_concat' b with rfl | ⟨b, d, rfl⟩
  · rw [List.append_nil, ← List.append_assoc, List.dropLast_concat]
    exact List.mem_append_right a hmem
  · rw [← List.append_assoc (a ++ (init ++ [c])), List.dropLast_concat]
    simp [hmem]

theorem Lined.endsLine_of_mem {ls : List (List Char)} (h : Lined ls)
    (hends : Text.endsLine ls.flatten = true) {line : List Char} (hline : line ∈ ls) :
    Text.endsLine line = true := by
  obtain ⟨front, last, rfl⟩ := (List.eq_nil_or_concat' ls).resolve_left (List.ne_nil_of_mem hline)
  rcases List.mem_append.mp hline with hfront | hlast
  · exact (List.pairwise_append.mp h.endsLine).2.2 line hfront last (by simp)
  · have hne := (h.isLine last (by simp)).ne_nil
    rw [List.flatten_append, List.flatten_singleton, endsLine_append hne] at hends
    rwa [List.mem_singleton.mp hlast]

theorem Lined.flatten_ne_nil {ls : List (List Char)} (h : Lined ls) (hls : ls ≠ []) :
    ls.flatten ≠ [] := by
  obtain ⟨line, hline⟩ := List.exists_mem_of_ne_nil ls hls
  intro hnil
  exact (h.isLine line hline).ne_nil (List.flatten_eq_nil_iff.mp hnil line hline)

theorem lined_nil : Lined [] :=
  ⟨by simp, .nil⟩

theorem lined_singleton {line : List Char} (h : IsLine line) : Lined [line] :=
  ⟨by simpa using h, by simp⟩

theorem lined_append {front back : List (List Char)} :
    Lined (front ++ back) ↔
      Lined front ∧ Lined back ∧ (back ≠ [] → ∀ line ∈ front, endsLine line = true) := by
  constructor
  · rintro ⟨hlines, hends⟩
    obtain ⟨hfront, hback, hboth⟩ := List.pairwise_append.mp hends
    refine ⟨⟨fun line h => hlines line (by simp [h]), hfront⟩,
      ⟨fun line h => hlines line (by simp [h]), hback⟩, ?_⟩
    intro hne line hline
    obtain ⟨last, hlast⟩ := List.exists_mem_of_ne_nil back hne
    exact hboth line hline last hlast
  · rintro ⟨⟨hfront, hfrontEnds⟩, ⟨hback, hbackEnds⟩, hboth⟩
    refine ⟨fun line h => (List.mem_append.mp h).elim (hfront line) (hback line), ?_⟩
    refine List.pairwise_append.mpr ⟨hfrontEnds, hbackEnds, ?_⟩
    intro line hline last hlast
    exact hboth (List.ne_nil_of_mem hlast) line hline

theorem lined_cons {line : List Char} {ls : List (List Char)} :
    Lined (line :: ls) ↔ IsLine line ∧ Lined ls ∧ (ls ≠ [] → endsLine line = true) := by
  have h := @lined_append [line] ls
  rw [List.singleton_append] at h
  rw [h]
  constructor
  · rintro ⟨hline, hls, hends⟩
    exact ⟨hline.isLine line (by simp), hls, fun hne => hends hne line (by simp)⟩
  · rintro ⟨hline, hls, hends⟩
    exact ⟨lined_singleton hline, hls, fun hne => by simpa using hends hne⟩

/-! Reading the lines of a text. -/

private theorem go_append (line : List Char) (done : List (List Char)) {body : List Char}
    (hbody : '\n' ∉ body) (cs : List Char) :
    lines.go line done (body ++ cs) = lines.go (body.reverse ++ line) done cs := by
  induction body generalizing line with
  | nil => rfl
  | cons c body ih =>
      simp only [List.mem_cons, not_or] at hbody
      rw [List.cons_append, lines.go, if_neg (Ne.symm hbody.1), ih _ hbody.2]
      simp

private theorem go_done (line : List Char) (done : List (List Char)) (cs : List Char) :
    lines.go line done cs = done.reverse ++ lines.go line [] cs := by
  induction cs generalizing line done with
  | nil =>
      simp only [lines.go]
      split <;> simp
  | cons c cs ih =>
      simp only [lines.go]
      split
      · rw [ih, ih _ [_]]
        simp
      · exact ih _ _

@[simp] theorem lines_nil : lines [] = [] := rfl

theorem lines_of_newline_not_mem {cs : List Char} (hcs : cs ≠ []) (h : '\n' ∉ cs) :
    lines cs = [cs] := by
  have hgo := go_append [] [] h []
  rw [List.append_nil, List.append_nil] at hgo
  rw [lines, hgo]
  simp [lines.go, hcs]

theorem lines_append_newline {cs : List Char} (h : '\n' ∉ cs) (rest : List Char) :
    lines (cs ++ '\n' :: rest) = (cs ++ ['\n']) :: lines rest := by
  rw [lines, go_append [] [] h, lines.go, if_pos rfl, go_done, lines]
  simp

theorem lines_flatten {ls : List (List Char)} (h : Lined ls) : lines ls.flatten = ls := by
  induction ls with
  | nil => rfl
  | cons line ls ih =>
      obtain ⟨hline, hls, hends⟩ := lined_cons.mp h
      rcases hline.eq_or with hno | ⟨init, hinit, rfl⟩
      · have hnil : ls = [] := by
          by_contra hne
          obtain ⟨init, rfl⟩ := endsLine_iff.mp (hends hne)
          simp at hno
        subst hnil
        rw [List.flatten_singleton, lines_of_newline_not_mem hline.ne_nil hno]
      · rw [List.flatten_cons, List.append_assoc, List.singleton_append,
          lines_append_newline hinit, ih hls]

theorem lined_lines (cs : List Char) : Lined (lines cs) := by
  by_cases hmem : '\n' ∈ cs
  · obtain ⟨body, rest, hsplit, hbody⟩ := List.eq_append_cons_of_mem hmem
    have hshorter : rest.length < cs.length := by
      simp only [hsplit, List.length_append, List.length_cons]
      omega
    rw [hsplit, lines_append_newline hbody]
    exact lined_cons.mpr ⟨isLine_concat_newline hbody, lined_lines rest, by simp⟩
  · by_cases hcs : cs = []
    · rw [hcs, lines_nil]
      exact lined_nil
    · rw [lines_of_newline_not_mem hcs hmem]
      exact lined_singleton (isLine_of_newline_not_mem hcs hmem)
termination_by cs.length

theorem lines_eq_iff {cs : List Char} {ls : List (List Char)} :
    lines cs = ls ↔ Lined ls ∧ ls.flatten = cs := by
  constructor
  · rintro rfl
    exact ⟨lined_lines cs, flatten_lines cs⟩
  · rintro ⟨h, rfl⟩
    exact lines_flatten h

theorem lines_concat_newline {cs : List Char} (hcs : cs ≠ []) (h : endsLine cs = false) :
    ∃ front last, lines cs = front ++ [last] ∧ lines (cs ++ ['\n']) = front ++ [last ++ ['\n']] := by
  have hne : lines cs ≠ [] := by
    intro hnil
    exact hcs (by rw [← flatten_lines cs, hnil, List.flatten_nil])
  obtain ⟨front, last, hlines⟩ := (List.eq_nil_or_concat' (lines cs)).resolve_left hne
  have hlined := lined_lines cs
  have hflatten := flatten_lines cs
  rw [hlines] at hlined hflatten
  obtain ⟨hfront, hlast, hends⟩ := lined_append.mp hlined
  have hlastLine := hlast.isLine last (by simp)
  have hno : '\n' ∉ last := by
    rcases hlastLine.eq_or with hno | ⟨init, -, rfl⟩
    · exact hno
    · rw [← hflatten, List.flatten_append, List.flatten_singleton,
        endsLine_append hlastLine.ne_nil, endsLine_concat_newline] at h
      cases h
  refine ⟨front, last, hlines, lines_eq_iff.mpr ⟨?_, ?_⟩⟩
  · exact lined_append.mpr
      ⟨hfront, lined_singleton (isLine_concat_newline hno), fun _ => hends (by simp)⟩
  · rw [← hflatten]
    simp

theorem lines_append {a : List Char} (ha : a = [] ∨ endsLine a = true) (b : List Char) :
    lines (a ++ b) = lines a ++ lines b := by
  rcases ha with rfl | hends
  · rfl
  · refine lines_eq_iff.mpr ⟨lined_append.mpr ⟨lined_lines a, lined_lines b, ?_⟩, ?_⟩
    · intro _ line hline
      rw [← flatten_lines a] at hends
      exact (lined_lines a).endsLine_of_mem hends hline
    · rw [List.flatten_append, flatten_lines, flatten_lines]

/-! Lines of a part of a text. -/

/-- A piece of a line that begins where a line begins is the beginning of that line. -/
theorem exists_line_of_isLine {before part : List Char} (hstart : before = [] ∨ endsLine before = true)
    (hpart : IsLine part) (after : List Char) :
    ∃ line ∈ lines (before ++ part ++ after), part <+: line := by
  rw [List.append_assoc, lines_append hstart]
  rcases hpart.eq_or with hno | ⟨init, hinit, rfl⟩
  · by_cases hmem : '\n' ∈ after
    · obtain ⟨more, rest, rfl, hmore⟩ := List.eq_append_cons_of_mem hmem
      have hline : '\n' ∉ part ++ more := by simp [hno, hmore]
      rw [← List.append_assoc, lines_append_newline hline]
      exact ⟨_, List.mem_append_right _ List.mem_cons_self, by simp⟩
    · have hline : '\n' ∉ part ++ after := by simp [hno, hmem]
      rw [lines_of_newline_not_mem (by simp [hpart.ne_nil]) hline]
      exact ⟨_, List.mem_append_right _ List.mem_cons_self, List.prefix_append _ _⟩
  · rw [List.append_assoc, List.singleton_append, lines_append_newline hinit]
    exact ⟨_, List.mem_append_right _ List.mem_cons_self, List.prefix_rfl⟩

/-- The beginning of a line that has no newline yet. -/
def lineSoFar (cs : List Char) : List Char :=
  cs.rtakeWhile (· != '\n')

theorem newline_not_mem_lineSoFar (cs : List Char) : '\n' ∉ lineSoFar cs := by
  intro hmem
  simpa using List.mem_rtakeWhile_imp hmem

theorem exists_eq_append_lineSoFar (cs : List Char) :
    ∃ whole, cs = whole ++ lineSoFar cs ∧ (whole = [] ∨ endsLine whole = true) := by
  refine ⟨cs.rdropWhile (· != '\n'), List.rdropWhile_append_rtakeWhile.symm, ?_⟩
  rcases List.eq_nil_or_concat' (cs.rdropWhile (· != '\n')) with hnil | ⟨init, c, hsplit⟩
  · exact .inl hnil
  · have hlast := List.rdropWhile_last_not (· != '\n') cs (by simp [hsplit])
    simp only [hsplit, List.getLast_concat, bne_iff_ne, ne_eq, not_not] at hlast
    rw [hsplit, hlast]
    exact .inr (endsLine_concat_newline init)

/-- What is added to a text goes on its last line, if that has no newline yet. -/
theorem lines_append_of_cut {a : List Char} (ha : a ≠ []) (hcut : endsLine a = false)
    (b : List Char) : ∃ front last more rest, lines a = front ++ [last] ∧ '\n' ∉ last ∧
      lines (a ++ b) = front ++ (last ++ more) :: rest := by
  obtain ⟨whole, ha', hwhole⟩ := exists_eq_append_lineSoFar a
  have hno := newline_not_mem_lineSoFar a
  generalize lineSoFar a = last at ha' hno
  subst ha'
  have hlast : last ≠ [] := by
    rintro rfl
    rw [List.append_nil] at ha hcut
    rcases hwhole with hnil | hends
    · exact ha hnil
    · exact Bool.false_ne_true (hcut.symm.trans hends)
  rw [lines_append hwhole, lines_of_newline_not_mem hlast hno, List.append_assoc,
    lines_append hwhole]
  by_cases hmem : '\n' ∈ b
  · obtain ⟨more, rest, rfl, hmore⟩ := List.eq_append_cons_of_mem hmem
    have hline : '\n' ∉ last ++ more := by simp [hno, hmore]
    rw [← List.append_assoc, lines_append_newline hline, List.append_assoc]
    exact ⟨lines whole, last, _, lines rest, rfl, hno, rfl⟩
  · have hline : lines (last ++ b) = [last ++ b] :=
      lines_of_newline_not_mem (by simp [hlast]) (by simp [hno, hmem])
    rw [hline]
    exact ⟨lines whole, last, b, [], rfl, hno, rfl⟩

section
variable (before after : List Char) {part first : List Char} {rest : List (List Char)}

theorem exists_line_of_first (hlines : lines part = first :: rest) :
    ∃ line ∈ lines (before ++ part ++ after), lineSoFar before ++ first <+: line := by
  obtain ⟨whole, hbefore, hwhole⟩ := exists_eq_append_lineSoFar before
  have hfirst : IsLine first := (lined_lines part).isLine first (by simp [hlines])
  have hline : IsLine (lineSoFar before ++ first) := by
    refine ⟨by simp [hfirst.ne_nil], ?_⟩
    rw [List.dropLast_append_of_ne_nil hfirst.ne_nil, List.mem_append, not_or]
    exact ⟨newline_not_mem_lineSoFar before, hfirst.newline_not_mem⟩
  have hpart : part = first ++ rest.flatten := by
    rw [← flatten_lines part, hlines, List.flatten_cons]
  have hsplit : before ++ part ++ after =
      whole ++ (lineSoFar before ++ first) ++ (rest.flatten ++ after) := by
    conv => lhs; rw [hbefore, hpart]
    simp
  rw [hsplit]
  exact exists_line_of_isLine hwhole hline _

theorem exists_line_of_rest (hlines : lines part = first :: rest) {line : List Char}
    (hline : line ∈ rest) : ∃ whole ∈ lines (before ++ part ++ after), line <+: whole := by
  obtain ⟨front, back, rfl⟩ := List.append_of_mem hline
  have hlined := lined_lines part
  rw [hlines, ← List.cons_append] at hlined
  obtain ⟨-, hback, hends⟩ := lined_append.mp hlined
  have hpart : part = (first :: front).flatten ++ line ++ back.flatten := by
    rw [← flatten_lines part, hlines]
    simp
  have hstart : endsLine (before ++ (first :: front).flatten) = true := by
    have hfront := endsLine_flatten (List.cons_ne_nil first front) (hends (by simp))
    rwa [endsLine_append (ne_nil_of_endsLine hfront)]
  have hsplit : before ++ part ++ after =
      before ++ (first :: front).flatten ++ line ++ (back.flatten ++ after) := by
    rw [hpart]
    simp
  rw [hsplit]
  exact exists_line_of_isLine (.inr hstart) (hback.isLine line (by simp)) _

end

theorem lines_of_isLine {line : List Char} (h : IsLine line) : lines line = [line] :=
  lines_eq_iff.mpr ⟨lined_singleton h, by simp⟩

end ChannelAdapter.Text
