import Mathlib.Data.List.DropRight
import ChannelAdapter.Text.Blank
/-!
What trimming does to a text. A trimmed text is a piece of the text, and only spaces are lost beside
it.
-/

namespace ChannelAdapter.Text

def Spaces (cs : List Char) : Prop :=
  ∀ c ∈ cs, c = ' '

theorem Spaces.append {a b : List Char} (ha : Spaces a) (hb : Spaces b) : Spaces (a ++ b) := by
  intro c hc
  rcases List.mem_append.mp hc with hc | hc
  · exact ha c hc
  · exact hb c hc

/-! Trimming at the end. -/

theorem trimEnd_eq_rdropWhile (cs : List Char) : trimEnd cs = cs.rdropWhile (· == ' ') :=
  rfl

theorem trimEnd_prefix (cs : List Char) : trimEnd cs <+: cs :=
  List.rdropWhile_prefix _ _

@[simp] theorem trimEnd_trimEnd (cs : List Char) : trimEnd (trimEnd cs) = trimEnd cs :=
  List.rdropWhile_idempotent _ _

theorem trimEnd_eq_nil_iff {cs : List Char} : trimEnd cs = [] ↔ Spaces cs := by
  simp [trimEnd_eq_rdropWhile, Spaces]

theorem exists_eq_trimEnd_append (cs : List Char) :
    ∃ gap, Spaces gap ∧ cs = trimEnd cs ++ gap := by
  refine ⟨cs.rtakeWhile (· == ' '), ?_, ?_⟩
  · intro c hc
    simpa using List.mem_rtakeWhile_imp hc
  · rw [trimEnd_eq_rdropWhile, List.rdropWhile_append_rtakeWhile]

theorem rdropWhile_append (p : α → Bool) (a b : List α) :
    (a ++ b).rdropWhile p = if b.rdropWhile p = [] then a.rdropWhile p else a ++ b.rdropWhile p := by
  simp only [List.rdropWhile, List.reverse_append, List.dropWhile_append, List.reverse_eq_nil_iff,
    List.isEmpty_iff]
  split <;> simp

theorem trimEnd_append (a b : List Char) :
    trimEnd (a ++ b) = if trimEnd b = [] then trimEnd a else a ++ trimEnd b :=
  rdropWhile_append _ a b

/-- Trimming a text that continues `a` either leaves `a` alone or trims it too. -/
theorem prefix_trimEnd_or {a cs : List Char} (h : a <+: cs) :
    a <+: trimEnd cs ∨ trimEnd cs = trimEnd a := by
  obtain ⟨b, rfl⟩ := h
  rw [trimEnd_append]
  split
  · exact .inr rfl
  · exact .inl (List.prefix_append _ _)

theorem width_trimEnd_le (cs : List Char) : width (trimEnd cs) ≤ width cs := by
  obtain ⟨gap, hgap⟩ := trimEnd_prefix cs
  conv => rhs; rw [← hgap]
  rw [width_append]
  omega

/-! Trimming at the start. -/

theorem exists_eq_append_trimStart (cs : List Char) :
    ∃ gap, Spaces gap ∧ cs = gap ++ trimStart cs := by
  refine ⟨cs.takeWhile (· == ' '), ?_, List.takeWhile_append_dropWhile.symm⟩
  intro c hc
  simpa using List.mem_takeWhile_imp hc

end ChannelAdapter.Text
