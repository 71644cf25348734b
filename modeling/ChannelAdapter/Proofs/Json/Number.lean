import Mathlib.Data.List.Basic
import ChannelAdapter.Proofs.Json.Written
/-!
How integers are read. The numeral of an integer is found in front of whatever may follow a value,
and stands for that integer as long as it fits into 64 bits.
-/

namespace ChannelAdapter.Json

/-- The integers that fit into 64 bits, signed or unsigned. -/
def Fits (n : Int) : Prop :=
  -0x8000000000000000 ≤ n ∧ n ≤ 0xFFFFFFFFFFFFFFFF

instance (n : Int) : Decidable (Fits n) :=
  inferInstanceAs (Decidable (_ ∧ _))

/-- What may stand behind a value: nothing, a comma, or the end of a container. -/
inductive AfterValue : List Char → Prop
  | nil : AfterValue []
  | comma (cs : List Char) : AfterValue (',' :: cs)
  | closeArray (cs : List Char) : AfterValue (']' :: cs)
  | closeObject (cs : List Char) : AfterValue ('\x7d' :: cs)

/-! Digits. -/

theorem le_ofDigitChars (m : Nat) (ds : List Char) : m ≤ Nat.ofDigitChars 10 ds m := by
  induction ds generalizing m with
  | nil => exact Nat.le_refl m
  | cons d ds ih =>
      rw [Nat.ofDigitChars_cons]
      exact Nat.le_trans (by omega) (ih _)

theorem absorb_of_le {m : Nat} {ds : List Char} (h : Nat.ofDigitChars 10 ds m ≤ maxMantissa) :
    absorb m ds = (Nat.ofDigitChars 10 ds m, []) := by
  induction ds generalizing m with
  | nil => rfl
  | cons d ds ih =>
      rw [Nat.ofDigitChars_cons] at h ⊢
      rw [absorb, digitValue, if_pos (Nat.le_trans (le_ofDigitChars _ ds) h)]
      exact ih h

theorem absorb_toDigits {n : Nat} (h : n ≤ maxMantissa) :
    absorb 0 (Nat.toDigits 10 n) = (n, []) := by
  have hvalue : Nat.ofDigitChars 10 (Nat.toDigits 10 n) 0 = n := Nat.ofDigitChars_ten_toDigits
  rw [absorb_of_le (hvalue.symm ▸ h), hvalue]

theorem head_toDigits_ne {n : Nat} (hpos : 0 < n) : (Nat.toDigits 10 n).head? ≠ some '0' := by
  induction n using Nat.strongRecOn with
  | ind n ih =>
      by_cases hlt : n < 10
      · have hsmall : ∀ d < 10, 0 < d → d.digitChar ≠ '0' := by decide
        rw [Nat.toDigits_of_lt_base hlt]
        exact fun hhead => hsmall n hlt hpos (Option.some.inj hhead)
      · have hle : 10 ≤ n := Nat.le_of_not_lt hlt
        rw [Nat.toDigits_of_base_le (by decide) hle,
          List.head?_append_of_ne_nil _ Nat.toDigits_ne_nil]
        exact ih (n / 10) (by omega) (by omega)

theorem exists_toDigits_eq_cons (n : Nat) : ∃ d ds, Nat.toDigits 10 n = d :: ds ∧ d.isDigit := by
  cases h : Nat.toDigits 10 n with
  | nil => exact absurd h Nat.toDigits_ne_nil
  | cons d ds =>
      have hd : d ∈ Nat.toDigits 10 n := h ▸ List.mem_cons_self
      exact ⟨d, ds, rfl, Nat.isDigit_of_mem_toDigits (by decide) (by decide) hd⟩

/-! Numerals. -/

theorem lexNumber?_of_isDigit {d : Char} (hd : d.isDigit) (cs : List Char) :
    lexNumber? (d :: cs) = lexMagnitude? false (d :: cs) := by
  unfold lexNumber?
  split
  · next hminus =>
      cases hminus
      exact absurd hd (by decide)
  · rfl

section
variable {rest : List Char} (hrest : AfterValue rest)
include hrest

theorem lexDigits?_append {ds : List Char} (hdigits : ∀ d ∈ ds, d.isDigit) (hne : ds ≠ []) :
    lexDigits? (ds ++ rest) = some (ds, rest) := by
  have htake : rest.takeWhile Char.isDigit = [] := by cases hrest <;> rfl
  have hdrop : rest.dropWhile Char.isDigit = rest := by cases hrest <;> rfl
  rw [lexDigits?, List.takeWhile_append_of_pos hdigits, List.dropWhile_append_of_pos hdigits, htake,
    hdrop, List.append_nil, if_neg (by simpa using hne)]

theorem lexWhole?_toDigits (n : Nat) :
    lexWhole? (Nat.toDigits 10 n ++ rest) = some (Nat.toDigits 10 n, rest) := by
  rcases Nat.eq_zero_or_pos n with rfl | hpos
  · rfl
  · have hdigits : ∀ d ∈ Nat.toDigits 10 n, d.isDigit :=
      fun _ => Nat.isDigit_of_mem_toDigits (by decide) (by decide)
    unfold lexWhole?
    split
    · next cs hzero =>
        have hhead := congrArg List.head? hzero
        rw [List.head?_append_of_ne_nil _ Nat.toDigits_ne_nil] at hhead
        exact absurd hhead (head_toDigits_ne hpos)
    · exact lexDigits?_append hrest hdigits Nat.toDigits_ne_nil

theorem lexMagnitude?_toDigits (negative : Bool) (n : Nat) :
    lexMagnitude? negative (Nat.toDigits 10 n ++ rest) =
      some (⟨negative, Nat.toDigits 10 n, [], none⟩, rest) := by
  have hfraction : lexFraction? rest = some ([], rest) := by cases hrest <;> rfl
  have hexponent : lexExponent? rest = some (none, rest) := by cases hrest <;> rfl
  simp [lexMagnitude?, lexWhole?_toDigits hrest, hfraction, hexponent]

theorem lexNumber?_integer (n : Int) :
    lexNumber? ((Number.integer n).text ++ rest) =
      some (⟨decide (n < 0), Nat.toDigits 10 n.natAbs, [], none⟩, rest) := by
  rw [Number.text_integer]
  by_cases hneg : n < 0
  · rw [if_pos hneg, decide_eq_true hneg]
    exact lexMagnitude?_toDigits hrest true n.natAbs
  · obtain ⟨d, ds, hdigits, hd⟩ := exists_toDigits_eq_cons n.natAbs
    have hread := lexMagnitude?_toDigits hrest false n.natAbs
    rw [if_neg hneg, decide_eq_false hneg, List.nil_append]
    rw [hdigits] at hread ⊢
    rw [List.cons_append, lexNumber?_of_isDigit hd]
    exact hread

end

theorem number?_integer {n : Int} (h : Fits n) :
    Numeral.number? ⟨decide (n < 0), Nat.toDigits 10 n.natAbs, [], none⟩ = some (.integer n) := by
  obtain ⟨hlow, hhigh⟩ := h
  have habs : n.natAbs ≤ maxMantissa := by rw [maxMantissa]; omega
  rw [Numeral.number?]
  dsimp only
  rw [absorb_toDigits habs]
  by_cases hneg : n < 0
  · have hsign : 0 < n.natAbs ∧ n.natAbs ≤ 0x8000000000000000 := by omega
    have hvalue : -(n.natAbs : Int) = n := by omega
    simp only [hneg, hsign, hvalue, decide_true, List.isEmpty_nil, Option.isNone_none,
      Bool.and_self, Bool.not_true, Bool.false_eq_true, if_true, if_false]
  · have hvalue : (n.natAbs : Int) = n := by omega
    simp only [hneg, hvalue, decide_false, List.isEmpty_nil, Option.isNone_none, Bool.and_self,
      Bool.not_false, if_true]

end ChannelAdapter.Json
