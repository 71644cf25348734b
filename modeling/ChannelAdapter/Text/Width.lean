/-!
Text measured in UTF-8 bytes. `width` is additive over `++`, `fits` decides a bound without reading
further than it has to, and `splitAt` cuts at the last character boundary within a budget.
-/

namespace ChannelAdapter.Text

/-- Bytes that a text takes in UTF-8. -/
def width (cs : List Char) : Nat :=
  cs.foldl (fun n c => n + c.utf8Size) 0

private theorem foldl_width (cs : List Char) (n : Nat) :
    cs.foldl (fun n c => n + c.utf8Size) n = n + width cs := by
  induction cs generalizing n with
  | nil => rfl
  | cons c cs ih =>
      simp only [width, List.foldl_cons] at ih ⊢
      rw [ih, ih (0 + c.utf8Size)]
      omega

@[simp] theorem width_nil : width [] = 0 := rfl

@[simp] theorem width_cons (c : Char) (cs : List Char) :
    width (c :: cs) = c.utf8Size + width cs := by
  rw [width, List.foldl_cons, foldl_width]
  omega

@[simp] theorem width_append (a b : List Char) : width (a ++ b) = width a + width b := by
  induction a with
  | nil => simp
  | cons c a ih => simp [ih, Nat.add_assoc]

theorem width_toList (s : String) : width s.toList = s.utf8ByteSize := by
  suffices h : ∀ cs, width cs = (String.ofList cs).utf8ByteSize by rw [h, String.ofList_toList]
  intro cs
  induction cs with
  | nil => simp
  | cons c cs ih =>
      rw [width_cons, ih, ← List.singleton_append, String.ofList_append, String.utf8ByteSize_append,
        ← String.singleton_eq_ofList, String.utf8ByteSize_singleton]

theorem width_eq_zero {cs : List Char} : width cs = 0 ↔ cs = [] := by
  cases cs with
  | nil => simp
  | cons c cs => have := c.utf8Size_pos; simp; omega

theorem width_pos {cs : List Char} : 0 < width cs ↔ cs ≠ [] := by
  rw [Nat.pos_iff_ne_zero, ne_eq, width_eq_zero]

/-- Whether a text takes at most `n` bytes. Reading stops at the first character beyond them. -/
def fits : List Char → Nat → Bool
  | [], _ => true
  | c :: cs, n => if c.utf8Size ≤ n then fits cs (n - c.utf8Size) else false

theorem fits_iff {cs : List Char} {n : Nat} : fits cs n = true ↔ width cs ≤ n := by
  induction cs generalizing n with
  | nil => simp [fits]
  | cons c cs ih =>
      simp only [fits, width_cons]
      split
      · rw [ih]; omega
      · simp; omega

/-- The longest prefix of at most `n` bytes, and what follows it. -/
def splitAt (n : Nat) (cs : List Char) : List Char × List Char :=
  go n cs []
where
  go (n : Nat) : List Char → List Char → List Char × List Char
    | [], taken => (taken.reverse, [])
    | c :: cs, taken =>
        if c.utf8Size ≤ n then go (n - c.utf8Size) cs (c :: taken)
        else (taken.reverse, c :: cs)

private theorem splitAt_go (n : Nat) (cs taken : List Char) :
    splitAt.go n cs taken = (taken.reverse ++ (splitAt n cs).1, (splitAt n cs).2) := by
  induction cs generalizing n taken with
  | nil => simp [splitAt, splitAt.go]
  | cons c cs ih =>
      unfold splitAt splitAt.go
      split
      · rw [ih, ih _ [c]]
        simp [splitAt]
      · simp

@[simp] theorem splitAt_nil (n : Nat) : splitAt n [] = ([], []) := rfl

theorem splitAt_cons (n : Nat) (c : Char) (cs : List Char) :
    splitAt n (c :: cs) =
      if c.utf8Size ≤ n then
        (c :: (splitAt (n - c.utf8Size) cs).1, (splitAt (n - c.utf8Size) cs).2)
      else ([], c :: cs) := by
  conv => lhs; unfold splitAt splitAt.go
  split
  · rw [splitAt_go]; rfl
  · rfl

theorem splitAt_append (n : Nat) (cs : List Char) :
    (splitAt n cs).1 ++ (splitAt n cs).2 = cs := by
  induction cs generalizing n with
  | nil => rfl
  | cons c cs ih =>
      rw [splitAt_cons]
      split <;> simp [ih]

theorem width_splitAt_le (n : Nat) (cs : List Char) : width (splitAt n cs).1 ≤ n := by
  induction cs generalizing n with
  | nil => simp
  | cons c cs ih =>
      rw [splitAt_cons]
      split
      · have := ih (n - c.utf8Size); simp only [width_cons]; omega
      · simp

@[simp] theorem splitAt_width (a b : List Char) : splitAt (width a) (a ++ b) = (a, b) := by
  induction a with
  | nil =>
      cases b with
      | nil => rfl
      | cons c b =>
          have := c.utf8Size_pos
          rw [width_nil, List.nil_append, splitAt_cons, if_neg (by omega)]
  | cons c a ih =>
      rw [List.cons_append, splitAt_cons, width_cons, if_pos (by omega), Nat.add_sub_cancel_left,
        ih]

/-- The text after its first `n` bytes, if a character ends there. -/
def drop? : Nat → List Char → Option (List Char)
  | 0, cs => some cs
  | _ + 1, [] => none
  | n + 1, c :: cs => if c.utf8Size ≤ n + 1 then drop? (n + 1 - c.utf8Size) cs else none

end ChannelAdapter.Text
