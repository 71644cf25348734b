import Mathlib.Algebra.Group.Nat.Defs
import ChannelAdapter.Text.Blank
import ChannelAdapter.Proofs.Text.Boundary
/-!
Byte offsets as a machine reckons with them. A sum or a product has to fit into 64 bits, a
difference must not be negative, and a slice has to begin and end at boundaries of characters; there
is no result otherwise. Cuts of a text never lack one.
-/

namespace ChannelAdapter

/-! Words of 64 bits. -/

namespace Word

def ofNat? (n : Nat) : Option Nat :=
  if n < 2 ^ 64 then some n else none

def add? (a b : Nat) : Option Nat :=
  ofNat? (a + b)

def mul? (a b : Nat) : Option Nat :=
  ofNat? (a * b)

def sub? (a b : Nat) : Option Nat :=
  if b ≤ a then some (a - b) else none

/-- Makes room for a text of `n` bytes. No text takes more than half of what a word counts. -/
def reserve? (n : Nat) : Option Unit :=
  if n < 2 ^ 63 then some () else none

variable {a b n : Nat}

theorem add?_of_lt (h : a + b < 2 ^ 64) : add? a b = some (a + b) :=
  if_pos h

theorem mul?_of_lt (h : a * b < 2 ^ 64) : mul? a b = some (a * b) :=
  if_pos h

theorem sub?_of_le (h : b ≤ a) : sub? a b = some (a - b) :=
  if_pos h

theorem sub?_of_lt (h : a < b) : sub? a b = none :=
  if_neg (Nat.not_le.mpr h)

theorem reserve?_of_lt (h : n < 2 ^ 63) : reserve? n = some () :=
  if_pos h

end Word

namespace Text

/-! Slices. -/

section
variable {cs : List Char} {start stop pos : Nat}

theorem IsBoundary.width_splitAt (h : IsBoundary cs pos) : width (splitAt pos cs).1 = pos := by
  obtain ⟨a, b, rfl, rfl⟩ := h
  rw [splitAt_width]

theorem isBoundary_iff_width_splitAt : IsBoundary cs pos ↔ width (splitAt pos cs).1 = pos :=
  ⟨IsBoundary.width_splitAt, fun h => ⟨_, _, (splitAt_append pos cs).symm, h⟩⟩

instance : Decidable (IsBoundary cs pos) :=
  decidable_of_iff _ isBoundary_iff_width_splitAt.symm

def slice? (cs : List Char) (start stop : Nat) : Option (List Char) :=
  if start ≤ stop ∧ stop ≤ width cs ∧ IsBoundary cs start ∧ IsBoundary cs stop then
    some (splitAt (stop - start) (splitAt start cs).2).1
  else none

theorem IsBoundary.sub {a b : List Char} (h : IsBoundary (a ++ b) pos) (hle : width a ≤ pos) :
    IsBoundary b (pos - width a) := by
  induction a generalizing pos with
  | nil => exact h
  | cons c a ih =>
      rw [width_cons] at hle
      have hpos := c.utf8Size_pos
      rw [List.cons_append, isBoundary_cons_iff, or_iff_right (by omega)] at h
      rw [width_cons, ← Nat.sub_sub]
      exact ih h.2 (by omega)

theorem slice?_eq_some_iff {part : List Char} :
    slice? cs start stop = some part ↔
      ∃ before after, cs = before ++ part ++ after ∧ start = width before ∧
        stop = width (before ++ part) := by
  constructor
  · intro h
    rw [slice?, Option.ite_none_right_eq_some, Option.some.injEq] at h
    obtain ⟨⟨hle, -, ⟨before, rest, rfl, rfl⟩, hstop⟩, rfl⟩ := h
    rw [splitAt_width]
    refine ⟨before, (splitAt (stop - width before) rest).2, ?_, rfl, ?_⟩
    · rw [List.append_assoc, splitAt_append]
    · rw [width_append, (hstop.sub hle).width_splitAt]
      omega
  · rintro ⟨before, after, rfl, rfl, rfl⟩
    have hstart : IsBoundary (before ++ part ++ after) (width before) :=
      ⟨before, part ++ after, List.append_assoc .., rfl⟩
    have hstop : IsBoundary (before ++ part ++ after) (width (before ++ part)) := ⟨_, _, rfl, rfl⟩
    have hle : width before ≤ width (before ++ part) := by simp
    rw [slice?, if_pos ⟨hle, hstop.le_width, hstart, hstop⟩, List.append_assoc, splitAt_width,
      width_append, Nat.add_sub_cancel_left, splitAt_width]

theorem IsBoundary.exists_slice? (hstart : IsBoundary cs start) (hstop : IsBoundary cs stop)
    (hle : start ≤ stop) : ∃ part, slice? cs start stop = some part :=
  ⟨_, if_pos ⟨hle, hstop.le_width, hstart, hstop⟩⟩

theorem IsBoundary.slice?_before (h : IsBoundary cs pos) :
    slice? cs 0 pos = some (splitAt pos cs).1 :=
  slice?_eq_some_iff.mpr ⟨[], (splitAt pos cs).2, (splitAt_append pos cs).symm, rfl,
    h.width_splitAt.symm⟩

theorem IsBoundary.slice?_after (h : IsBoundary cs pos) :
    slice? cs pos (width cs) = some (splitAt pos cs).2 :=
  slice?_eq_some_iff.mpr ⟨(splitAt pos cs).1, [], by rw [splitAt_append, List.append_nil],
    h.width_splitAt.symm, by rw [splitAt_append]⟩

end

theorem drop?_width (front back : List Char) : drop? (width front) (front ++ back) = some back := by
  induction front with
  | nil => simp [drop?]
  | cons c front ih =>
      have hpos := c.utf8Size_pos
      have hsum : c.utf8Size + width front = c.utf8Size - 1 + width front + 1 := by omega
      have hrest : c.utf8Size - 1 + width front + 1 - c.utf8Size = width front := by omega
      rw [width_cons, hsum, List.cons_append, drop?, if_pos (by omega), hrest, ih]

theorem spaceOrEnd_width (front back : List Char) (c : Char) :
    spaceOrEnd (front ++ c :: back) (width front) = isBlank c := by
  rw [spaceOrEnd, drop?_width]

/-! Cuts between clusters. -/

/-- Goes over the clusters of a text, the first of which begins at byte `floor`, up to the first one
that ends after byte `pos`. -/
def scanClusters? (pos : Nat) : Nat → List (List Char) → Option Nat
  | floor, [] => some floor
  | floor, g :: gs => do
      let stop ← Word.add? floor (width g)
      if pos < stop then some floor else scanClusters? pos stop gs

def clusterFloor? (cs : List Char) (pos : Nat) : Option Nat :=
  if width cs ≤ pos then some (width cs) else scanClusters? pos 0 (clusters cs)

def hardCut? (cs : List Char) (budget : Nat) : Option Nat :=
  if width cs ≤ budget then some (width cs)
  else do
    let floor ← clusterFloor? cs budget
    if floor = 0 then some (((clusters cs).head?.map width).getD (width cs)) else some floor

variable {cs : List Char}

theorem scanClusters?_eq {pos floor : Nat} (hsize : floor + width cs < 2 ^ 64) (hle : floor ≤ pos) :
    scanClusters? pos floor (clusters cs) = some (floor + clusterFloor cs (pos - floor)) := by
  fun_induction clusters cs generalizing floor with
  | case1 => rw [scanClusters?, clusterFloor_nil, Nat.add_zero]
  | case2 cs hcs _ ih =>
      have hwidth := congrArg width (Cluster.first_append cs)
      rw [width_append] at hwidth
      rw [scanClusters?, Word.add?_of_lt (by omega), Option.bind_eq_bind, Option.bind_some,
        clusterFloor_of_ne_nil hcs]
      by_cases hbeyond : pos < floor + width (Cluster.first cs).1
      · rw [if_pos hbeyond, if_neg (by omega), Nat.add_zero]
      · rw [if_neg hbeyond, if_pos (by omega), ih (by omega) (by omega), Nat.add_assoc, Nat.sub_sub]

theorem clusterFloor?_eq (hsize : width cs < 2 ^ 64) (pos : Nat) :
    clusterFloor? cs pos = some (clusterFloor cs pos) := by
  rw [clusterFloor?]
  split
  · next hfits => rw [clusterFloor_of_fits hfits]
  · rw [scanClusters?_eq (by omega) (Nat.zero_le pos), Nat.zero_add, Nat.sub_zero]

theorem hardCut?_eq (hsize : width cs < 2 ^ 64) (budget : Nat) :
    hardCut? cs budget = some (hardCut cs budget) := by
  rw [hardCut?]
  split
  · next hfits =>
      cases cs with
      | nil => rw [hardCut, clusterFloor_nil, if_pos rfl, Cluster.first_nil]
      | cons c cs => rw [hardCut_of_fits (List.cons_ne_nil c cs) hfits]
  · next hlong =>
      have hcs : cs ≠ [] := width_pos.mp (by omega)
      rw [clusterFloor?_eq hsize, Option.bind_eq_bind, Option.bind_some, hardCut,
        clusters_of_ne_nil hcs]
      split <;> rfl

end Text

end ChannelAdapter
