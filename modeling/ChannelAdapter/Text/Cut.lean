import ChannelAdapter.Text.Width
import ChannelAdapter.Text.Cluster
/-!
Byte positions at which a text may be cut: the last character boundary and the last cluster boundary
at or before a position, and the hard cut, which takes a first cluster that is too wide whole.
-/

namespace ChannelAdapter.Text

/-- The last character boundary at or before byte `pos`. -/
def charFloor (cs : List Char) (pos : Nat) : Nat :=
  width (splitAt pos cs).1

theorem charFloor_le (cs : List Char) (pos : Nat) : charFloor cs pos ≤ pos :=
  width_splitAt_le pos cs

/-- The last cluster boundary at or before byte `pos`, the start of the text counting as one. -/
def clusterFloor (cs : List Char) (pos : Nat) : Nat :=
  if h : cs = [] then 0 else
    have := Cluster.length_first_snd_lt h
    if width (Cluster.first cs).1 ≤ pos then
      width (Cluster.first cs).1 +
        clusterFloor (Cluster.first cs).2 (pos - width (Cluster.first cs).1)
    else 0
termination_by cs.length

/-- Where a hard cut within `budget` bytes falls: the last cluster boundary that fits, or the end of
the first cluster when even that does not fit. -/
def hardCut (cs : List Char) (budget : Nat) : Nat :=
  if clusterFloor cs budget = 0 then width (Cluster.first cs).1 else clusterFloor cs budget

def IsBoundary (cs : List Char) (pos : Nat) : Prop :=
  ∃ a b, cs = a ++ b ∧ width a = pos

theorem isBoundary_clusterFloor (cs : List Char) (pos : Nat) :
    IsBoundary cs (clusterFloor cs pos) := by
  fun_induction clusterFloor cs pos with
  | case1 pos => exact ⟨[], [], rfl, rfl⟩
  | case2 cs pos h _ _ ih =>
      obtain ⟨a, b, hab, hw⟩ := ih
      refine ⟨(Cluster.first cs).1 ++ a, b, ?_, by rw [width_append, hw]⟩
      rw [List.append_assoc, ← hab, Cluster.first_append]
  | case3 cs pos h _ _ => exact ⟨[], cs, rfl, rfl⟩

theorem isBoundary_hardCut (cs : List Char) (budget : Nat) :
    IsBoundary cs (hardCut cs budget) := by
  unfold hardCut
  split
  · exact ⟨_, _, (Cluster.first_append cs).symm, rfl⟩
  · exact isBoundary_clusterFloor cs budget

theorem hardCut_pos {cs : List Char} (h : cs ≠ []) (budget : Nat) : 0 < hardCut cs budget := by
  unfold hardCut
  split
  · exact width_pos.mpr (Cluster.first_ne_nil h)
  · next hfloor => exact Nat.pos_of_ne_zero hfloor

theorem IsBoundary.length_lt {cs : List Char} {pos : Nat} (h : IsBoundary cs pos) (hpos : 0 < pos) :
    (splitAt pos cs).2.length < cs.length := by
  obtain ⟨a, b, rfl, rfl⟩ := h
  simp only [splitAt_width, List.length_append]
  have := List.length_pos_iff.mpr (width_pos.mp hpos)
  omega

end ChannelAdapter.Text
