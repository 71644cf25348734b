import ChannelAdapter.Text.Cut
/-!
Cuts and clusters. Cluster floors and hard cuts divide the clusters of a text into those before the
cut and those after it, and a text that begins a cluster is a cluster by itself.
-/

namespace ChannelAdapter.Text

/-! The list of clusters. -/

@[simp] theorem clusters_nil : clusters [] = [] := by
  rw [clusters, dif_pos rfl]

theorem clusters_of_ne_nil {cs : List Char} (h : cs ≠ []) :
    clusters cs = (Cluster.first cs).1 :: clusters (Cluster.first cs).2 := by
  rw [clusters, dif_neg h]

theorem ne_nil_of_mem_clusters {cs g : List Char} (h : g ∈ clusters cs) : g ≠ [] := by
  induction cs using clusters.induct with
  | case1 => simp at h
  | case2 cs hcs _ ih =>
      rw [clusters_of_ne_nil hcs] at h
      rcases List.mem_cons.mp h with rfl | h
      · exact Cluster.first_ne_nil hcs
      · exact ih h

theorem eq_flatten_append {cs : List Char} {front back : List (List Char)}
    (h : clusters cs = front ++ back) : cs = front.flatten ++ back.flatten := by
  rw [← List.flatten_append, ← h, flatten_clusters]

theorem flatten_ne_nil {cs : List Char} {front part back : List (List Char)}
    (h : clusters cs = front ++ part ++ back) (hpart : part ≠ []) : part.flatten ≠ [] := by
  obtain ⟨g, hg⟩ := List.exists_mem_of_ne_nil part hpart
  have hmem : g ∈ clusters cs := by simp [h, hg]
  intro hflatten
  exact ne_nil_of_mem_clusters hmem (List.flatten_eq_nil_iff.mp hflatten g hg)

theorem clusters_flatten {cs : List Char} {front back : List (List Char)}
    (h : clusters cs = front ++ back) : clusters back.flatten = back := by
  induction front generalizing cs with
  | nil =>
      rw [List.nil_append] at h
      rw [← h, flatten_clusters]
  | cons g front ih =>
      have hcs : cs ≠ [] := by
        rintro rfl
        simp at h
      rw [clusters_of_ne_nil hcs, List.cons_append, List.cons.injEq] at h
      exact ih h.2

/-! Beginnings of a cluster. -/

private theorem continuation_of_prefix {x : Cluster.Context} {a cs : List Char}
    (h : a <+: (Cluster.continuation x cs).1) : Cluster.continuation x a = (a, []) := by
  induction cs generalizing x a with
  | nil =>
      have ha : a = [] := List.prefix_nil.mp h
      rw [ha, Cluster.continuation]
  | cons c cs ih =>
      rw [Cluster.continuation] at h
      cases a with
      | nil => rw [Cluster.continuation]
      | cons d a =>
          split at h
          · next hjoins =>
              obtain ⟨rfl, ha⟩ := List.cons_prefix_cons.mp h
              rw [Cluster.continuation, if_pos hjoins, ih ha]
          · simp at h

theorem clusters_of_prefix_first {cs a : List Char} (h : a <+: (Cluster.first cs).1) (ha : a ≠ []) :
    clusters a = [a] := by
  cases cs with
  | nil => exact absurd (List.prefix_nil.mp h) ha
  | cons c cs =>
      cases a with
      | nil => exact absurd rfl ha
      | cons d a =>
          obtain ⟨rfl, hrest⟩ := List.cons_prefix_cons.mp h
          have hfirst : Cluster.first (d :: a) = (d :: a, []) := by
            simp only [Cluster.first, continuation_of_prefix hrest]
          rw [clusters_of_ne_nil ha, hfirst, clusters_nil]

/-! Cuts between clusters. -/

theorem exists_clusters_clusterFloor (cs : List Char) (pos : Nat) :
    ∃ front back, clusters cs = front ++ back ∧ clusterFloor cs pos = width front.flatten ∧
      width front.flatten ≤ pos := by
  fun_induction clusterFloor cs pos with
  | case1 pos => exact ⟨[], [], by simp⟩
  | case2 cs pos hcs _ hfits ih =>
      obtain ⟨front, back, hclusters, hfloor, hle⟩ := ih
      refine ⟨(Cluster.first cs).1 :: front, back, ?_, ?_, ?_⟩
      · rw [clusters_of_ne_nil hcs, hclusters, List.cons_append]
      · rw [hfloor, List.flatten_cons, width_append]
      · rw [List.flatten_cons, width_append]
        omega
  | case3 cs pos _ _ _ => exact ⟨[], clusters cs, by simp⟩

theorem lt_width_first_of_clusterFloor_eq_zero {cs : List Char} {pos : Nat} (hcs : cs ≠ [])
    (h : clusterFloor cs pos = 0) : pos < width (Cluster.first cs).1 := by
  refine Nat.lt_of_not_le fun hfits => ?_
  rw [clusterFloor, dif_neg hcs, if_pos hfits] at h
  have := width_pos.mpr (Cluster.first_ne_nil hcs)
  omega

/-- A hard cut takes some clusters that fit, or one that does not. -/
theorem exists_clusters_hardCut {cs : List Char} (hcs : cs ≠ []) (budget : Nat) :
    ∃ front back, clusters cs = front ++ back ∧ hardCut cs budget = width front.flatten ∧
      front ≠ [] ∧ (width front.flatten ≤ budget ∨ ∃ g, front = [g] ∧ budget < width g) := by
  by_cases hzero : clusterFloor cs budget = 0
  · refine ⟨[(Cluster.first cs).1], clusters (Cluster.first cs).2, ?_, ?_, by simp, ?_⟩
    · rw [clusters_of_ne_nil hcs, List.singleton_append]
    · rw [hardCut, if_pos hzero, List.flatten_singleton]
    · exact .inr ⟨_, rfl, lt_width_first_of_clusterFloor_eq_zero hcs hzero⟩
  · obtain ⟨front, back, hclusters, hfloor, hle⟩ := exists_clusters_clusterFloor cs budget
    refine ⟨front, back, hclusters, ?_, ?_, .inl hle⟩
    · rw [hardCut, if_neg hzero, hfloor]
    · rintro rfl
      exact hzero hfloor

end ChannelAdapter.Text
