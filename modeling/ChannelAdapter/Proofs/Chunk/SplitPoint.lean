import ChannelAdapter.Chunk.Plain
import ChannelAdapter.Proofs.Text.Cluster
/-!
How far a split point may lie. Natural ends lie within the limit; a hard cut goes beyond it only to
take a first cluster that is wider.
-/

namespace ChannelAdapter.Chunk

theorem lastMark_le {kind : Boundary} {lo hi pos : Nat} {best : Option Nat} {cs : List Char}
    {found : Nat} (hbest : ∀ p, best = some p → p ≤ hi)
    (h : lastMark kind lo hi pos best cs = some found) : found ≤ hi := by
  induction cs generalizing pos best with
  | nil => exact hbest found h
  | cons c cs ih =>
      rw [lastMark] at h
      split at h
      · refine ih ?_ h
        intro p hp
        split at hp
        · split at hp
          · cases hp
            omega
          · exact hbest p hp
        · exact hbest p hp
      · exact hbest found h

theorem Boundary.last?_le {kind : Boundary} {cs : List Char} {limit pos : Nat}
    (h : kind.last? cs limit = some pos) : pos ≤ limit :=
  Nat.le_trans (lastMark_le (by simp) h) (Text.charFloor_le cs limit)

theorem splitPoint_pos_le_or {cs : List Char} (hcs : cs ≠ []) (limit : Nat) :
    (splitPoint cs limit).pos ≤ limit ∨
      splitPoint cs limit = ⟨Text.width (Text.Cluster.first cs).1, .hard⟩ ∧
        limit < Text.width (Text.Cluster.first cs).1 := by
  unfold splitPoint
  split
  · next hfits => exact .inl (Text.fits_iff.mp hfits)
  · generalize hfound : List.findSome? _ _ = found
    cases found with
    | some point =>
        obtain ⟨kind, -, hkind⟩ := List.exists_of_findSome?_eq_some hfound
        obtain ⟨pos, hpos, rfl⟩ := Option.map_eq_some_iff.mp hkind
        exact .inl (Boundary.last?_le hpos)
    | none =>
        rw [Option.getD_none, Text.hardCut]
        split
        · next hzero => exact .inr ⟨rfl, Text.lt_width_first_of_clusterFloor_eq_zero hcs hzero⟩
        · obtain ⟨front, back, -, hfloor, hle⟩ := Text.exists_clusters_clusterFloor cs limit
          exact .inl (hfloor ▸ hle)

theorem width_piece_le_or {cs : List Char} (hcs : cs ≠ []) (limit : Nat) :
    Text.width (piece cs limit) ≤ limit ∨
      (splitPoint cs limit).boundary = .hard ∧ piece cs limit = (Text.Cluster.first cs).1 ∧
        limit < Text.width (Text.Cluster.first cs).1 := by
  rcases splitPoint_pos_le_or hcs limit with hle | ⟨hpoint, hlt⟩
  · exact .inl (Nat.le_trans (Text.width_splitAt_le _ cs) hle)
  · refine .inr ⟨by rw [hpoint], ?_, hlt⟩
    have hcut := Text.splitAt_width (Text.Cluster.first cs).1 (Text.Cluster.first cs).2
    rw [Text.Cluster.first_append] at hcut
    rw [piece, hpoint, hcut]

end ChannelAdapter.Chunk
