import Mathlib.Order.Bounds.Basic
import ChannelAdapter.Proofs.Text.LineEnd
/-!
Where texts may be cut. The last character boundary at or before a byte is found by going back over
the bytes that continue a character; floors and hard cuts are the greatest boundaries that there
are within a position or a budget.
-/

namespace ChannelAdapter.Text

/-! Boundaries of characters. -/

def IsFloor (cs : List Char) (pos floor : Nat) : Prop :=
  IsGreatest {p | IsBoundary cs p ∧ p ≤ pos} floor

theorem isFloor_charFloor (cs : List Char) (pos : Nat) :
    IsFloor cs pos (charFloor cs pos) := by
  refine ⟨⟨⟨_, _, (splitAt_append pos cs).symm, rfl⟩, charFloor_le cs pos⟩, ?_⟩
  rintro _ ⟨⟨a, b, rfl, rfl⟩, hle⟩
  induction a generalizing pos with
  | nil => exact Nat.zero_le _
  | cons c a ih =>
      rw [width_cons] at hle
      have hrest := ih (pos - c.utf8Size) (by omega)
      rw [charFloor] at hrest ⊢
      rw [List.cons_append, splitAt_cons, if_pos (by omega), width_cons, width_cons]
      omega

theorem IsBoundary.le_width {cs : List Char} {pos : Nat} (h : IsBoundary cs pos) :
    pos ≤ width cs := by
  obtain ⟨a, b, rfl, rfl⟩ := h
  rw [width_append]
  omega

theorem isBoundary_zero (cs : List Char) : IsBoundary cs 0 :=
  ⟨[], cs, rfl, rfl⟩

theorem isBoundary_width (cs : List Char) : IsBoundary cs (width cs) :=
  ⟨cs, [], by rw [List.append_nil], rfl⟩

/-- Nothing past the end of a text changes which of its positions is the last. -/
theorem isGreatest_min_width {cs : List Char} {pos floor : Nat} {P : Nat → Prop}
    (hP : ∀ p, P p → p ≤ width cs) (h : IsGreatest {p | P p ∧ p ≤ pos} floor) :
    IsGreatest {p | P p ∧ p ≤ min pos (width cs)} floor := by
  refine ⟨⟨h.1.1, le_min h.1.2 (hP _ h.1.1)⟩, ?_⟩
  intro p hp
  exact h.2 ⟨hp.1, hp.2.trans (min_le_left _ _)⟩

theorem IsFloor.min_width {cs : List Char} {pos floor : Nat} (h : IsFloor cs pos floor) :
    IsFloor cs (min pos (width cs)) floor :=
  isGreatest_min_width (fun _ => IsBoundary.le_width) h

theorem isBoundary_cons_iff {c : Char} {cs : List Char} {pos : Nat} :
    IsBoundary (c :: cs) pos ↔ pos = 0 ∨ c.utf8Size ≤ pos ∧ IsBoundary cs (pos - c.utf8Size) := by
  constructor
  · rintro ⟨a, b, hsplit, rfl⟩
    cases a with
    | nil => exact .inl rfl
    | cons d a =>
        rw [List.cons_append, List.cons.injEq] at hsplit
        obtain ⟨rfl, rfl⟩ := hsplit
        exact .inr ⟨by simp, a, b, rfl, by simp⟩
  · rintro (rfl | ⟨hle, a, b, rfl, hwidth⟩)
    · exact isBoundary_zero _
    · exact ⟨c :: a, b, rfl, by rw [width_cons]; omega⟩

/-! Bytes. -/

def bytes (cs : List Char) : List UInt8 :=
  cs.flatMap String.utf8EncodeChar

def isContinuation (b : UInt8) : Bool :=
  b &&& 0xC0 == 0x80

/-- The first byte at or before `pos` that begins a character, looked for backwards. There is none
if a byte is missing. -/
def scanBack? (bs : List UInt8) : Nat → Option Nat
  | 0 => some 0
  | pos + 1 => do
      if isContinuation (← bs[pos + 1]?) then scanBack? bs pos else some (pos + 1)

/-- The last character boundary at or before byte `pos`, read off the bytes. -/
def charFloor? (cs : List Char) (pos : Nat) : Option Nat :=
  if width cs ≤ pos then some (width cs) else scanBack? (bytes cs) pos

theorem exists_utf8EncodeChar_eq_cons (c : Char) :
    ∃ b bs, String.utf8EncodeChar c = b :: bs ∧ isContinuation b = false ∧
      ∀ b ∈ bs, isContinuation b = true := by
  have hone : ∀ n < 128, isContinuation (UInt8.ofNat n) = false := by decide
  have htwo : ∀ n < 32, isContinuation (UInt8.ofNat (n + 192)) = false := by decide
  have hthree : ∀ n < 16, isContinuation (UInt8.ofNat (n + 224)) = false := by decide
  have hfour : ∀ n < 8, isContinuation (UInt8.ofNat (n + 240)) = false := by decide
  have hmore : ∀ n < 64, isContinuation (UInt8.ofNat (n + 128)) = true := by decide
  have hmod (n : Nat) : isContinuation (UInt8.ofNat (n % 64 + 128)) = true :=
    hmore _ (Nat.mod_lt _ (by decide))
  rw [String.utf8EncodeChar]
  split
  · exact ⟨_, _, rfl, hone _ (by omega), List.forall_mem_nil _⟩
  · split
    · exact ⟨_, _, rfl, htwo _ (Nat.mod_lt _ (by decide)),
        List.forall_mem_cons.mpr ⟨hmod _, List.forall_mem_nil _⟩⟩
    · split
      · exact ⟨_, _, rfl, hthree _ (Nat.mod_lt _ (by decide)), List.forall_mem_cons.mpr
          ⟨hmod _, List.forall_mem_cons.mpr ⟨hmod _, List.forall_mem_nil _⟩⟩⟩
      · exact ⟨_, _, rfl, hfour _ (Nat.mod_lt _ (by decide)), List.forall_mem_cons.mpr
          ⟨hmod _, List.forall_mem_cons.mpr
            ⟨hmod _, List.forall_mem_cons.mpr ⟨hmod _, List.forall_mem_nil _⟩⟩⟩⟩

theorem length_bytes (cs : List Char) : (bytes cs).length = width cs := by
  induction cs with
  | nil => rfl
  | cons c cs ih =>
      rw [bytes, List.flatMap_cons, ← bytes, List.length_append, ih, width_cons,
        String.length_utf8EncodeChar]

theorem isBoundary_iff_of_getElem? {cs : List Char} {pos : Nat} {b : UInt8}
    (h : (bytes cs)[pos]? = some b) : IsBoundary cs pos ↔ isContinuation b = false := by
  induction cs generalizing pos with
  | nil => simp [bytes] at h
  | cons c cs ih =>
      obtain ⟨first, more, hcode, hfirst, hmore⟩ := exists_utf8EncodeChar_eq_cons c
      have hsize := String.length_utf8EncodeChar c
      rw [bytes, List.flatMap_cons, ← bytes] at h
      rw [isBoundary_cons_iff]
      by_cases hlt : pos < c.utf8Size
      · rw [List.getElem?_append_left (by omega), hcode] at h
        cases pos with
        | zero =>
            cases h
            simp [hfirst]
        | succ pos =>
            have hb := hmore b (List.mem_of_getElem? h)
            simp only [hb, Nat.not_le.mpr hlt]
            simp
      · rw [List.getElem?_append_right (by omega), hsize] at h
        have hpos := c.utf8Size_pos
        rw [← ih h]
        constructor
        · rintro (rfl | ⟨-, hboundary⟩)
          · omega
          · exact hboundary
        · exact fun hboundary => .inr ⟨by omega, hboundary⟩

theorem scanBack?_bytes {cs : List Char} {pos : Nat} (h : pos < width cs) :
    scanBack? (bytes cs) pos = some (charFloor cs pos) := by
  induction pos with
  | zero => rw [scanBack?, Nat.le_zero.mp (charFloor_le cs 0)]
  | succ pos ih =>
      obtain ⟨b, hbyte⟩ : ∃ b, (bytes cs)[pos + 1]? = some b :=
        ⟨_, List.getElem?_eq_getElem ((length_bytes cs).symm ▸ h)⟩
      have hboundary := isBoundary_iff_of_getElem? hbyte
      have hfloor := isFloor_charFloor cs (pos + 1)
      rw [scanBack?, hbyte]
      cases hcontinues : isContinuation b with
      | true =>
          -- no boundary here, so the floor is that of the byte before
          rw [hcontinues] at hboundary
          have hsame : IsFloor cs (pos + 1) (charFloor cs pos) := by
            obtain ⟨hmem, hlast⟩ := isFloor_charFloor cs pos
            refine ⟨⟨hmem.1, by have := hmem.2; omega⟩, ?_⟩
            intro p hp
            refine hlast ⟨hp.1, Nat.le_of_lt_succ (Nat.lt_of_le_of_ne hp.2 ?_)⟩
            rintro rfl
            exact Bool.noConfusion (hboundary.mp hp.1)
          simp [hcontinues, ih (by omega), hfloor.unique hsame]
      | false =>
          have hhere : IsFloor cs (pos + 1) (pos + 1) :=
            ⟨⟨hboundary.mpr hcontinues, Nat.le_refl _⟩, fun p hp => hp.2⟩
          simp [hcontinues, hfloor.unique hhere]

theorem charFloor?_eq (cs : List Char) (pos : Nat) :
    charFloor? cs pos = some (charFloor cs pos) := by
  rw [charFloor?]
  split
  · next hle =>
      have hwhole : IsFloor cs pos (width cs) :=
        ⟨⟨isBoundary_width cs, hle⟩, fun p hp => hp.1.le_width⟩
      rw [(isFloor_charFloor cs pos).unique hwhole]
  · next hlt => exact scanBack?_bytes (Nat.not_le.mp hlt)

/-! Boundaries of clusters. -/

/-- Where one cluster ends and the next begins. The ends of the text count too. -/
def IsClusterBoundary (cs : List Char) (pos : Nat) : Prop :=
  ∃ front back, clusters cs = front ++ back ∧ pos = width front.flatten

def IsClusterFloor (cs : List Char) (pos floor : Nat) : Prop :=
  IsGreatest {p | IsClusterBoundary cs p ∧ p ≤ pos} floor

theorem IsClusterBoundary.isBoundary {cs : List Char} {pos : Nat} (h : IsClusterBoundary cs pos) :
    IsBoundary cs pos := by
  obtain ⟨front, back, hclusters, rfl⟩ := h
  exact ⟨_, _, eq_flatten_append hclusters, rfl⟩

theorem width_flatten_le_clusterFloor {cs : List Char} {pos : Nat} {front back : List (List Char)}
    (hclusters : clusters cs = front ++ back) (hle : width front.flatten ≤ pos) :
    width front.flatten ≤ clusterFloor cs pos := by
  induction front generalizing cs pos with
  | nil => exact Nat.zero_le _
  | cons g front ih =>
      have hcs : cs ≠ [] := by
        rintro rfl
        simp at hclusters
      rw [clusters_of_ne_nil hcs, List.cons_append, List.cons.injEq] at hclusters
      obtain ⟨rfl, hrest⟩ := hclusters
      rw [List.flatten_cons, width_append] at hle ⊢
      have hlater : width front.flatten ≤
          clusterFloor (Cluster.first cs).2 (pos - width (Cluster.first cs).1) :=
        ih hrest (by omega)
      rw [clusterFloor_of_ne_nil hcs, if_pos (by omega)]
      omega

theorem isClusterFloor_clusterFloor (cs : List Char) (pos : Nat) :
    IsClusterFloor cs pos (clusterFloor cs pos) := by
  obtain ⟨front, back, hclusters, hfloor, hle⟩ := exists_clusters_clusterFloor cs pos
  refine ⟨⟨⟨front, back, hclusters, hfloor⟩, hfloor ▸ hle⟩, ?_⟩
  rintro _ ⟨⟨front, back, hclusters, rfl⟩, hle⟩
  exact width_flatten_le_clusterFloor hclusters hle

theorem IsClusterFloor.min_width {cs : List Char} {pos floor : Nat}
    (h : IsClusterFloor cs pos floor) : IsClusterFloor cs (min pos (width cs)) floor :=
  isGreatest_min_width (fun _ hp => hp.isBoundary.le_width) h

theorem isClusterBoundary_hardCut {cs : List Char} (hcs : cs ≠ []) (budget : Nat) :
    IsClusterBoundary cs (hardCut cs budget) := by
  obtain ⟨front, back, hclusters, hcut, -⟩ := exists_clusters_hardCut hcs budget
  exact ⟨front, back, hclusters, hcut⟩

theorem lt_width_first_of_lt_hardCut {cs : List Char} {budget : Nat}
    (h : budget < hardCut cs budget) : budget < width (Cluster.first cs).1 := by
  rw [hardCut] at h
  split at h
  · exact h
  · exact absurd (isClusterFloor_clusterFloor cs budget).1.2 (Nat.not_le.mpr h)

/-- A cut within a budget is the last cluster boundary there is, or the end of the first cluster. -/
structure IsHardCut (cs : List Char) (budget cut : Nat) : Prop where
  eq_ite : ∃ g gs floor, clusters cs = g :: gs ∧
    IsClusterFloor cs (min budget (width cs)) floor ∧ cut = if 0 < floor then floor else width g
  pos : 0 < cut
  isClusterBoundary : IsClusterBoundary cs cut
  isBoundary : IsBoundary cs cut
  wide : budget < cut → ∃ g gs, clusters cs = g :: gs ∧ budget < width g

theorem isHardCut_hardCut {cs : List Char} (hcs : cs ≠ []) (budget : Nat) :
    IsHardCut cs budget (hardCut cs budget) where
  eq_ite := by
    refine ⟨_, _, clusterFloor cs budget, clusters_of_ne_nil hcs,
      (isClusterFloor_clusterFloor cs budget).min_width, ?_⟩
    by_cases hzero : clusterFloor cs budget = 0
    · rw [hardCut, if_pos hzero, if_neg (Nat.not_lt.mpr (Nat.le_of_eq hzero))]
    · rw [hardCut, if_neg hzero, if_pos (Nat.pos_of_ne_zero hzero)]
  pos := hardCut_pos hcs budget
  isClusterBoundary := isClusterBoundary_hardCut hcs budget
  isBoundary := isBoundary_hardCut cs budget
  wide := fun h => ⟨_, _, clusters_of_ne_nil hcs, lt_width_first_of_lt_hardCut h⟩

/-- Floors are the greatest boundaries at or before a position, found from the bytes or from the
clusters, and hard cuts keep clusters whole. -/
theorem cuts_greatest (cs : List Char) (pos : Nat) :
    (charFloor? cs pos = some (charFloor cs pos) ∧
      IsFloor cs (min pos (width cs)) (charFloor cs pos)) ∧
    ((∀ g ∈ clusters cs, g ≠ []) ∧ (clusters cs).flatten = cs ∧
      (width cs ≤ pos → clusterFloor cs pos = width cs) ∧
      (pos < width cs → IsClusterFloor cs pos (clusterFloor cs pos))) ∧
    hardCut [] pos = 0 ∧
    (cs ≠ [] → IsHardCut cs pos (hardCut cs pos)) := by
  refine ⟨⟨charFloor?_eq cs pos, (isFloor_charFloor cs pos).min_width⟩,
    ⟨fun g => ne_nil_of_mem_clusters, flatten_clusters cs, clusterFloor_of_fits,
      fun _ => isClusterFloor_clusterFloor cs pos⟩, ?_, ?_⟩
  · rw [hardCut, clusterFloor_nil, if_pos rfl, Cluster.first_nil, width_nil]
  · intro hcs
    exact isHardCut_hardCut hcs pos

/-- The position falls into a character, and the budget into the first cluster. -/
theorem cuts_greatest_family :
    3 < width "👩‍👦b".toList ∧ "👩‍👦b".toList ≠ [] ∧ charFloor? "👩‍👦b".toList 3 = some 0 ∧
      IsFloor "👩‍👦b".toList (min 3 (width "👩‍👦b".toList)) 0 ∧
      IsClusterFloor "👩‍👦b".toList 3 0 ∧ IsHardCut "👩‍👦b".toList 3 11 := by
  have hlt : 3 < width "👩‍👦b".toList := by decide
  have hne : "👩‍👦b".toList ≠ [] := by decide
  have hchar : charFloor "👩‍👦b".toList 3 = 0 := by decide +kernel
  have hcluster : clusterFloor "👩‍👦b".toList 3 = 0 := by decide +kernel
  have hcut : hardCut "👩‍👦b".toList 3 = 11 := by decide +kernel
  obtain ⟨⟨hscan, hfloor⟩, ⟨-, -, -, hclusterFloor⟩, -, hhard⟩ := cuts_greatest "👩‍👦b".toList 3
  exact ⟨hlt, hne, hchar ▸ hscan, hchar ▸ hfloor, hcluster ▸ hclusterFloor hlt, hcut ▸ hhard hne⟩

end ChannelAdapter.Text
