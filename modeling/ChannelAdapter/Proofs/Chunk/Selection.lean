import ChannelAdapter.Proofs.Chunk.SplitPoint
import ChannelAdapter.Proofs.Text.Boundary
/-!
Which place to cut a text is chosen. Each kind of end is looked for in its own window, which begins
at a character boundary; the last mark in the window decides, and where there is none the next kind
is tried.
-/

namespace ChannelAdapter

namespace Chunk

/-! Marks. -/

/-- The mark that ends a unit of a kind, in front of what follows it. -/
inductive Boundary.Ends : Boundary → List Char → List Char → Prop
  | paragraph {after : List Char} : Ends .paragraph ['\n', '\n'] after
  | line {after : List Char} : Ends .line ['\n'] after
  | sentence {c next : Char} {after : List Char} (hc : c = '.' ∨ c = '!' ∨ c = '?')
      (hnext : Text.isBlank next = true) : Ends .sentence [c] (next :: after)
  | word {after : List Char} : Ends .word [' '] after

/-- A mark that lies between the bytes `lo` and `hi` ends at byte `pos`. The text stands behind
`front`. -/
def Boundary.MarkEnds (kind : Boundary) (front cs : List Char) (lo hi pos : Nat) : Prop :=
  ∃ before mark after, cs = before ++ mark ++ after ∧ kind.Ends mark after ∧
    lo ≤ Text.width (front ++ before) ∧ pos = Text.width (front ++ before ++ mark) ∧ pos ≤ hi

section
variable {kind : Boundary} {mark after : List Char}

theorem Boundary.Ends.width_pos (h : kind.Ends mark after) : 0 < Text.width mark := by
  rw [Text.width_pos]
  cases h <;> exact List.cons_ne_nil _ _

theorem Boundary.Ends.width_eq {mark' after' : List Char} (h : kind.Ends mark after)
    (h' : kind.Ends mark' after') : Text.width mark = Text.width mark' := by
  cases h with
  | paragraph => cases h'; rfl
  | line => cases h'; rfl
  | sentence hc =>
      cases h' with
      | sentence hc' => rcases hc with rfl | rfl | rfl <;> rcases hc' with rfl | rfl | rfl <;> rfl
  | word => cases h'; rfl

theorem Boundary.mark?_eq_some_iff {cs : List Char} {n : Nat} :
    kind.mark? cs = some n ↔
      ∃ mark after, cs = mark ++ after ∧ kind.Ends mark after ∧ n = Text.width mark := by
  constructor
  · intro h
    unfold mark? at h
    split at h
    · cases h
      exact ⟨['\n', '\n'], _, rfl, .paragraph, rfl⟩
    · cases h
      exact ⟨['\n'], _, rfl, .line, rfl⟩
    · next c next after =>
        split at h
        · next hmark =>
            simp only [Bool.and_eq_true, Bool.or_eq_true, beq_iff_eq, or_assoc] at hmark
            cases h
            refine ⟨[c], next :: after, rfl, .sentence hmark.1 hmark.2, ?_⟩
            rcases hmark.1 with rfl | rfl | rfl <;> rfl
        · cases h
    · cases h
      exact ⟨[' '], _, rfl, .word, rfl⟩
    · cases h
  · rintro ⟨mark, after, rfl, hends, rfl⟩
    cases hends with
    | paragraph => rfl
    | line => rfl
    | sentence hc hnext =>
        rcases hc with rfl | rfl | rfl <;> simp [mark?, hnext] <;> rfl
    | word => rfl

end

section
variable {kind : Boundary} {lo hi : Nat} {front cs : List Char}

theorem Boundary.not_markEnds_nil {pos : Nat} : ¬ kind.MarkEnds front [] lo hi pos := by
  rintro ⟨before, mark, after, hsplit, hends, -⟩
  have hmark : mark = [] := by
    rw [eq_comm, List.append_eq_nil_iff, List.append_eq_nil_iff] at hsplit
    exact hsplit.1.2
  exact Text.width_pos.mp hends.width_pos hmark

theorem Boundary.markEnds_cons_iff {c : Char} {pos : Nat} :
    kind.MarkEnds front (c :: cs) lo hi pos ↔
      (∃ n, kind.mark? (c :: cs) = some n ∧ lo ≤ Text.width front ∧
        pos = Text.width front + n ∧ pos ≤ hi) ∨
      kind.MarkEnds (front ++ [c]) cs lo hi pos := by
  constructor
  · rintro ⟨before, mark, after, hsplit, hends, hlo, hpos, hhi⟩
    cases before with
    | nil =>
        rw [List.append_nil] at hlo hpos
        rw [Text.width_append] at hpos
        exact .inl ⟨_, mark?_eq_some_iff.mpr ⟨mark, after, hsplit, hends, rfl⟩, hlo, hpos, hhi⟩
    | cons d before =>
        rw [List.cons_append, List.cons_append, List.cons.injEq] at hsplit
        obtain ⟨rfl, hsplit⟩ := hsplit
        rw [List.append_cons] at hlo hpos
        exact .inr ⟨before, mark, after, hsplit, hends, hlo, hpos, hhi⟩
  · rintro (⟨n, hmark, hlo, hpos, hhi⟩ | ⟨before, mark, after, rfl, hends, hlo, hpos, hhi⟩)
    · obtain ⟨mark, after, hsplit, hends, rfl⟩ := mark?_eq_some_iff.mp hmark
      refine ⟨[], mark, after, hsplit, hends, ?_, ?_, hhi⟩
      · rwa [List.append_nil]
      · rw [List.append_nil, Text.width_append, hpos]
    · refine ⟨c :: before, mark, after, rfl, hends, ?_, ?_, hhi⟩
      · rwa [List.append_cons]
      · rwa [List.append_cons]

theorem Boundary.MarkEnds.width_front_add_le {pos : Nat} (h : kind.MarkEnds front cs lo hi pos)
    {mark after : List Char} (hends : kind.Ends mark after) :
    Text.width front + Text.width mark ≤ pos := by
  obtain ⟨before, mark', after', -, hends', -, rfl, -⟩ := h
  rw [hends.width_eq hends', Text.width_append, Text.width_append]
  omega

theorem Boundary.not_markEnds_of_le {pos : Nat} (h : hi ≤ Text.width front) :
    ¬ kind.MarkEnds front cs lo hi pos := by
  rintro ⟨before, mark, after, -, hends, -, rfl, hhi⟩
  have hmark := hends.width_pos
  rw [Text.width_append, Text.width_append] at hhi
  omega

/-- A mark begins with the first character of the text and lies in the window. -/
def Boundary.BeginsAt (kind : Boundary) (front cs : List Char) (lo hi n : Nat) : Prop :=
  kind.mark? cs = some n ∧ lo ≤ Text.width front ∧ Text.width front + n ≤ hi

theorem lastMark_cons_of_beginsAt {c : Char} {n : Nat} (h : kind.BeginsAt front (c :: cs) lo hi n)
    (hread : Text.width front < hi) (best : Option Nat) :
    lastMark kind lo hi (Text.width front) best (c :: cs) =
      lastMark kind lo hi (Text.width (front ++ [c])) (some (Text.width front + n)) cs := by
  obtain ⟨hmark, hwindow⟩ := h
  rw [lastMark, if_pos hread]
  simp [hmark, hwindow]

theorem lastMark_cons_of_not_beginsAt {c : Char}
    (h : ∀ n, ¬ kind.BeginsAt front (c :: cs) lo hi n) (hread : Text.width front < hi)
    (best : Option Nat) :
    lastMark kind lo hi (Text.width front) best (c :: cs) =
      lastMark kind lo hi (Text.width (front ++ [c])) best cs := by
  rw [lastMark, if_pos hread]
  cases hmark : kind.mark? (c :: cs) with
  | none => simp
  | some n =>
      have hwindow : ¬ (lo ≤ Text.width front ∧ Text.width front + n ≤ hi) :=
        fun hwindow => h n ⟨hmark, hwindow⟩
      simp [hwindow]

theorem lastMark_eq (kind : Boundary) (lo hi : Nat) (front : List Char) (best : Option Nat)
    (cs : List Char) :
    (∃ pos, IsGreatest {p | kind.MarkEnds front cs lo hi p} pos ∧
      lastMark kind lo hi (Text.width front) best cs = some pos) ∨
    (∀ p, ¬ kind.MarkEnds front cs lo hi p) ∧
      lastMark kind lo hi (Text.width front) best cs = best := by
  induction cs generalizing front best with
  | nil => exact .inr ⟨fun _ => Boundary.not_markEnds_nil, rfl⟩
  | cons c cs ih =>
      by_cases hread : Text.width front < hi
      · by_cases hhere : ∃ n, kind.BeginsAt front (c :: cs) lo hi n
        · obtain ⟨n, hmark, hlo, hhi⟩ := hhere
          have hmem : kind.MarkEnds front (c :: cs) lo hi (Text.width front + n) :=
            Boundary.markEnds_cons_iff.mpr (.inl ⟨n, hmark, hlo, rfl, hhi⟩)
          rw [lastMark_cons_of_beginsAt ⟨hmark, hlo, hhi⟩ hread]
          rcases ih (front ++ [c]) (some (Text.width front + n)) with
            ⟨pos, ⟨hpos, hlast⟩, hfound⟩ | ⟨hnone, hfound⟩
          · -- the mark that begins here ends before one that begins later
            have hle : Text.width front + n ≤ pos := by
              obtain ⟨mark, after, -, hends, rfl⟩ := Boundary.mark?_eq_some_iff.mp hmark
              have hlater := hpos.width_front_add_le hends
              rw [Text.width_append] at hlater
              omega
            refine .inl ⟨pos, ⟨Boundary.markEnds_cons_iff.mpr (.inr hpos), ?_⟩, hfound⟩
            intro p hp
            rcases Boundary.markEnds_cons_iff.mp hp with ⟨m, hsome, -, rfl, -⟩ | hp
            · cases hmark.symm.trans hsome
              exact hle
            · exact hlast hp
          · refine .inl ⟨_, ⟨hmem, ?_⟩, hfound⟩
            intro p hp
            rcases Boundary.markEnds_cons_iff.mp hp with ⟨m, hsome, -, rfl, -⟩ | hp
            · cases hmark.symm.trans hsome
              exact Nat.le_refl _
            · exact absurd hp (hnone p)
        · have hcons (p : Nat) : kind.MarkEnds front (c :: cs) lo hi p ↔
              kind.MarkEnds (front ++ [c]) cs lo hi p := by
            rw [Boundary.markEnds_cons_iff, or_iff_right]
            rintro ⟨n, hmark, hlo, rfl, hhi⟩
            exact hhere ⟨n, hmark, hlo, hhi⟩
          rw [lastMark_cons_of_not_beginsAt (not_exists.mp hhere) hread]
          simp only [hcons]
          exact ih (front ++ [c]) best
      · rw [lastMark, if_neg hread]
        exact .inr ⟨fun _ => Boundary.not_markEnds_of_le (Nat.not_lt.mp hread), rfl⟩

end

/-! The choice among the kinds. -/

/-- Rules are tried in order, each in the window that begins where `start` says for its share of the
limit, in percent. The first one that finds a mark takes the last mark; if none does, the text is cut
hard. -/
inductive Selects (cs : List Char) (limit stop : Nat) (start : Nat → Nat) :
    List (Boundary × Nat) → SplitPoint → Prop
  | found {kind : Boundary} {percent pos : Nat} {rules : List (Boundary × Nat)}
      (hlast : IsGreatest {p | kind.MarkEnds [] cs (start percent) stop p} pos) :
      Selects cs limit stop start ((kind, percent) :: rules) ⟨pos, kind⟩
  | passed {kind : Boundary} {percent : Nat} {rules : List (Boundary × Nat)} {point : SplitPoint}
      (hnone : ∀ p, ¬ kind.MarkEnds [] cs (start percent) stop p)
      (hrest : Selects cs limit stop start rules point) :
      Selects cs limit stop start ((kind, percent) :: rules) point
  | hard : Selects cs limit stop start [] ⟨Text.hardCut cs limit, .hard⟩

section
variable {cs : List Char} {limit : Nat}

theorem selects_findSome? (cs : List Char) (limit : Nat) (kinds : List Boundary) :
    Selects cs limit (Text.charFloor cs limit)
      (fun percent => Text.charFloor cs (Text.charFloor cs limit * percent / 100))
      (kinds.map fun kind => (kind, kind.filled))
      ((kinds.findSome? fun kind => (kind.last? cs limit).map fun pos => ⟨pos, kind⟩).getD
        ⟨Text.hardCut cs limit, .hard⟩) := by
  induction kinds with
  | nil => exact .hard
  | cons kind kinds ih =>
      rw [List.map_cons, List.findSome?_cons]
      rcases lastMark_eq kind (Text.charFloor cs (Text.charFloor cs limit * kind.filled / 100))
        (Text.charFloor cs limit) [] none cs with ⟨pos, hlast, hfound⟩ | ⟨hnone, hfound⟩
      · rw [Boundary.last?, ← Text.width_nil, hfound]
        exact .found hlast
      · rw [Boundary.last?, ← Text.width_nil, hfound]
        exact .passed hnone ih

theorem selects_splitPoint (hlong : limit < Text.width cs) :
    Selects cs limit (Text.charFloor cs limit)
      (fun percent => Text.charFloor cs (Text.charFloor cs limit * percent / 100))
      [(.paragraph, 70), (.line, 60), (.sentence, 50), (.word, 80)] (splitPoint cs limit) := by
  rw [splitPoint, if_neg (mt Text.fits_iff.mp (Nat.not_le.mpr hlong))]
  exact selects_findSome? cs limit Boundary.natural

/-- A text that is too long is cut after the last paragraph, line, sentence or word in the window of
its kind, in this order, or else hard. -/
theorem splitPoint_selects (hlong : limit < Text.width cs) :
    ∃ (stop : Nat) (start : Nat → Nat), Text.IsFloor cs limit stop ∧
      (∀ percent, Text.IsFloor cs (stop * percent / 100) (start percent)) ∧
      Selects cs limit stop start [(.paragraph, 70), (.line, 60), (.sentence, 50), (.word, 80)]
        (splitPoint cs limit) ∧
      0 < (splitPoint cs limit).pos ∧ Text.IsBoundary cs (splitPoint cs limit).pos ∧
      (limit < (splitPoint cs limit).pos →
        (splitPoint cs limit).boundary = .hard ∧ limit < Text.width (Text.Cluster.first cs).1) := by
  have hcs : cs ≠ [] := Text.width_pos.mp (Nat.lt_of_le_of_lt (Nat.zero_le limit) hlong)
  obtain ⟨hboundary, hpos⟩ := splitPoint_boundary hcs limit
  refine ⟨_, _, Text.isFloor_charFloor cs limit, fun _ => Text.isFloor_charFloor cs _,
    selects_splitPoint hlong, hpos, hboundary, ?_⟩
  intro hbeyond
  rcases splitPoint_pos_le_or hcs limit with hle | ⟨hpoint, hwide⟩
  · exact absurd hle (Nat.not_le.mpr hbeyond)
  · exact ⟨by rw [hpoint], hwide⟩

end

/-- The limit falls into a character, so the windows end before it; the sentence is preferred to the
word that ends later. -/
theorem splitPoint_selects_sentence :
    10 < Text.width "Grüße. Äpfel".toList ∧
      ∃ (stop : Nat) (start : Nat → Nat), Text.IsFloor "Grüße. Äpfel".toList 10 stop ∧
        (∀ percent, Text.IsFloor "Grüße. Äpfel".toList (stop * percent / 100) (start percent)) ∧
        Selects "Grüße. Äpfel".toList 10 stop start
          [(.paragraph, 70), (.line, 60), (.sentence, 50), (.word, 80)] ⟨8, .sentence⟩ := by
  have hlong : 10 < Text.width "Grüße. Äpfel".toList := by decide
  have hpoint : splitPoint "Grüße. Äpfel".toList 10 = ⟨8, .sentence⟩ := by decide +kernel
  obtain ⟨stop, start, hstop, hstart, hselects, -⟩ := splitPoint_selects hlong
  rw [hpoint] at hselects
  exact ⟨hlong, stop, start, hstop, hstart, hselects⟩

end Chunk

end ChannelAdapter
