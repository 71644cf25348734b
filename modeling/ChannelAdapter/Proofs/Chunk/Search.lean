import ChannelAdapter.Proofs.Chunk.Selection
import ChannelAdapter.Proofs.Text.Slice
/-!
Split points found by byte offsets: the window of each kind of end is a slice of the text, a mark is
looked for in it from the back, and its end is reckoned from where the window begins. All offsets
exist, and the split point is the one that is chosen.
-/

namespace ChannelAdapter.Chunk

def Boundary.size : Boundary → Nat
  | .paragraph => 2
  | .line | .sentence | .word => 1
  | .hard => 0

/-- Whether a mark begins what is left of a window, `i` bytes past its start. What follows a
sentence is looked up in the text, since the window may end before it. -/
def Boundary.marks? (kind : Boundary) (text : List Char) (start i : Nat) :
    List Char → Option Bool
  | [] => some false
  | c :: left =>
      match kind with
      | .paragraph => some (c == '\n' && left.head? == some '\n')
      | .line => some (c == '\n')
      | .sentence =>
          if c == '.' || c == '!' || c == '?' then do
            let next ← Word.add? (← Word.add? start i) 1
            some (Text.spaceOrEnd text next)
          else some false
      | .word => some (c == ' ')
      | .hard => some false

/-- The last position in a window at which a test holds, tried from the end of the window. -/
def searchBack? (test : Nat → List Char → Option Bool) : Nat → List Char → Option (Option Nat)
  | _, [] => some none
  | i, c :: left => do
      match ← searchBack? test (i + c.utf8Size) left with
      | some found => some (some found)
      | none => if ← test i (c :: left) then some (some i) else some none

/-- Where the window begins that leaves out the first `percent` percent of the limit. -/
def windowStart? (cs : List Char) (limit percent : Nat) : Option Nat := do
  Text.charFloor? cs ((← Word.mul? limit percent) / 100)

/-- The end of the last mark of a kind in its window, which ends at byte `stop`. -/
def Boundary.search? (kind : Boundary) (cs : List Char) (stop : Nat) : Option (Option Nat) := do
  let start ← windowStart? cs stop kind.filled
  let window ← Text.slice? cs start stop
  match ← searchBack? (kind.marks? cs start) 0 window with
  | none => some none
  | some i => some (some (← Word.add? (← Word.add? start i) kind.size))

def splitAmong? (cs : List Char) (limit stop : Nat) : List Boundary → Option SplitPoint
  | [] => do some ⟨← Text.hardCut? cs limit, .hard⟩
  | kind :: kinds => do
      match ← kind.search? cs stop with
      | some pos => some ⟨pos, kind⟩
      | none => splitAmong? cs limit stop kinds

def splitPoint? (cs : List Char) (limit : Nat) : Option SplitPoint :=
  if Text.width cs ≤ limit then some ⟨Text.width cs, .hard⟩
  else do splitAmong? cs limit (← Text.charFloor? cs limit) Boundary.natural

/-! Marks in a window. -/

section
variable {kind : Boundary} {lo hi : Nat} {front cs : List Char}

theorem Boundary.BeginsAt.eq_size {n : Nat} (h : kind.BeginsAt front cs lo hi n) :
    n = kind.size := by
  obtain ⟨mark, after, -, hends, rfl⟩ := mark?_eq_some_iff.mp h.1
  cases hends with
  | paragraph => rfl
  | line => rfl
  | sentence hc => rcases hc with rfl | rfl | rfl <;> rfl
  | word => rfl

theorem lastMark_of_before_window {skipped : List Char} {pos : Nat}
    (hlo : pos + Text.width skipped ≤ lo) (hwindow : lo ≤ hi) (best : Option Nat) :
    lastMark kind lo hi pos best (skipped ++ cs) =
      lastMark kind lo hi (pos + Text.width skipped) best cs := by
  induction skipped generalizing pos with
  | nil => rfl
  | cons c skipped ih =>
      have hsize := c.utf8Size_pos
      rw [Text.width_cons] at hlo ⊢
      have hbefore : ¬ lo ≤ pos := by omega
      rw [List.cons_append, lastMark, if_pos (by omega), ← Nat.add_assoc, ← ih (by omega)]
      cases kind.mark? (c :: (skipped ++ cs)) <;> simp [hbefore]

theorem Boundary.marks?_sentence {c next : Char} {window rest : List Char} {start i : Nat}
    (hfront : Text.width front = start + i)
    (hsize : Text.width (front ++ c :: next :: rest) < 2 ^ 64) :
    sentence.marks? (front ++ c :: next :: rest) start i (c :: window) =
      some ((c == '.' || c == '!' || c == '?') && Text.isBlank next) := by
  cases hc : (c == '.' || c == '!' || c == '?') with
  | false => simp [marks?, hc]
  | true =>
      have hone : c.utf8Size = 1 := by
        simp only [Bool.or_eq_true, beq_iff_eq] at hc
        rcases hc with (rfl | rfl) | rfl <;> rfl
      have hnext := Text.spaceOrEnd_width (front ++ [c]) rest next
      rw [Text.width_append, hfront, Text.width_cons, Text.width_nil, hone, List.append_assoc,
        List.singleton_append] at hnext
      rw [Text.width_append, Text.width_cons, hone] at hsize
      rw [marks?, if_pos hc, Word.add?_of_lt (by omega), Option.bind_eq_bind, Option.bind_some,
        Word.add?_of_lt (by omega), Option.bind_some]
      exact congrArg some hnext

theorem Boundary.marks?_eq (kind : Boundary) {text window after : List Char} {c : Char}
    {start i : Nat} (htext : text = front ++ c :: (window ++ after))
    (hfront : Text.width front = start + i) (hsize : Text.width text < 2 ^ 64)
    (hafter : after ≠ []) :
    ∃ here, kind.marks? text start i (c :: window) = some here ∧
      (here = true ↔ kind.BeginsAt front (c :: (window ++ after)) start
        (Text.width (front ++ c :: window)) kind.size) := by
  subst htext
  have hstart : start ≤ Text.width front := by omega
  have hwithin (h : kind.size ≤ 1) :
      Text.width front + kind.size ≤ Text.width (front ++ c :: window) := by
    have hpos := c.utf8Size_pos
    rw [Text.width_append, Text.width_cons]
    omega
  cases kind with
  | paragraph =>
      have hnewline : '\n'.utf8Size = 1 := rfl
      refine ⟨_, rfl, ?_⟩
      by_cases hc : c = '\n'
      · subst hc
        cases window with
        | nil => simp [BeginsAt, size, hnewline]
        | cons d window =>
            by_cases hd : d = '\n'
            · subst hd
              have hboth : 2 ≤ 1 + (1 + Text.width window) := by omega
              simp [BeginsAt, size, mark?, hstart, hnewline, hboth]
            · simp [BeginsAt, size, mark?, hd]
      · simp [BeginsAt, size, mark?, hc]
  | line =>
      refine ⟨_, rfl, ?_⟩
      rw [BeginsAt, and_iff_left ⟨hstart, hwithin (Nat.le_refl 1)⟩]
      by_cases hc : c = '\n'
      · simp [hc, mark?, size]
      · simp [hc, mark?]
  | sentence =>
      -- the window ends before the text does, so something follows the mark
      obtain ⟨next, rest, hrest⟩ :=
        List.exists_cons_of_ne_nil (List.append_ne_nil_of_right_ne_nil window hafter)
      rw [hrest] at hsize ⊢
      refine ⟨_, marks?_sentence hfront hsize, ?_⟩
      rw [BeginsAt, and_iff_left ⟨hstart, hwithin (Nat.le_refl 1)⟩]
      simp [mark?, size]
  | word =>
      refine ⟨_, rfl, ?_⟩
      rw [BeginsAt, and_iff_left ⟨hstart, hwithin (Nat.le_refl 1)⟩]
      by_cases hc : c = ' '
      · simp [hc, mark?, size]
      · simp [hc, mark?]
  | hard => exact ⟨_, rfl, by simp [BeginsAt, mark?]⟩

theorem lastMark_of_le {pos : Nat} (h : hi ≤ pos) (best : Option Nat) :
    lastMark kind lo hi pos best cs = best := by
  cases cs with
  | nil => rfl
  | cons c cs => rw [lastMark, if_neg (Nat.not_lt.mpr h)]

theorem searchBack?_eq (kind : Boundary) {text window after : List Char} {start i : Nat}
    (htext : text = front ++ (window ++ after)) (hfront : Text.width front = start + i)
    (hsize : Text.width text < 2 ^ 64) (hafter : after ≠ []) :
    ∃ found, searchBack? (kind.marks? text start) i window = some found ∧
      ∀ best, lastMark kind start (Text.width (front ++ window)) (Text.width front) best
        (window ++ after) = (found.map (start + · + kind.size)).or best := by
  induction window generalizing front i with
  | nil =>
      refine ⟨none, rfl, fun best => ?_⟩
      rw [lastMark_of_le (by rw [List.append_nil])]
      rfl
  | cons c window ih =>
      have hread : Text.width front < Text.width (front ++ c :: window) := by
        have hpos := c.utf8Size_pos
        rw [Text.width_append, Text.width_cons]
        omega
      have hnext : Text.width (front ++ [c]) = start + (i + c.utf8Size) := by
        rw [Text.width_append, hfront, Text.width_cons, Text.width_nil]
        omega
      rw [List.cons_append] at htext
      obtain ⟨here, hmarks, hbegins⟩ := kind.marks?_eq htext hfront hsize hafter
      rw [List.append_cons] at htext
      obtain ⟨found, hfound, hlast⟩ := ih htext hnext
      have hstep (best : Option Nat) :
          lastMark kind start (Text.width (front ++ c :: window)) (Text.width front) best
            (c :: (window ++ after)) =
          lastMark kind start (Text.width (front ++ c :: window)) (Text.width (front ++ [c]))
            (if here then some (start + i + kind.size) else best) (window ++ after) := by
        cases here with
        | true => rw [lastMark_cons_of_beginsAt (hbegins.mp rfl) hread, hfront, if_pos rfl]
        | false =>
            have hnone (n : Nat) : ¬ kind.BeginsAt front (c :: (window ++ after)) start
                (Text.width (front ++ c :: window)) n := by
              intro h
              cases h.eq_size
              exact Bool.noConfusion (hbegins.mpr h)
            rw [lastMark_cons_of_not_beginsAt hnone hread, if_neg Bool.false_ne_true]
      refine ⟨found.or (if here then some i else none), ?_, fun best => ?_⟩
      · rw [searchBack?, hfound, hmarks]
        cases found <;> cases here <;> rfl
      · rw [List.cons_append, hstep, List.append_cons front c window, hlast]
        cases found <;> cases here <;> rfl

end

/-! The choice among the kinds. -/

section
variable {cs : List Char} {limit : Nat}

theorem windowStart?_eq {percent : Nat} (hlimit : limit < 2 ^ 57) (hpercent : percent ≤ 100) :
    windowStart? cs limit percent = some (Text.charFloor cs (limit * percent / 100)) := by
  have hproduct : limit * percent ≤ limit * 100 := Nat.mul_le_mul_left limit hpercent
  rw [windowStart?, Word.mul?_of_lt (by omega), Option.bind_eq_bind, Option.bind_some,
    Text.charFloor?_eq]

theorem exists_window {percent : Nat} (hlong : limit < Text.width cs) (hpercent : percent ≤ 100) :
    ∃ front window after, cs = front ++ window ++ after ∧ after ≠ [] ∧
      Text.charFloor cs (Text.charFloor cs limit * percent / 100) = Text.width front ∧
      Text.charFloor cs limit = Text.width (front ++ window) := by
  have hstop := (Text.isFloor_charFloor cs limit).1
  have hstart := (Text.isFloor_charFloor cs (Text.charFloor cs limit * percent / 100)).1
  have hshare : Text.charFloor cs limit * percent / 100 ≤ Text.charFloor cs limit :=
    Nat.div_le_of_le_mul (by rw [Nat.mul_comm]; exact Nat.mul_le_mul_right _ hpercent)
  obtain ⟨window, hwindow⟩ := hstart.1.exists_slice? hstop.1 (Nat.le_trans hstart.2 hshare)
  obtain ⟨front, after, hcs, hfront, hend⟩ := Text.slice?_eq_some_iff.mp hwindow
  refine ⟨front, window, after, hcs, ?_, hfront, hend⟩
  rintro rfl
  rw [hcs, List.append_nil, ← hend] at hlong
  exact Nat.not_le.mpr hlong hstop.2

theorem Boundary.search?_eq (kind : Boundary) (hsize : Text.width cs < 2 ^ 57)
    (hlong : limit < Text.width cs) :
    kind.search? cs (Text.charFloor cs limit) = some (kind.last? cs limit) := by
  have hstop_le := Text.charFloor_le cs limit
  have hfilled : kind.filled ≤ 100 := by cases kind <;> decide
  obtain ⟨front, window, after, hcs, hafter, hfront, hend⟩ := exists_window hlong hfilled
  have hwindow : Text.slice? cs (Text.width front) (Text.width (front ++ window)) = some window :=
    Text.slice?_eq_some_iff.mpr ⟨front, after, hcs, rfl, rfl⟩
  have hlo : 0 + Text.width front ≤ Text.width front := by omega
  have hhi : Text.width front ≤ Text.width (front ++ window) := by simp
  rw [search?, windowStart?_eq (by omega) hfilled, Option.bind_eq_bind, Option.bind_some, hfront,
    Boundary.last?, hfront, hend, hwindow, Option.bind_eq_bind, Option.bind_some]
  rw [hend] at hstop_le
  rw [List.append_assoc] at hcs
  obtain ⟨found, hfound, hmarks⟩ :=
    searchBack?_eq kind hcs (Nat.add_zero _).symm (by omega) hafter
  have hlast : lastMark kind (Text.width front) (Text.width (front ++ window)) 0 none cs =
      found.map (Text.width front + · + kind.size) := by
    rw [hcs, lastMark_of_before_window hlo hhi, Nat.zero_add]
    exact (hmarks none).trans Option.or_none
  rw [hfound, Option.bind_eq_bind, Option.bind_some, hlast]
  cases found with
  | none => rfl
  | some i =>
      have hle : Text.width front + i + kind.size ≤ Text.width (front ++ window) :=
        lastMark_le (by simp) hlast
      dsimp only
      rw [Word.add?_of_lt (by omega), Option.bind_some, Word.add?_of_lt (by omega)]
      rfl

theorem splitAmong?_eq (hsize : Text.width cs < 2 ^ 57) (hlong : limit < Text.width cs)
    (kinds : List Boundary) :
    splitAmong? cs limit (Text.charFloor cs limit) kinds =
      some ((kinds.findSome? fun kind => (kind.last? cs limit).map fun pos => ⟨pos, kind⟩).getD
        ⟨Text.hardCut cs limit, .hard⟩) := by
  induction kinds with
  | nil =>
      rw [splitAmong?, Text.hardCut?_eq (by omega)]
      rfl
  | cons kind kinds ih =>
      rw [splitAmong?, kind.search?_eq hsize hlong, List.findSome?_cons, Option.bind_eq_bind,
        Option.bind_some]
      cases kind.last? cs limit with
      | none => exact ih
      | some pos => rfl

theorem splitPoint?_eq (hsize : Text.width cs < 2 ^ 57) (limit : Nat) :
    splitPoint? cs limit = some (splitPoint cs limit) := by
  rw [splitPoint?, splitPoint]
  by_cases hfits : Text.width cs ≤ limit
  · rw [if_pos hfits, if_pos (Text.fits_iff.mpr hfits)]
  · rw [if_neg hfits, if_neg (mt Text.fits_iff.mp hfits), Text.charFloor?_eq, Option.bind_eq_bind,
      Option.bind_some, splitAmong?_eq hsize (Nat.not_le.mp hfits)]

end

end ChannelAdapter.Chunk
