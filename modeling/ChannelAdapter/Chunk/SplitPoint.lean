import ChannelAdapter.Text.Blank
import ChannelAdapter.Text.Cut
/-!
Where a text that is too long is best cut. Natural ends are looked for backwards from the limit:
paragraphs, lines, sentences and words, each within its own window; a hard cut is the last resort.
-/

namespace ChannelAdapter.Chunk

inductive Boundary
  | paragraph | line | sentence | word | hard
  deriving DecidableEq, Repr

/-- The bytes of the mark that begins a text and ends a unit of this kind. A sentence ends only
where white space follows. -/
def Boundary.mark? : Boundary → List Char → Option Nat
  | .paragraph, '\n' :: '\n' :: _ => some 2
  | .line, '\n' :: _ => some 1
  | .sentence, c :: d :: _ =>
      if (c == '.' || c == '!' || c == '?') && Text.isBlank d then some 1 else none
  | .word, ' ' :: _ => some 1
  | _, _ => none

/-- The part of the limit, in percent, that has to be filled before a boundary of this kind. -/
def Boundary.filled : Boundary → Nat
  | .paragraph => 70
  | .line => 60
  | .sentence => 50
  | .word => 80
  | .hard => 100

def Boundary.natural : List Boundary :=
  [.paragraph, .line, .sentence, .word]

/-- The end of the last mark that lies between the byte positions `lo` and `hi`; `pos` is the
position of the text at hand, `best` the end of the last mark before it. -/
def lastMark (kind : Boundary) (lo hi : Nat) : Nat → Option Nat → List Char → Option Nat
  | _, best, [] => best
  | pos, best, c :: cs =>
      if pos < hi then
        let here :=
          match kind.mark? (c :: cs) with
          | some n => if lo ≤ pos ∧ pos + n ≤ hi then some (pos + n) else best
          | none => best
        lastMark kind lo hi (pos + c.utf8Size) here cs
      else best

def Boundary.last? (kind : Boundary) (cs : List Char) (limit : Nat) : Option Nat :=
  let hi := Text.charFloor cs limit
  lastMark kind (Text.charFloor cs (hi * kind.filled / 100)) hi 0 none cs

structure SplitPoint where
  pos : Nat
  boundary : Boundary
  deriving DecidableEq, Repr

/-- The place to cut a text so that the first part takes at most `limit` bytes, or holds one cluster
that is wider. -/
def splitPoint (cs : List Char) (limit : Nat) : SplitPoint :=
  if Text.fits cs limit then ⟨Text.width cs, .hard⟩
  else
    let found := Boundary.natural.findSome? fun kind =>
      (kind.last? cs limit).map fun pos => ⟨pos, kind⟩
    found.getD ⟨Text.hardCut cs limit, .hard⟩

theorem Boundary.mark?_boundary {kind : Boundary} {cs : List Char} {n : Nat}
    (h : kind.mark? cs = some n) : Text.IsBoundary cs n ∧ 0 < n := by
  unfold Boundary.mark? at h
  split at h
  · cases h; exact ⟨⟨['\n', '\n'], _, rfl, rfl⟩, by omega⟩
  · cases h; exact ⟨⟨['\n'], _, rfl, rfl⟩, by omega⟩
  · next c d cs =>
      split at h
      · next hc =>
          cases h
          refine ⟨⟨[c], d :: cs, rfl, ?_⟩, by omega⟩
          simp only [Bool.and_eq_true, Bool.or_eq_true, beq_iff_eq] at hc
          rcases hc.1 with (rfl | rfl) | rfl <;> rfl
      · cases h
  · cases h; exact ⟨⟨[' '], _, rfl, rfl⟩, by omega⟩
  · cases h

private theorem lastMark_boundary {kind : Boundary} {lo hi : Nat} {b cs : List Char}
    {best : Option Nat} {pos : Nat}
    (hbest : ∀ p, best = some p → Text.IsBoundary (b ++ cs) p ∧ 0 < p)
    (h : lastMark kind lo hi (Text.width b) best cs = some pos) :
    Text.IsBoundary (b ++ cs) pos ∧ 0 < pos := by
  induction cs generalizing b best with
  | nil => exact hbest pos h
  | cons c cs ih =>
      unfold lastMark at h
      split at h
      · have hsplit : b ++ c :: cs = (b ++ [c]) ++ cs := by simp
        have hwidth : Text.width b + c.utf8Size = Text.width (b ++ [c]) := by simp
        rw [hsplit]
        rw [hwidth] at h
        refine ih ?_ h
        intro p hp
        rw [← hsplit]
        split at hp
        · next n hn =>
            split at hp
            · cases hp
              obtain ⟨⟨x, y, hxy, hw⟩, hpos⟩ := Boundary.mark?_boundary hn
              refine ⟨⟨b ++ x, y, by rw [List.append_assoc, ← hxy], by simp [hw]⟩, by omega⟩
            · exact hbest p hp
        · exact hbest p hp
      · exact hbest pos h

theorem Boundary.last?_boundary {kind : Boundary} {cs : List Char} {limit pos : Nat}
    (h : kind.last? cs limit = some pos) : Text.IsBoundary cs pos ∧ 0 < pos := by
  simpa using lastMark_boundary (b := []) (by simp) h

theorem splitPoint_boundary {cs : List Char} (hcs : cs ≠ []) (limit : Nat) :
    Text.IsBoundary cs (splitPoint cs limit).pos ∧ 0 < (splitPoint cs limit).pos := by
  unfold splitPoint
  split
  · exact ⟨⟨cs, [], by simp, rfl⟩, Text.width_pos.mpr hcs⟩
  · generalize hfound : List.findSome? _ _ = found
    cases found with
    | none => exact ⟨Text.isBoundary_hardCut cs limit, Text.hardCut_pos hcs limit⟩
    | some point =>
        obtain ⟨kind, _, hkind⟩ := List.exists_of_findSome?_eq_some hfound
        obtain ⟨pos, hpos, rfl⟩ := Option.map_eq_some_iff.mp hkind
        exact Boundary.last?_boundary hpos

theorem length_after_splitPoint_lt {cs : List Char} (hcs : cs ≠ []) (limit : Nat) :
    (Text.splitAt (splitPoint cs limit).pos cs).2.length < cs.length :=
  (splitPoint_boundary hcs limit).1.length_lt (splitPoint_boundary hcs limit).2

end ChannelAdapter.Chunk
