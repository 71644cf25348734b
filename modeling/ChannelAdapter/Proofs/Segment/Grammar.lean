import ChannelAdapter.Segment
import ChannelAdapter.Proofs.Fence
/-!
The grammar of segments. `Reads` says how lines are read: prose up to a line that opens a fence, then
a block up to the first line that closes it. Reading is a function, and the one that is computed.
-/

namespace ChannelAdapter.Segment

/-- The plain segment that some lines make, if there are any. -/
def passage (before : List (List Char)) : List Segment :=
  if before.isEmpty then [] else [.plain before.flatten]

theorem passage_nil : passage [] = [] := rfl

theorem passage_of_ne_nil {before : List (List Char)} (h : before ≠ []) :
    passage before = [.plain before.flatten] := by
  simp [passage, h]

/-- How lines are read as segments. -/
inductive Reads : List (List Char) → List Segment → Prop
  | prose {before : List (List Char)}
      (hbefore : ∀ line ∈ before, Fence.opens line = false) :
      Reads before (passage before)
  | unclosed {before body : List (List Char)} {openLine : List Char} {fence : Fence}
      (hbefore : ∀ line ∈ before, Fence.opens line = false)
      (hopen : Fence.ofLine? openLine = some fence)
      (hbody : ∀ line ∈ body, fence.closedBy line = false) :
      Reads (before ++ openLine :: body)
        (passage before ++ [.fenced ⟨openLine, body.flatten, fence.closingLine⟩ .supplied])
  | closed {before body after : List (List Char)} {openLine closeLine : List Char} {fence : Fence}
      {segments : List Segment}
      (hbefore : ∀ line ∈ before, Fence.opens line = false)
      (hopen : Fence.ofLine? openLine = some fence)
      (hbody : ∀ line ∈ body, fence.closedBy line = false)
      (hclose : fence.closedBy closeLine = true)
      (hafter : Reads after segments) :
      Reads (before ++ openLine :: (body ++ closeLine :: after))
        (passage before ++ .fenced ⟨openLine, body.flatten, closeLine⟩ .written :: segments)

/-! Lines up to the first one of a kind. -/

section
variable {p : List Char → Bool} {ls rest : List (List Char)} {line : List Char}

theorem takeWhile_not (hls : ∀ l ∈ ls, p l = false) (hline : p line = true) :
    (ls ++ line :: rest).takeWhile (!p ·) = ls := by
  rw [List.takeWhile_append_of_pos (by simpa using hls), List.takeWhile_cons_of_neg (by simp [hline]),
    List.append_nil]

theorem dropWhile_not (hls : ∀ l ∈ ls, p l = false) (hline : p line = true) :
    (ls ++ line :: rest).dropWhile (!p ·) = line :: rest := by
  rw [List.dropWhile_append_of_pos (by simpa using hls), List.dropWhile_cons_of_neg (by simp [hline])]

theorem exists_first (p : List Char → Bool) (ls : List (List Char)) :
    (∀ l ∈ ls, p l = false) ∨
      ∃ front line rest, ls = front ++ line :: rest ∧ (∀ l ∈ front, p l = false) ∧ p line = true := by
  induction ls with
  | nil => exact .inl (by simp)
  | cons l ls ih =>
      cases hl : p l with
      | true => exact .inr ⟨[], l, ls, rfl, by simp, hl⟩
      | false =>
          rcases ih with hall | ⟨front, line, rest, rfl, hfront, hline⟩
          · exact .inl (by simpa [hl] using hall)
          · exact .inr ⟨l :: front, line, rest, rfl, by simpa [hl] using hfront, hline⟩

end

/-! The segments of lines of each shape. -/

section
variable {before body after : List (List Char)} {openLine closeLine : List Char} {fence : Fence}

theorem opens_of_ofLine? (hopen : Fence.ofLine? openLine = some fence) :
    Fence.opens openLine = true := by
  simp [Fence.opens, hopen]

theorem ofLines_prose (hbefore : ∀ line ∈ before, Fence.opens line = false) :
    ofLines before = passage before := by
  have htake : before.takeWhile (!Fence.opens ·) = before := by simpa using hbefore
  have hdrop : before.dropWhile (!Fence.opens ·) = [] := by simpa using hbefore
  rw [ofLines]
  split
  · rw [htake, passage]
  · next h => simp [hdrop] at h

theorem ofLines_unclosed (hbefore : ∀ line ∈ before, Fence.opens line = false)
    (hopen : Fence.ofLine? openLine = some fence)
    (hbody : ∀ line ∈ body, fence.closedBy line = false) :
    ofLines (before ++ openLine :: body) =
      passage before ++ [.fenced ⟨openLine, body.flatten, fence.closingLine⟩ .supplied] := by
  have hopens := opens_of_ofLine? hopen
  have htake : body.takeWhile (!fence.closedBy ·) = body := by simpa using hbody
  have hdrop : body.dropWhile (!fence.closedBy ·) = [] := by simpa using hbody
  rw [ofLines]
  split
  · next h => simp [dropWhile_not hbefore hopens] at h
  · next line rest h =>
      rw [dropWhile_not hbefore hopens] at h
      cases h
      simp only [hopen, takeWhile_not hbefore hopens]
      split
      · rw [htake, passage]
      · next h => simp [hdrop] at h

theorem ofLines_closed (hbefore : ∀ line ∈ before, Fence.opens line = false)
    (hopen : Fence.ofLine? openLine = some fence)
    (hbody : ∀ line ∈ body, fence.closedBy line = false)
    (hclose : fence.closedBy closeLine = true) :
    ofLines (before ++ openLine :: (body ++ closeLine :: after)) =
      passage before ++ .fenced ⟨openLine, body.flatten, closeLine⟩ .written :: ofLines after := by
  have hopens := opens_of_ofLine? hopen
  conv => lhs; rw [ofLines]
  split
  · next h => simp [dropWhile_not hbefore hopens] at h
  · next line rest h =>
      rw [dropWhile_not hbefore hopens] at h
      cases h
      simp only [hopen, takeWhile_not hbefore hopens]
      split
      · next h => simp [dropWhile_not hbody hclose] at h
      · next line rest h =>
          rw [dropWhile_not hbody hclose] at h
          cases h
          rw [takeWhile_not hbody hclose, passage]

end

theorem Reads.ofLines_eq {ls : List (List Char)} {segments : List Segment}
    (h : Reads ls segments) : ofLines ls = segments := by
  induction h with
  | prose hbefore => exact ofLines_prose hbefore
  | unclosed hbefore hopen hbody => exact ofLines_unclosed hbefore hopen hbody
  | closed hbefore hopen hbody hclose _ ih =>
      rw [ofLines_closed hbefore hopen hbody hclose, ih]

theorem reads_ofLines (ls : List (List Char)) : Reads ls (ofLines ls) := by
  rcases exists_first Fence.opens ls with hall | ⟨before, openLine, rest, hls, hbefore, hopens⟩
  · rw [ofLines_prose hall]
    exact .prose hall
  · -- Past a closing line the text is read anew, so the recursion is on what follows it.
    obtain ⟨fence, hopen⟩ := Option.isSome_iff_exists.mp hopens
    rcases exists_first fence.closedBy rest with hall | ⟨body, closeLine, after, hrest, hbody, hclose⟩
    · rw [hls, ofLines_unclosed hbefore hopen hall]
      exact .unclosed hbefore hopen hall
    · have hshorter : after.length < ls.length := by
        rw [hls, hrest]
        simp only [List.length_append, List.length_cons]
        omega
      rw [hls, hrest, ofLines_closed hbefore hopen hbody hclose]
      exact .closed hbefore hopen hbody hclose (reads_ofLines after)
termination_by ls.length

theorem reads_iff {ls : List (List Char)} {segments : List Segment} :
    Reads ls segments ↔ ofLines ls = segments :=
  ⟨Reads.ofLines_eq, fun h => h ▸ reads_ofLines ls⟩

theorem reads_ofText (cs : List Char) : Reads (Text.lines cs) (ofText cs) :=
  reads_ofLines _

end ChannelAdapter.Segment
