import ChannelAdapter.Proofs.Chunk.Progress
import ChannelAdapter.Proofs.Chunk.Search
/-!
Loops that cut a text into slices. Each round reckons with byte offsets and may fail in every step;
none does, so that the loops end with what is cut without them.
-/

namespace ChannelAdapter.Chunk

open Loop

/-! Prose by itself. -/

def plainRound? (limit : Nat) : List Char × List (List Char) →
    Option ((List Char × List (List Char)) ⊕ List (List Char))
  | (cs, done) =>
      if cs = [] then some (.inr done.reverse)
      else if Text.width cs ≤ limit then some (.inr (cs :: done).reverse)
      else do
        let point ← splitPoint? cs limit
        let piece ← Text.slice? cs 0 point.pos
        let rest ← Text.slice? cs point.pos (Text.width cs)
        some (.inl (Text.trimStart rest, finish piece ++ done))

def plain? (limit : Nat) (cs : List Char) : Option (List (List Char)) :=
  run? (fun s => Text.width s.1) (plainRound? limit) (cs, [])

theorem plainRound?_eq {limit : Nat} {s : List Char × List (List Char)}
    (hsize : Text.width s.1 < 2 ^ 57) : plainRound? limit s = some (plainRound limit s) := by
  obtain ⟨cs, done⟩ := s
  rw [plainRound?, plainRound]
  by_cases hcs : cs = []
  · rw [if_pos hcs, if_pos hcs]
  · rw [if_neg hcs, if_neg hcs]
    by_cases hfits : Text.width cs ≤ limit
    · rw [if_pos hfits, if_pos (Text.fits_iff.mpr hfits)]
    · have hboundary := (splitPoint_boundary hcs limit).1
      rw [if_neg hfits, if_neg (mt Text.fits_iff.mp hfits), splitPoint?_eq hsize,
        Option.bind_eq_bind, Option.bind_some, hboundary.slice?_before, Option.bind_eq_bind,
        Option.bind_some, hboundary.slice?_after]
      rfl

theorem plain?_eq {cs : List Char} (hsize : Text.width cs < 2 ^ 57) (limit : Nat) :
    plain? limit cs = some (plain limit cs) := by
  obtain ⟨states, hrounds⟩ := exists_rounds_plain limit cs []
  refine hrounds.run?_eq (P := fun s => Text.width s.1 < 2 ^ 57) hsize ?_ fun _ => plainRound?_eq
  intro s next hs hnext
  have hshorter := width_lt_of_plainRound hnext
  exact ⟨hshorter.trans hs, hshorter⟩

/-! Lines that are cut hard. -/

def hardRound? (budget : Nat) : List Char × List (List Char) →
    Option ((List Char × List (List Char)) ⊕ List (List Char))
  | (line, pieces) =>
      if line = [] then some (.inr pieces)
      else do
        let cut ← Text.hardCut? line budget
        let piece ← Text.slice? line 0 cut
        if piece = ['\n'] then some (.inr pieces)
        else
          let rest ← Text.slice? line cut (Text.width line)
          some (.inl (rest, pieces ++ [piece]))

/-- Adds the pieces of a line to those that there are. -/
def hardPieces? (budget : Nat) (line : List Char) (pieces : List (List Char)) :
    Option (List (List Char)) :=
  run? (fun s => Text.width s.1) (hardRound? budget) (line, pieces)

theorem hardRound?_eq {budget : Nat} {s : List Char × List (List Char)}
    (hsize : Text.width s.1 < 2 ^ 57) : hardRound? budget s = some (hardRound budget s) := by
  obtain ⟨line, pieces⟩ := s
  rw [hardRound?, hardRound]
  by_cases hline : line = []
  · rw [if_pos hline, if_pos hline]
  · have hboundary := Text.isBoundary_hardCut line budget
    have hword : Text.width line < 2 ^ 64 := Nat.lt_trans hsize (by decide)
    rw [if_neg hline, if_neg hline, Text.hardCut?_eq hword, Option.bind_eq_bind, Option.bind_some,
      hboundary.slice?_before, Option.bind_eq_bind, Option.bind_some]
    dsimp only
    by_cases hnewline : (Text.splitAt (Text.hardCut line budget) line).1 = ['\n']
    · rw [if_pos hnewline, if_pos hnewline]
    · rw [if_neg hnewline, if_neg hnewline, hboundary.slice?_after]
      rfl

theorem hardPieces?_eq {line : List Char} (hsize : Text.width line < 2 ^ 57) (budget : Nat)
    (pieces : List (List Char)) :
    hardPieces? budget line pieces = some (pieces ++ hardPieces budget line) := by
  obtain ⟨states, hrounds⟩ := exists_rounds_hard budget line pieces
  refine hrounds.run?_eq (P := fun s => Text.width s.1 < 2 ^ 57) hsize ?_ fun _ => hardRound?_eq
  intro s next hs hnext
  have hshorter := width_lt_of_hardRound hnext
  exact ⟨hshorter.trans hs, hshorter⟩

/-! Prose that fills a draft. -/

namespace Draft

def round? (limit : Nat) : Draft × List Char → Option ((Draft × List Char) ⊕ Draft)
  | (d, cs) =>
      if cs = [] then some (.inr d)
      else if d.room limit = 0 then some (.inl (d.flush, cs))
      else if Text.width cs ≤ d.room limit then some (.inr (d.push cs))
      else do
        let point ← splitPoint? cs (d.room limit)
        if point.boundary = .hard ∧ d.current.isEmpty = false then some (.inl (d.flush, cs))
        else
          let piece ← Text.slice? cs 0 point.pos
          let rest ← Text.slice? cs point.pos (Text.width cs)
          some (.inl ((d.push (Text.trimEnd piece)).flush, Text.trimStart rest))

def appendPlain? (limit : Nat) (d : Draft) (cs : List Char) : Option Draft :=
  run? left (round? limit) (d, cs)

theorem round?_eq {limit : Nat} {s : Draft × List Char} (hsize : Text.width s.2 < 2 ^ 57) :
    round? limit s = some (round limit s) := by
  obtain ⟨d, cs⟩ := s
  rw [round?, round]
  by_cases hcs : cs = []
  · rw [if_pos hcs, if_pos hcs]
  · rw [if_neg hcs, if_neg hcs]
    by_cases hroom : d.room limit = 0
    · rw [if_pos hroom, if_pos hroom]
    · rw [if_neg hroom, if_neg hroom]
      by_cases hfits : Text.width cs ≤ d.room limit
      · rw [if_pos hfits, if_pos (Text.fits_iff.mpr hfits)]
      · have hboundary := (splitPoint_boundary hcs (d.room limit)).1
        rw [if_neg hfits, if_neg (mt Text.fits_iff.mp hfits), splitPoint?_eq hsize,
          Option.bind_eq_bind, Option.bind_some]
        by_cases hhard : (splitPoint cs (d.room limit)).boundary = .hard ∧
            d.current.isEmpty = false
        · rw [if_pos hhard, if_pos hhard]
        · rw [if_neg hhard, if_neg hhard, hboundary.slice?_before, Option.bind_eq_bind,
            Option.bind_some, hboundary.slice?_after]
          rfl

theorem appendPlain?_eq {limit : Nat} (hlimit : 0 < limit) {cs : List Char}
    (hsize : Text.width cs < 2 ^ 57) (d : Draft) :
    d.appendPlain? limit cs = some (d.appendPlain limit cs) := by
  obtain ⟨states, hrounds, -⟩ := exists_rounds_appendPlain hlimit d cs
  refine hrounds.run?_eq (P := fun s => Text.width s.2 < 2 ^ 57) hsize ?_ fun _ => round?_eq
  intro s next hs hnext
  have hle : Text.width next.2 ≤ Text.width s.2 := by
    rcases eq_or_width_lt_of_round hlimit hnext with hsame | hshorter
    · rw [hsame]
    · exact Nat.le_of_lt hshorter
  exact ⟨Nat.lt_of_le_of_lt hle hs, left_lt_of_round hlimit hnext⟩

end Draft

end ChannelAdapter.Chunk
