import ChannelAdapter.Proofs.Chunk.Size
import ChannelAdapter.Proofs.Loop
import ChannelAdapter.Proofs.Text.Slice
/-!
Progress of cutting. Each loop is given round by round: prose by itself, prose that fills a draft,
and a line that is cut hard. A round takes something from the text at hand, but for one that makes
room in a draft, after which the next one does.
-/

namespace ChannelAdapter

theorem Text.IsBoundary.width_lt {cs : List Char} {pos : Nat} (h : IsBoundary cs pos)
    (hpos : 0 < pos) : width (splitAt pos cs).2 < width cs := by
  have hparts := congrArg width (splitAt_append pos cs)
  rw [width_append, h.width_splitAt] at hparts
  omega

theorem Text.width_trimStart_le (cs : List Char) : width (trimStart cs) ≤ width cs := by
  obtain ⟨gap, -, hcs⟩ := exists_eq_append_trimStart cs
  have hwidth := congrArg width hcs
  rw [width_append] at hwidth
  omega

namespace Chunk

open Loop

theorem width_rest_lt {cs : List Char} (hcs : cs ≠ []) (limit : Nat) :
    Text.width (rest cs limit) < Text.width cs := by
  obtain ⟨hboundary, hpos⟩ := splitPoint_boundary hcs limit
  exact Nat.lt_of_le_of_lt (Text.width_trimStart_le _) (hboundary.width_lt hpos)

/-! Prose by itself. -/

/-- A round of cutting prose: the text at hand, and the chunks before it, the latest first. -/
def plainRound (limit : Nat) : List Char × List (List Char) →
    (List Char × List (List Char)) ⊕ List (List Char)
  | (cs, done) =>
      if cs = [] then .inr done.reverse
      else if Text.fits cs limit then .inr (cs :: done).reverse
      else .inl (rest cs limit, finish (piece cs limit) ++ done)

theorem exists_rounds_plain (limit : Nat) (cs : List Char) (done : List (List Char)) :
    ∃ states, Rounds (plainRound limit) ((cs, done) :: states) (plain.go limit cs done) := by
  fun_induction plain.go limit cs done with
  | case1 done => exact ⟨[], .leave (by rw [plainRound, if_pos rfl])⟩
  | case2 cs done hcs hfits =>
      refine ⟨[], .leave ?_⟩
      rw [plainRound, if_neg hcs, if_pos hfits]
  | case3 cs done hcs hfits _ ih =>
      obtain ⟨states, hrounds⟩ := ih
      refine ⟨_ :: states, .again ?_ hrounds⟩
      rw [plainRound, if_neg hcs, if_neg hfits]

theorem width_lt_of_plainRound {limit : Nat} {s next : List Char × List (List Char)}
    (h : plainRound limit s = .inl next) : Text.width next.1 < Text.width s.1 := by
  obtain ⟨cs, done⟩ := s
  rw [plainRound] at h
  split at h
  · cases h
  · next hcs =>
      split at h
      · cases h
      · cases h
        exact width_rest_lt hcs limit

/-! Lines that are cut hard. -/

/-- A round of cutting a line: what is left of it, and the pieces before it. -/
def hardRound (budget : Nat) : List Char × List (List Char) →
    (List Char × List (List Char)) ⊕ List (List Char)
  | (line, pieces) =>
      if line = [] then .inr pieces
      else
        let parts := Text.splitAt (Text.hardCut line budget) line
        if parts.1 = ['\n'] then .inr pieces else .inl (parts.2, pieces ++ [parts.1])

theorem exists_rounds_hard (budget : Nat) (line : List Char) (pieces : List (List Char)) :
    ∃ states, Rounds (hardRound budget) ((line, pieces) :: states)
      (pieces ++ hardPieces budget line) := by
  fun_induction hardPieces budget line generalizing pieces with
  | case1 =>
      rw [List.append_nil]
      exact ⟨[], .leave (by rw [hardRound, if_pos rfl])⟩
  | case2 line hline _ parts hnewline =>
      rw [List.append_nil]
      refine ⟨[], .leave ?_⟩
      rw [hardRound, if_neg hline]
      exact if_pos hnewline
  | case3 line hline _ parts hnewline ih =>
      obtain ⟨states, hrounds⟩ := ih (pieces ++ [parts.1])
      rw [List.append_assoc, List.singleton_append] at hrounds
      refine ⟨_ :: states, .again ?_ hrounds⟩
      rw [hardRound, if_neg hline]
      exact if_neg hnewline

theorem width_lt_of_hardRound {budget : Nat} {s next : List Char × List (List Char)}
    (h : hardRound budget s = .inl next) : Text.width next.1 < Text.width s.1 := by
  obtain ⟨line, pieces⟩ := s
  rw [hardRound] at h
  split at h
  · cases h
  · next hline =>
      dsimp only at h
      split at h
      · cases h
      · cases h
        exact (Text.isBoundary_hardCut line budget).width_lt (Text.hardCut_pos hline budget)

/-! Prose that fills a draft. -/

namespace Draft

/-- A round of adding prose to a draft: the draft is finished for want of room, or rather than be
filled by a hard cut; or else it takes what there is room for. -/
def round (limit : Nat) : Draft × List Char → (Draft × List Char) ⊕ Draft
  | (d, cs) =>
      if cs = [] then .inr d
      else if d.room limit = 0 then .inl (d.flush, cs)
      else if Text.fits cs (d.room limit) then .inr (d.push cs)
      else if (splitPoint cs (d.room limit)).boundary = .hard ∧ d.current.isEmpty = false then
        .inl (d.flush, cs)
      else
        .inl ((d.push (Text.trimEnd (piece cs (d.room limit)))).flush, rest cs (d.room limit))

section
variable {limit : Nat} {d : Draft} {cs : List Char}

theorem room_of_isEmpty (h : d.current.isEmpty = true) : d.room limit = limit := by
  rw [room, width_current, Text.Buffer.isEmpty_iff.mp h, Text.width_nil, Nat.sub_zero]

theorem round_of_fits (hcs : cs ≠ []) (hfits : Text.fits cs (d.room limit) = true) :
    round limit (d, cs) = .inr (d.push cs) := by
  have hroom : d.room limit ≠ 0 := by
    have hle := Text.fits_iff.mp hfits
    have hpos := Text.width_pos.mpr hcs
    omega
  rw [round, if_neg hcs, if_neg hroom, if_pos hfits]

theorem round_of_spent (hcs : cs ≠ []) (hfits : ¬ Text.fits cs (d.room limit) = true)
    (hempty : d.current.isEmpty = false) (hspent : d.isSpent limit cs = true) :
    round limit (d, cs) = .inl (d.flush, cs) := by
  rw [round, if_neg hcs]
  by_cases hroom : d.room limit = 0
  · rw [if_pos hroom]
  · have hhard : (splitPoint cs (d.room limit)).boundary = .hard := by
      simpa [isSpent, hroom] using hspent
    rw [if_neg hroom, if_neg hfits, if_pos ⟨hhard, hempty⟩]

theorem round_of_cut (hlimit : 0 < limit) (hcs : cs ≠ [])
    (hfits : ¬ Text.fits cs (d.room limit) = true)
    (hcut : ¬ (!d.current.isEmpty ∧ d.isSpent limit cs)) :
    round limit (d, cs) =
      .inl ((d.push (Text.trimEnd (piece cs (d.room limit)))).flush, rest cs (d.room limit)) := by
  have hkept : d.current.isEmpty = false → d.isSpent limit cs = false := by
    intro hempty
    simpa [hempty] using hcut
  have hroom : d.room limit ≠ 0 := by
    intro hroom
    cases hempty : d.current.isEmpty with
    | true =>
        rw [room_of_isEmpty hempty] at hroom
        omega
    | false =>
        have := hkept hempty
        simp [isSpent, hroom] at this
  have hsoft : ¬ ((splitPoint cs (d.room limit)).boundary = .hard ∧ d.current.isEmpty = false) := by
    rintro ⟨hhard, hempty⟩
    have := hkept hempty
    simp [isSpent, hhard] at this
  rw [round, if_neg hcs, if_neg hroom, if_neg hfits, if_neg hsoft]

theorem round_cases (hlimit : 0 < limit) {next : Draft × List Char}
    (h : round limit (d, cs) = .inl next) :
    (d.current.isEmpty = false ∧ next = (d.flush, cs)) ∨
      cs ≠ [] ∧ next =
        ((d.push (Text.trimEnd (piece cs (d.room limit)))).flush, rest cs (d.room limit)) := by
  rw [round] at h
  split at h
  · cases h
  · next hcs =>
      split at h
      · next hroom =>
          cases h
          refine .inl ⟨?_, rfl⟩
          rw [← Bool.not_eq_true]
          intro hempty
          rw [room_of_isEmpty hempty] at hroom
          omega
      · split at h
        · cases h
        · split at h
          · next hhard =>
              cases h
              exact .inl ⟨hhard.2, rfl⟩
          · cases h
            exact .inr ⟨hcs, rfl⟩

/-- How much is left to be done. A draft that has just been finished counts for less. -/
def left (s : Draft × List Char) : Nat :=
  2 * Text.width s.2 + if s.1.current.isEmpty then 0 else 1

theorem left_flush (d : Draft) (cs : List Char) : left (d.flush, cs) = 2 * Text.width cs := rfl

theorem eq_or_width_lt_of_round (hlimit : 0 < limit) {s next : Draft × List Char}
    (h : round limit s = .inl next) : next.2 = s.2 ∨ Text.width next.2 < Text.width s.2 := by
  obtain ⟨d, cs⟩ := s
  rcases round_cases hlimit h with ⟨-, rfl⟩ | ⟨hcs, rfl⟩
  · exact .inl rfl
  · exact .inr (width_rest_lt hcs _)

theorem left_lt_of_round (hlimit : 0 < limit) {s next : Draft × List Char}
    (h : round limit s = .inl next) : left next < left s := by
  obtain ⟨d, cs⟩ := s
  rcases round_cases hlimit h with ⟨hempty, rfl⟩ | ⟨hcs, rfl⟩
  · rw [left_flush, left, hempty]
    exact Nat.lt_succ_self _
  · have hshorter := width_rest_lt hcs (d.room limit)
    rw [left_flush, left]
    dsimp only
    omega

end

/-- The rounds that leave the text at hand as it is. -/
def stalls (states : List (Draft × List Char)) : Nat :=
  (turns states).countP fun turn => turn.2.2 = turn.1.2

-- A draft that has just been finished is empty, and there is room in it for something.
theorem exists_rounds_appendPlain {limit : Nat} (hlimit : 0 < limit) (d : Draft) (cs : List Char) :
    ∃ states, Rounds (round limit) ((d, cs) :: states) (d.appendPlain limit cs) ∧
      stalls ((d, cs) :: states) ≤ if d.current.isEmpty then 0 else 1 := by
  fun_induction Draft.appendPlain limit d cs with
  | case1 d => exact ⟨[], .leave (by rw [round, if_pos rfl]), Nat.zero_le _⟩
  | case2 d cs hcs hfits => exact ⟨[], .leave (round_of_fits hcs hfits), Nat.zero_le _⟩
  | case3 d cs hcs hfits hcut ih =>
      obtain ⟨states, hrounds, hstalls⟩ := ih
      have hempty : d.current.isEmpty = false := by simpa using hcut.1
      have hflush : d.flush.current.isEmpty = true := rfl
      refine ⟨_ :: states, .again (round_of_spent hcs hfits hempty hcut.2) hrounds, ?_⟩
      rw [hflush] at hstalls
      rw [hempty, stalls, turns_cons, List.countP_cons_of_pos (by simp), ← stalls]
      simpa using hstalls
  | case4 d cs hcs hfits hcut _ filled ih =>
      obtain ⟨states, hrounds, hstalls⟩ := ih
      have hshorter := width_rest_lt hcs (d.room limit)
      have hmoved : rest cs (d.room limit) ≠ cs := by
        intro hsame
        rw [hsame] at hshorter
        exact Nat.lt_irrefl _ hshorter
      have hflush : filled.flush.current.isEmpty = true := rfl
      refine ⟨_ :: states, .again (round_of_cut hlimit hcs hfits hcut) hrounds, ?_⟩
      rw [hflush] at hstalls
      rw [stalls, turns_cons, List.countP_cons_of_neg (by simpa using hmoved), ← stalls]
      exact Nat.le_trans hstalls (Nat.zero_le _)

/-! Drafts between segments. -/

theorem AtLine.foldl {limit : Nat} {d : Draft} (hd : d.AtLine) {segments : List Segment}
    (h : ∀ segment ∈ segments, Text.endsLine segment.render = true) :
    (segments.foldl (Draft.append limit) d).AtLine := by
  induction segments generalizing d with
  | nil => exact hd
  | cons segment segments ih =>
      obtain ⟨hsegment, hsegments⟩ := List.forall_mem_cons.mp h
      exact ih (hd.append hsegment) hsegments

theorem atLine_foldl_of_ofText {limit : Nat} {text : List Char} {front back : List Segment}
    {segment : Segment} (h : Segment.ofText text = front ++ segment :: back) :
    (front.foldl (Draft.append limit) .empty).AtLine := by
  have hends := Segment.pairwise_endsLine_ofText text
  rw [h, List.pairwise_append] at hends
  exact AtLine.foldl (.inl rfl) fun s hs => hends.2.2 s hs segment List.mem_cons_self

theorem width_foldl_le {limit : Nat} {text : List Char} {front back : List Segment}
    (h : Segment.ofText text = front ++ back) :
    Text.width (front.foldl (Draft.append limit) .empty).current.text ≤ limit := by
  refine ((bounded_empty limit text).foldl ?_).current
  rw [h]
  exact List.subset_append_left front back

end Draft

/-- Each loop ends, whatever the limit. Adding prose has at most one round that takes nothing from
it, and all other rounds that go on take a byte at least. A segment finds the draft empty or at the
start of a line, and within the limit. -/
theorem loops_progress {limit : Nat} (hlimit : 0 < limit) (text : List Char) :
    (∀ front segment back, Segment.ofText text = front ++ segment :: back →
      (front.foldl (Draft.append limit) .empty).AtLine ∧
        Text.width (front.foldl (Draft.append limit) .empty).current.text ≤ limit) ∧
    (∀ (d : Draft) (cs : List Char), ∃ states,
      Rounds (Draft.round limit) ((d, cs) :: states) (d.append limit (.plain cs)) ∧
        Draft.stalls ((d, cs) :: states) ≤ 1 ∧
        ∀ turn ∈ turns ((d, cs) :: states),
          turn.2.2 = turn.1.2 ∨ Text.width turn.2.2 < Text.width turn.1.2) ∧
    (∃ states, Rounds (plainRound limit) ((text, []) :: states) (plain limit text) ∧
      ∀ turn ∈ turns ((text, []) :: states), Text.width turn.2.1 < Text.width turn.1.1) ∧
    ∀ (budget : Nat) (line : List Char), ∃ states,
      Rounds (hardRound budget) ((line, []) :: states) (hardPieces budget line) ∧
        ∀ turn ∈ turns ((line, []) :: states), Text.width turn.2.1 < Text.width turn.1.1 := by
  refine ⟨?_, ?_, ?_, ?_⟩
  · intro front segment back hsegments
    exact ⟨Draft.atLine_foldl_of_ofText hsegments, Draft.width_foldl_le hsegments⟩
  · intro d cs
    obtain ⟨states, hrounds, hstalls⟩ := Draft.exists_rounds_appendPlain hlimit d cs
    refine ⟨states, hrounds, hstalls.trans (by split <;> omega), ?_⟩
    intro turn hturn
    exact Draft.eq_or_width_lt_of_round hlimit (hrounds.body_eq hturn)
  · obtain ⟨states, hrounds⟩ := exists_rounds_plain limit text []
    exact ⟨states, hrounds, fun turn hturn => width_lt_of_plainRound (hrounds.body_eq hturn)⟩
  · intro budget line
    obtain ⟨states, hrounds⟩ := exists_rounds_hard budget line []
    exact ⟨states, hrounds, fun turn hturn => width_lt_of_hardRound (hrounds.body_eq hturn)⟩

/-- The limit is smaller than the first character, and a full draft stands in its way. -/
theorem loops_progress_narrow :
    0 < 1 ∧
      (∃ states, Rounds (Draft.round 1) ((Draft.empty.push ['x'], "éa".toList) :: states)
          ⟨[['é'], ['x']], Text.Buffer.empty.push 'a'⟩ ∧
        Draft.stalls ((Draft.empty.push ['x'], "éa".toList) :: states) ≤ 1) ∧
      ∃ states, Rounds (plainRound 1) (("éa".toList, []) :: states) [['é'], ['a']] ∧
        ∀ turn ∈ turns (("éa".toList, []) :: states),
          Text.width turn.2.1 < Text.width turn.1.1 := by
  have happend : (Draft.empty.push ['x']).append 1 (.plain "éa".toList) =
      ⟨[['é'], ['x']], Text.Buffer.empty.push 'a'⟩ := by decide +kernel
  have hplain : plain 1 "éa".toList = [['é'], ['a']] := by decide +kernel
  obtain ⟨-, hdraft, hprose, -⟩ := loops_progress Nat.one_pos "éa".toList
  obtain ⟨states, hrounds, hstalls, -⟩ := hdraft (Draft.empty.push ['x']) "éa".toList
  exact ⟨Nat.one_pos, ⟨states, happend ▸ hrounds, hstalls⟩, hplain ▸ hprose⟩

end Chunk

end ChannelAdapter
