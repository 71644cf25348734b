import Mathlib.Data.List.Basic
import ChannelAdapter.Input
/-!
The lines of an input. They are what stands between the newlines of its bytes, however these are cut
into pieces; the state of a reader is determined by the bytes since the last newline.
-/

namespace ChannelAdapter.Input

/-! Bytes at their newlines. -/

/-- The bytes before each newline, and those after the last one. -/
def split (bytes : List UInt8) : List (List UInt8) × List UInt8 :=
  ((bytes.splitOn newline).dropLast, (bytes.splitOn newline).getLastD [])

/-- The lines of some bytes without their newlines. The end of the bytes ends a line as well, if one
has begun. -/
def rawLines (bytes : List UInt8) : List (List UInt8) :=
  (split bytes).1 ++ if (split bytes).2.isEmpty then [] else [(split bytes).2]

def chomp (raw : List UInt8) : List UInt8 :=
  if raw.getLast? = some carriageReturn then raw.dropLast else raw

/-- What is read of a line: all of it but the carriage return, or nothing if it is too long. -/
def lineOf (max : Nat) (raw : List UInt8) : Line :=
  if max < raw.length then .overlong else .text (chomp raw)

theorem split_of_not_mem {raw : List UInt8} (h : newline ∉ raw) : split raw = ([], raw) := by
  rw [split, List.splitOn_eq_singleton h]
  rfl

theorem split_append_newline {raw : List UInt8} (h : newline ∉ raw) (rest : List UInt8) :
    split (raw ++ newline :: rest) = (raw :: (split rest).1, (split rest).2) := by
  have hne := List.splitOn_ne_nil newline rest
  rw [split, List.splitOn_append_cons_self_of_not_mem h, List.dropLast_cons_of_ne_nil hne, split]
  cases hrest : rest.splitOn newline with
  | nil => exact absurd hrest hne
  | cons line lines => rfl

theorem exists_first_newline (bytes : List UInt8) :
    newline ∉ bytes ∨ ∃ raw rest, newline ∉ raw ∧ bytes = raw ++ newline :: rest := by
  by_cases hmem : newline ∈ bytes
  · obtain ⟨raw, rest, hsplit, hraw⟩ := List.eq_append_cons_of_mem hmem
    exact .inr ⟨raw, rest, hraw, hsplit⟩
  · exact .inl hmem

theorem split_append (a b : List UInt8) :
    split (a ++ b) =
      ((split a).1 ++ (split ((split a).2 ++ b)).1, (split ((split a).2 ++ b)).2) := by
  rcases exists_first_newline a with hno | ⟨raw, rest, hraw, rfl⟩
  · rw [split_of_not_mem hno]
    rfl
  · -- the first line of `a` is a line on both sides, and `rest` is shorter
    rw [List.append_assoc, List.cons_append, split_append_newline hraw, split_append_newline hraw,
      split_append rest b]
    rfl
termination_by a.length

theorem newline_not_mem_split (bytes : List UInt8) : newline ∉ (split bytes).2 := by
  rcases exists_first_newline bytes with hno | ⟨raw, rest, hraw, rfl⟩
  · rwa [split_of_not_mem hno]
  · rw [split_append_newline hraw]
    exact newline_not_mem_split rest
termination_by bytes.length

/-! Bytes in pieces. -/

/-- The lines that end in each piece, where `raw` stands between the last newline and the first
piece. -/
def batches (max : Nat) (raw : List UInt8) : List (List UInt8) → List (List Line)
  | [] => []
  | piece :: pieces =>
      (split (raw ++ piece)).1.map (lineOf max) :: batches max (split (raw ++ piece)).2 pieces

def lastLine? (max : Nat) (bytes : List UInt8) : Option Line :=
  if (split bytes).2.isEmpty then none else some (lineOf max (split bytes).2)

theorem flatten_batches (max : Nat) {raw : List UInt8} (hraw : newline ∉ raw)
    (pieces : List (List UInt8)) :
    (batches max raw pieces).flatten =
      (split (raw ++ pieces.flatten)).1.map (lineOf max) := by
  induction pieces generalizing raw with
  | nil =>
      rw [List.flatten_nil, List.append_nil, split_of_not_mem hraw]
      rfl
  | cons piece pieces ih =>
      rw [batches, List.flatten_cons, ih (newline_not_mem_split _), List.flatten_cons,
        ← List.append_assoc, split_append (raw ++ piece), List.map_append]

theorem lines_of_batches (max : Nat) (pieces : List (List UInt8)) :
    (batches max [] pieces).flatten ++ (lastLine? max pieces.flatten).toList =
      (rawLines pieces.flatten).map (lineOf max) := by
  rw [flatten_batches max List.not_mem_nil, List.nil_append, lastLine?, rawLines, List.map_append]
  split <;> rfl

/-! Readers. -/

namespace Reader

/-- A reader that has taken some bytes since the last newline. -/
def holding (max : Nat) (raw : List UInt8) : Reader :=
  ⟨raw.length, if raw.length ≤ max then raw.reverse else []⟩

theorem start_eq_holding (max : Nat) : start = holding max [] := by
  simp [start, holding]

theorem finish_holding (max : Nat) (raw : List UInt8) :
    (holding max raw).finish max = lineOf max raw := by
  rw [finish, holding, lineOf]
  dsimp only
  by_cases hlong : max < raw.length
  · rw [if_pos hlong, if_pos hlong]
  · rw [if_neg hlong, if_neg hlong, if_pos (Nat.not_lt.mp hlong), chomp]
    rcases List.eq_nil_or_concat' raw with rfl | ⟨init, b, rfl⟩
    · rfl
    · simp only [List.reverse_append, List.reverse_cons, List.reverse_nil, List.nil_append,
        List.cons_append, List.getLast?_concat, Option.some.injEq, List.dropLast_concat,
        List.reverse_reverse]
      split <;> rfl

theorem last_holding (max : Nat) (raw : List UInt8) :
    (holding max raw).last max = if raw.isEmpty then none else some (lineOf max raw) := by
  rw [last, finish_holding]
  cases raw with
  | nil => rfl
  | cons b raw => rfl

theorem step_holding {max : Nat} {raw : List UInt8} {b : UInt8} (hb : b ≠ newline) :
    (holding max raw).step max b = (holding max (raw ++ [b]), none) := by
  rw [step, if_neg hb, holding, holding, List.length_append, List.length_singleton]
  dsimp only
  by_cases hroom : raw.length < max
  · have hnext : raw.length + 1 ≤ max := hroom
    rw [if_pos hroom, if_pos (Nat.le_of_lt hroom), if_pos hnext, List.reverse_concat]
  · have hnext : ¬ raw.length + 1 ≤ max := hroom
    rw [if_neg hroom, if_neg hnext]

theorem step_newline (max : Nat) (raw : List UInt8) :
    (holding max raw).step max newline = (holding max [], some (lineOf max raw)) := by
  rw [step, if_pos rfl, finish_holding, start_eq_holding max]

/-- A reader gives up the lines that end, and holds what follows the last newline. -/
theorem feed_holding (max : Nat) {raw : List UInt8} (hraw : newline ∉ raw) (done : List Line)
    (bytes : List UInt8) :
    feed max (holding max raw) done bytes =
      (holding max (split (raw ++ bytes)).2,
        ((split (raw ++ bytes)).1.map (lineOf max)).reverse ++ done) := by
  induction bytes generalizing raw done with
  | nil =>
      rw [List.append_nil, split_of_not_mem hraw]
      rfl
  | cons b bytes ih =>
      rw [feed]
      by_cases hb : b = newline
      · subst hb
        rw [step_newline, split_append_newline hraw]
        dsimp only
        rw [ih List.not_mem_nil]
        simp
      · rw [step_holding hb]
        dsimp only
        have hmore : newline ∉ raw ++ [b] := by
          simp [hraw, Ne.symm hb]
        rw [ih hmore, List.append_assoc]
        rfl

theorem foldl_feed (max : Nat) (pieces : List (List UInt8)) (r : Reader) (done : List Line) :
    pieces.foldl (fun (r, done) piece => feed max r done piece) (r, done) =
      feed max r done pieces.flatten := by
  induction pieces generalizing r done with
  | nil => rfl
  | cons piece pieces ih => rw [List.foldl_cons, List.flatten_cons, feed_append, ← ih]

end Reader

/-- What becomes of a line that has begun: it is one only where the input is closed. -/
def Ending.finalLines (last : Option Line) : Ending → List Line
  | .closed => last.toList
  | .failed _ | .silent => []

theorem lines_eq_batches (max : Nat) (i : Input) :
    lines max i = (batches max [] i.pieces).flatten ++
      i.ending.finalLines (lastLine? max i.pieces.flatten) := by
  obtain ⟨pieces, ending⟩ := i
  rw [flatten_batches max List.not_mem_nil, List.nil_append, lines]
  dsimp only
  rw [Reader.foldl_feed, Reader.start_eq_holding max, Reader.feed_holding max List.not_mem_nil,
    Reader.last_holding, List.append_nil, List.reverse_reverse, List.nil_append]
  cases ending with
  | closed => rfl
  | failed reason => exact (List.append_nil _).symm
  | silent => exact (List.append_nil _).symm

theorem lines_closed (max : Nat) (pieces : List (List UInt8)) :
    lines max ⟨pieces, .closed⟩ = (rawLines pieces.flatten).map (lineOf max) :=
  (lines_eq_batches max ⟨pieces, .closed⟩).trans (lines_of_batches max pieces)

/-! Input that comes in time. -/

/-- What a reader meets next: bytes, or nothing yet, so that it waits while something happens. -/
inductive Moment (m : Type → Type)
  | bytes (piece : List UInt8)
  | wait (x : m Unit)

section
variable {m : Type → Type}

def Moment.piece? : Moment m → Option (List UInt8)
  | .bytes piece => some piece
  | .wait _ => none

def received (moments : List (Moment m)) (ending : Ending) : Input :=
  ⟨moments.filterMap Moment.piece?, ending⟩

theorem received_bytes (i : Input) :
    received (i.pieces.map (Moment.bytes : List UInt8 → Moment m)) i.ending = i := by
  rw [received, List.filterMap_map]
  exact congrArg (Input.mk · i.ending) List.filterMap_some

variable [Monad m] {α : Type}

def Moment.take (f : α → List UInt8 → m α) (a : α) : Moment m → m α
  | .bytes piece => f a piece
  | .wait x => do
      x
      return a

def timed (moments : List (Moment m)) (ending : Ending) : Source m := fun f a => do
  return (← moments.foldlM (Moment.take f) a, ending)

theorem source_eq_timed (i : Input) (f : α → List UInt8 → m α) (a : α) :
    i.source f a = timed (i.pieces.map .bytes) i.ending f a := by
  rw [source, timed, List.foldlM_map]
  rfl

end

end ChannelAdapter.Input
