import ChannelAdapter.Proofs.Chunk.Body
import ChannelAdapter.Proofs.Chunk.Slicing
/-!
Code blocks that are taken apart by byte offsets. A walk over the lines of a body keeps two offsets,
between which the lines stand that are still to be given out, and slices them out of the body when
there is no room for more.
-/

namespace ChannelAdapter

/-! Sizes of blocks. -/

namespace Block

def overhead? (block : Block) : Option Nat :=
  Word.add? (Text.width block.openLine) (Text.width block.closeLine)

def width? (block : Block) : Option Nat := do
  let lines ← Word.add? (Text.width block.openLine) (Text.width block.body)
  let broken ← Word.add? lines (block.lineBreak block.body).length
  Word.add? broken (Text.width block.closeLine)

/-- Wraps a body in a text that room has been made for. -/
def wrap? (block : Block) (body : List Char) : Option (List Char) := do
  let size ← Word.add? (← block.overhead?) (Text.width body)
  Word.reserve? (← Word.add? size 1)
  some (block.wrap body)

variable {block : Block}

theorem overhead_le_width (block : Block) :
    block.overhead + Text.width block.body ≤ block.width := by
  rw [overhead, width]
  omega

theorem overhead?_eq (hsize : block.width < 2 ^ 60) : block.overhead? = some block.overhead := by
  have hle := block.overhead_le_width
  rw [overhead] at hle
  exact Word.add?_of_lt (by omega)

theorem width?_eq (hsize : block.width < 2 ^ 60) : block.width? = some block.width := by
  rw [width] at hsize
  rw [width?, Word.add?_of_lt (by omega), Option.bind_eq_bind, Option.bind_some,
    Word.add?_of_lt (by omega), Option.bind_some, Word.add?_of_lt (by omega), width]

theorem wrap?_eq (hsize : block.width < 2 ^ 60) {body : List Char}
    (hbody : Text.width body ≤ Text.width block.body) :
    block.wrap? body = some (block.wrap body) := by
  have hle := block.overhead_le_width
  rw [wrap?, overhead?_eq hsize, Option.bind_eq_bind, Option.bind_some,
    Word.add?_of_lt (by omega), Option.bind_eq_bind, Option.bind_some, Word.add?_of_lt (by omega),
    Option.bind_some, Word.reserve?_of_lt (by omega)]
  rfl

end Block

namespace Chunk

def lineCost? (line : List Char) : Option Nat :=
  Word.add? (Text.width line) (if Text.endsLine line then 0 else 1)

/-! A walk over the lines of a body. -/

/-- The parts of a body so far. The pending lines stand between the byte offsets. -/
structure Walk where
  parts : List (List Char)
  start : Nat
  stop : Nat

namespace Walk

def give? (body : List Char) (w : Walk) : Option (List (List Char)) :=
  if w.start < w.stop then do some (w.parts ++ [← Text.slice? body w.start w.stop])
  else some w.parts

def isFull? (room cost : Nat) (w : Walk) : Option Bool :=
  if w.start < w.stop then do
    let pending ← Word.sub? w.stop w.start
    some (room < (← Word.add? pending cost))
  else some false

def line? (body : List Char) (room : Nat) (w : Walk) (line : List Char) : Option Walk := do
  let cost ← lineCost? line
  if room < cost then
    let given ← w.give? body
    let budget ← Word.sub? room 1
    let parts ← hardPieces? budget line given
    let stop ← Word.add? w.stop (Text.width line)
    some ⟨parts, stop, stop⟩
  else if ← w.isFull? room cost then
    let parts ← w.give? body
    let stop ← Word.add? w.stop (Text.width line)
    some ⟨parts, w.stop, stop⟩
  else
    let stop ← Word.add? w.stop (Text.width line)
    some ⟨w.parts, w.start, stop⟩

/-- The walk has come as far as to what is left of the body; the pending lines stand in front. -/
def At (body : List Char) (w : Walk) (pending : Text.Buffer) (left : List Char) : Prop :=
  ∃ settled, body = settled ++ pending.text ++ left ∧ w.start = Text.width settled ∧
    w.stop = Text.width (settled ++ pending.text)

end Walk

def bodyParts? (body : List Char) (room : Nat) : Option (List (List Char)) := do
  let w ← (Text.lines body).foldlM (Walk.line? body room) ⟨[], 0, 0⟩
  w.give? body

def refence? (block : Block) (limit : Nat) : Option (List (List Char)) := do
  if (← block.width?) ≤ limit then some [← block.wrap? block.body]
  else
    match (Word.sub? limit (← block.overhead?)).filter (2 ≤ ·) with
    | none => some [← block.wrap? block.body]
    | some room =>
        let parts ← bodyParts? block.body room
        (parts.filter fun part => !part.isEmpty).mapM block.wrap?

theorem lineCost?_eq {line : List Char} (hsize : Text.width line < 2 ^ 57) :
    lineCost? line = some (lineCost line) := by
  refine Word.add?_of_lt ?_
  split <;> omega

section
variable {body : List Char} {room : Nat} {w : Walk} {pending : Text.Buffer}
  {line left : List Char}

theorem Walk.At.stop_eq (h : w.At body pending left) : w.stop = w.start + pending.width := by
  obtain ⟨settled, -, hstart, hstop⟩ := h
  rw [hstart, hstop, Text.width_append, Text.Buffer.width_text]

theorem Walk.At.stop_add_left (h : w.At body pending left) :
    w.stop + Text.width left = Text.width body := by
  obtain ⟨settled, hbody, -, hstop⟩ := h
  rw [hstop, hbody, Text.width_append _ left]

theorem Walk.At.start_lt_stop_iff (h : w.At body pending left) :
    w.start < w.stop ↔ pending.isEmpty = false := by
  rw [h.stop_eq, ← Text.Buffer.width_text, ← Bool.not_eq_true, Text.Buffer.isEmpty_iff, ← ne_eq,
    ← Text.width_pos]
  omega

theorem Walk.At.give?_eq (h : w.At body pending left) :
    w.give? body = some (w.parts ++ pendingPart pending) := by
  rw [Walk.give?, pendingPart]
  cases hempty : pending.isEmpty with
  | true =>
      rw [if_neg (by simp [h.start_lt_stop_iff, hempty]), if_pos rfl, List.append_nil]
  | false =>
      obtain ⟨settled, hbody, hstart, hstop⟩ := id h
      have hpart : Text.slice? body w.start w.stop = some pending.text :=
        Text.slice?_eq_some_iff.mpr ⟨settled, left, hbody, hstart, hstop⟩
      rw [if_pos (h.start_lt_stop_iff.mpr hempty), hpart, if_neg Bool.false_ne_true]
      rfl

theorem Walk.At.isFull?_eq (h : w.At body pending left) {cost : Nat}
    (hcost : pending.width + cost < 2 ^ 64) :
    w.isFull? room cost = some (!pending.isEmpty && room < pending.width + cost) := by
  rw [Walk.isFull?]
  cases hempty : pending.isEmpty with
  | true =>
      rw [if_neg (by simp [h.start_lt_stop_iff, hempty])]
      rfl
  | false =>
      have hpending : w.stop - w.start = pending.width := by
        rw [h.stop_eq, Nat.add_sub_cancel_left]
      have hle : w.start ≤ w.stop := Nat.le_of_lt (h.start_lt_stop_iff.mpr hempty)
      rw [if_pos (h.start_lt_stop_iff.mpr hempty), Word.sub?_of_le hle, hpending,
        Option.bind_eq_bind, Option.bind_some, Word.add?_of_lt hcost]
      rfl

theorem Walk.At.settled (h : w.At body pending (line ++ left)) (parts : List (List Char)) :
    At body ⟨parts, w.stop + Text.width line, w.stop + Text.width line⟩ .empty left := by
  obtain ⟨settled, hbody, -, hstop⟩ := h
  refine ⟨settled ++ pending.text ++ line, ?_, ?_, ?_⟩
  · simp [hbody]
  · simp [hstop, Nat.add_assoc]
  · simp [hstop, Nat.add_assoc]

theorem Walk.At.given (h : w.At body pending (line ++ left)) (parts : List (List Char)) :
    At body ⟨parts, w.stop, w.stop + Text.width line⟩ (.append .empty line) left := by
  obtain ⟨settled, hbody, -, hstop⟩ := h
  refine ⟨settled ++ pending.text, ?_, hstop, ?_⟩
  · simp [hbody]
  · simp [hstop, Nat.add_assoc]

theorem Walk.At.pended (h : w.At body pending (line ++ left)) (parts : List (List Char)) :
    At body ⟨parts, w.start, w.stop + Text.width line⟩ (pending.append line) left := by
  obtain ⟨settled, hbody, hstart, hstop⟩ := h
  refine ⟨settled, ?_, hstart, ?_⟩
  · simp [hbody]
  · simp [hstop, Nat.add_assoc]

/-! What becomes of a line. -/

theorem Walk.At.stop_add_line_lt (h : w.At body pending (line ++ left))
    (hsize : Text.width body < 2 ^ 57) : w.stop + Text.width line < 2 ^ 57 := by
  have hbody := h.stop_add_left
  rw [Text.width_append] at hbody
  omega

theorem Walk.At.line?_of_long (h : w.At body pending (line ++ left))
    (hsize : Text.width body < 2 ^ 57) (hroom : 1 ≤ room) (hlong : room < lineCost line) :
    w.line? body room line = some ⟨w.parts ++ pendingPart pending ++ hardPieces (room - 1) line,
      w.stop + Text.width line, w.stop + Text.width line⟩ := by
  have hstop := h.stop_add_line_lt hsize
  rw [Walk.line?, lineCost?_eq (by omega), Option.bind_eq_bind, Option.bind_some, if_pos hlong,
    h.give?_eq, Option.bind_eq_bind, Option.bind_some, Word.sub?_of_le hroom, Option.bind_some,
    hardPieces?_eq (by omega), Option.bind_some, Word.add?_of_lt (by omega), Option.bind_some]

theorem Walk.At.width_add_lineCost_lt (h : w.At body pending (line ++ left))
    (hsize : Text.width body < 2 ^ 57) : pending.width + lineCost line < 2 ^ 64 := by
  have hpending := h.stop_eq
  have hstop := h.stop_add_line_lt hsize
  rw [lineCost]
  split <;> omega

theorem Walk.At.line?_of_full (h : w.At body pending (line ++ left))
    (hsize : Text.width body < 2 ^ 57) (hcost : lineCost line ≤ room) (hne : pending.text ≠ [])
    (hfull : room < pending.width + lineCost line) :
    w.line? body room line =
      some ⟨w.parts ++ [pending.text], w.stop, w.stop + Text.width line⟩ := by
  have hstop := h.stop_add_line_lt hsize
  have hempty : pending.isEmpty = false := by
    rwa [← Bool.not_eq_true, Text.Buffer.isEmpty_iff]
  rw [Walk.line?, lineCost?_eq (by omega), Option.bind_eq_bind, Option.bind_some,
    if_neg (Nat.not_lt.mpr hcost), h.isFull?_eq (h.width_add_lineCost_lt hsize),
    Option.bind_eq_bind, Option.bind_some, if_pos (by simp [hempty, hfull]), h.give?_eq,
    pendingPart_of_ne_nil hne, Option.bind_eq_bind, Option.bind_some, Word.add?_of_lt (by omega),
    Option.bind_some]

theorem Walk.At.line?_of_room (h : w.At body pending (line ++ left))
    (hsize : Text.width body < 2 ^ 57) (hcost : lineCost line ≤ room)
    (hfits : pending.text ≠ [] → pending.width + lineCost line ≤ room) :
    w.line? body room line = some ⟨w.parts, w.start, w.stop + Text.width line⟩ := by
  have hstop := h.stop_add_line_lt hsize
  have hnot : ¬ (!pending.isEmpty && decide (room < pending.width + lineCost line)) = true := by
    simpa [← Bool.not_eq_true, Text.Buffer.isEmpty_iff] using hfits
  rw [Walk.line?, lineCost?_eq (by omega), Option.bind_eq_bind, Option.bind_some,
    if_neg (Nat.not_lt.mpr hcost), h.isFull?_eq (h.width_add_lineCost_lt hsize),
    Option.bind_eq_bind, Option.bind_some, if_neg hnot, Word.add?_of_lt (by omega),
    Option.bind_some]

/-- A line is dealt with, and the parts that are still to come are the same. -/
theorem Walk.At.exists_line? (h : w.At body pending (line ++ left))
    (hsize : Text.width body < 2 ^ 57) (hroom : 1 ≤ room) (ls : List (List Char)) :
    ∃ w' pending', w.line? body room line = some w' ∧ w'.At body pending' left ∧
      w'.parts ++ bodyParts room pending' ls = w.parts ++ bodyParts room pending (line :: ls) := by
  by_cases hlong : room < lineCost line
  · refine ⟨_, _, h.line?_of_long hsize hroom hlong, h.settled _, ?_⟩
    rw [bodyParts_of_long hlong]
    simp
  · have hcost := Nat.not_lt.mp hlong
    by_cases hfull : pending.text ≠ [] ∧ room < pending.width + lineCost line
    · refine ⟨_, _, h.line?_of_full hsize hcost hfull.1 hfull.2, h.given _, ?_⟩
      rw [bodyParts_of_full hcost hfull.1 hfull.2]
      simp
    · have hfits : pending.text ≠ [] → pending.width + lineCost line ≤ room :=
        fun hne => Nat.not_lt.mp fun hover => hfull ⟨hne, hover⟩
      refine ⟨_, _, h.line?_of_room hsize hcost hfits, h.pended _, ?_⟩
      rw [bodyParts_of_room hcost hfits]

theorem Walk.At.exists_foldlM {ls : List (List Char)} (h : w.At body pending ls.flatten)
    (hsize : Text.width body < 2 ^ 57) (hroom : 1 ≤ room) :
    ∃ w' pending', ls.foldlM (Walk.line? body room) w = some w' ∧ w'.At body pending' [] ∧
      w'.parts ++ pendingPart pending' = w.parts ++ bodyParts room pending ls := by
  induction ls generalizing w pending with
  | nil => exact ⟨w, pending, rfl, h, rfl⟩
  | cons line ls ih =>
      rw [List.flatten_cons] at h
      obtain ⟨next, pending', hline, hnext, hparts⟩ := h.exists_line? hsize hroom ls
      obtain ⟨last, pending'', hlast, hend, hall⟩ := ih hnext
      refine ⟨last, pending'', ?_, hend, hall.trans hparts⟩
      rw [List.foldlM_cons, hline]
      exact hlast

theorem bodyParts?_eq (hsize : Text.width body < 2 ^ 57) (hroom : 1 ≤ room) :
    bodyParts? body room = some (bodyParts room .empty (Text.lines body)) := by
  have hstart : Walk.At body ⟨[], 0, 0⟩ .empty (Text.lines body).flatten :=
    ⟨[], by simp [Text.flatten_lines], rfl, rfl⟩
  obtain ⟨w, pending, hfold, hend, hparts⟩ := hstart.exists_foldlM hsize hroom
  rw [bodyParts?, hfold, Option.bind_eq_bind, Option.bind_some, hend.give?_eq, hparts]
  rfl

end

/-! Blocks that are taken apart. -/

theorem isInfix_of_mem_bodyParts {budget : Nat} {body part : List Char}
    (hpart : part ∈ bodyParts budget .empty (Text.lines body)) : part <:+: body := by
  rcases mem_bodyParts hpart with
    ⟨run, -, ⟨earlier, later, hlines⟩, rfl, -⟩ | ⟨line, hline, -, hpiece⟩
  · refine ⟨earlier.flatten, later.flatten, ?_⟩
    rw [← List.flatten_append, ← List.flatten_append, hlines, Text.flatten_lines]
  · have hinfix := List.infix_of_mem_flatten hline
    rw [Text.flatten_lines] at hinfix
    exact (hardPiece_of_mem hpiece).isInfix.trans hinfix

theorem mapM_wrap?_eq {block : Block} (hsize : block.width < 2 ^ 60) {parts : List (List Char)}
    (hparts : ∀ part ∈ parts, part <:+: block.body) :
    parts.mapM block.wrap? = some (parts.map block.wrap) := by
  induction parts with
  | nil => rfl
  | cons part parts ih =>
      obtain ⟨hpart, hrest⟩ := List.forall_mem_cons.mp hparts
      obtain ⟨before, after, hbody⟩ := hpart
      have hwidth : Text.width part ≤ Text.width block.body := by
        rw [← hbody, Text.width_append, Text.width_append]
        omega
      rw [List.mapM_cons, block.wrap?_eq hsize hwidth, ih hrest]
      rfl

theorem filter_bodyParts (budget : Nat) (body : List Char) :
    (bodyParts budget .empty (Text.lines body)).filter (fun part => !part.isEmpty) =
      bodyParts budget .empty (Text.lines body) := by
  refine List.filter_eq_self.mpr fun part hpart => ?_
  simpa using ne_nil_of_mem_bodyParts hpart

theorem filter_sub?_of_le {limit overhead : Nat} (h : overhead + 2 ≤ limit) :
    (Word.sub? limit overhead).filter (2 ≤ ·) = some (limit - overhead) := by
  rw [Word.sub?_of_le (by omega), Option.filter_some, if_pos (decide_eq_true (by omega))]

theorem filter_sub?_of_lt {limit overhead : Nat} (h : limit < overhead + 2) :
    (Word.sub? limit overhead).filter (2 ≤ ·) = none := by
  by_cases hover : limit < overhead
  · rw [Word.sub?_of_lt hover]
    rfl
  · have hsmall : ¬ 2 ≤ limit - overhead := by omega
    rw [Word.sub?_of_le (Nat.not_lt.mp hover), Option.filter_some, if_neg (by simpa using hsmall)]

theorem refence?_eq {block : Block} (hbody : Text.width block.body < 2 ^ 57)
    (hsize : block.width < 2 ^ 60) (limit : Nat) :
    refence? block limit = some (refence block limit) := by
  have hrender : block.wrap? block.body = some block.render :=
    Block.wrap?_eq hsize (Nat.le_refl _)
  rw [refence?, Block.width?_eq hsize, Option.bind_eq_bind, Option.bind_some]
  by_cases hfits : block.width ≤ limit
  · rw [if_pos hfits, hrender, refence, splits]
    simp [hfits]
  · rw [if_neg hfits, Block.overhead?_eq hsize, Option.bind_eq_bind, Option.bind_some]
    by_cases hroom : block.overhead + 2 ≤ limit
    · rw [refence_of_splits (Nat.not_le.mp hfits) hroom, filter_sub?_of_le hroom]
      dsimp only
      rw [bodyParts?_eq hbody (by omega), Option.bind_eq_bind, Option.bind_some, filter_bodyParts,
        mapM_wrap?_eq hsize fun _ => isInfix_of_mem_bodyParts]
    · have hnone := Nat.not_le.mp hroom
      rw [refence_of_no_room hnone, filter_sub?_of_lt hnone]
      dsimp only
      rw [hrender]
      rfl

end Chunk

end ChannelAdapter
