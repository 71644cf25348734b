import ChannelAdapter.Proofs.Segment.Grammar
import ChannelAdapter.Proofs.Text.Line
import ChannelAdapter.Proofs.Text.Slice
/-!
Segments found by byte offsets. A scan goes over the lines of a text and remembers where the prose
or the block at hand has begun; each segment is a slice of the text. No offset is out of place, and
the segments are those that the grammar reads.
-/

namespace ChannelAdapter

/-- The closing line for a fence, in a text that room has been made for. -/
def Fence.closingLine? (fence : Fence) : Option (List Char) := do
  Word.reserve? (← Word.mul? fence.mark.char.utf8Size (max fence.size minSize))
  some fence.closingLine

namespace Segment

/-- A block that is being read: its fence, and where its opening line begins and ends. -/
structure Scan.Opened where
  fence : Fence
  start : Nat
  stop : Nat

/-- The segments so far, where the last one ends, the block that is being read, and where the next
line begins. -/
structure Scan where
  segments : List Segment
  last : Nat
  opened : Option Scan.Opened
  lineStart : Nat

namespace Scan

def addProse? (text : List Char) (scan : Scan) (pos : Nat) : Option (List Segment) :=
  if scan.last < pos then do some (scan.segments ++ [.plain (← Text.slice? text scan.last pos)])
  else some scan.segments

def line? (text : List Char) (scan : Scan) (line : List Char) : Option Scan := do
  let lineStop ← Word.add? scan.lineStart (Text.width line)
  match scan.opened with
  | none =>
      match Fence.ofLine? line with
      | none => some { scan with lineStart := lineStop }
      | some fence =>
          let segments ← scan.addProse? text scan.lineStart
          some ⟨segments, scan.last, some ⟨fence, scan.lineStart, lineStop⟩, lineStop⟩
  | some opened =>
      if opened.fence.closedBy line then
        let openLine ← Text.slice? text opened.start opened.stop
        let body ← Text.slice? text opened.stop scan.lineStart
        let closeLine ← Text.slice? text scan.lineStart lineStop
        some ⟨scan.segments ++ [.fenced ⟨openLine, body, closeLine⟩ .written], lineStop, none,
          lineStop⟩
      else some { scan with lineStart := lineStop }

def finish? (text : List Char) (scan : Scan) : Option (List Segment) :=
  match scan.opened with
  | none => scan.addProse? text (Text.width text)
  | some opened => do
      let openLine ← Text.slice? text opened.start opened.stop
      let body ← Text.slice? text opened.stop (Text.width text)
      let closeLine ← opened.fence.closingLine?
      some (scan.segments ++ [.fenced ⟨openLine, body, closeLine⟩ .supplied])

def inProse (segments : List Segment) (settled : List Char) (before : List (List Char)) : Scan :=
  ⟨segments, Text.width settled, none, Text.width (settled ++ before.flatten)⟩

def inBlock (segments : List Segment) (last : Nat) (settled openLine : List Char)
    (body : List (List Char)) (fence : Fence) : Scan :=
  ⟨segments, last, some ⟨fence, Text.width settled, Text.width (settled ++ openLine)⟩,
    Text.width (settled ++ openLine ++ body.flatten)⟩

/-- Where a scan stands, with the lines that are read but in no segment yet and the text that is
left. -/
inductive At (text : List Char) : Scan → List (List Char) → List Char → Prop
  | prose {segments : List Segment} {settled left : List Char} {before : List (List Char)}
      (htext : text = settled ++ before.flatten ++ left) (hlines : ∀ line ∈ before, line ≠ [])
      (hbefore : ∀ line ∈ before, Fence.opens line = false) :
      At text (inProse segments settled before) before left
  | block {segments : List Segment} {last : Nat} {settled openLine left : List Char}
      {body : List (List Char)} {fence : Fence}
      (htext : text = settled ++ openLine ++ body.flatten ++ left)
      (hopen : Fence.ofLine? openLine = some fence)
      (hbody : ∀ line ∈ body, fence.closedBy line = false) :
      At text (inBlock segments last settled openLine body fence) (openLine :: body) left

end Scan

def ofText? (cs : List Char) : Option (List Segment) := do
  let scan ← (Text.lines cs).foldlM (Scan.line? cs) ⟨[], 0, none, 0⟩
  scan.finish? cs

/-! Closing lines. -/

theorem utf8Size_mark (fence : Fence) : fence.mark.char.utf8Size = 1 := by
  cases fence.mark <;> rfl

theorem width_run (fence : Fence) (n : Nat) :
    Text.width (List.replicate n fence.mark.char) = n := by
  induction n with
  | zero => rfl
  | succ n ih => rw [List.replicate_succ, Text.width_cons, ih, utf8Size_mark, Nat.add_comm]

theorem size_le_width {openLine : List Char} {fence : Fence}
    (hopen : Fence.ofLine? openLine = some fence) : fence.size ≤ Text.width openLine := by
  obtain ⟨-, indent, tail, -, rfl, -⟩ := Fence.ofLine?_eq_some_iff.mp hopen
  rw [Text.width_append, Text.width_append, width_run]
  omega

theorem width_closingLine_le {openLine : List Char} {fence : Fence}
    (hopen : Fence.ofLine? openLine = some fence) :
    Text.width fence.closingLine ≤ Text.width openLine + 1 := by
  have hsize := size_le_width hopen
  have hleast := (Fence.ofLine?_eq_some hopen).1
  rw [Fence.closingLine, Text.width_append, width_run, Nat.max_eq_left hleast]
  exact Nat.succ_le_succ hsize

theorem closingLine?_eq {fence : Fence} (hsize : fence.size < 2 ^ 57) :
    fence.closingLine? = some fence.closingLine := by
  have hmax : max fence.size Fence.minSize < 2 ^ 57 := Nat.max_lt.mpr ⟨hsize, by decide⟩
  rw [Fence.closingLine?, utf8Size_mark, Word.mul?_of_lt (by omega), Option.bind_eq_bind,
    Option.bind_some, Word.reserve?_of_lt (by omega)]
  rfl

/-! What a scan still has to give. -/

section
variable {before body after : List (List Char)} {openLine closeLine : List Char} {fence : Fence}

theorem ofLines_cons_unclosed (hopen : Fence.ofLine? openLine = some fence)
    (hbody : ∀ line ∈ body, fence.closedBy line = false) :
    ofLines (openLine :: body) =
      [.fenced ⟨openLine, body.flatten, fence.closingLine⟩ .supplied] := by
  rw [← List.nil_append (openLine :: body), ofLines_unclosed (List.forall_mem_nil _) hopen hbody,
    passage_nil, List.nil_append]

theorem ofLines_cons_closed (hopen : Fence.ofLine? openLine = some fence)
    (hbody : ∀ line ∈ body, fence.closedBy line = false)
    (hclose : fence.closedBy closeLine = true) :
    ofLines (openLine :: (body ++ closeLine :: after)) =
      .fenced ⟨openLine, body.flatten, closeLine⟩ .written :: ofLines after := by
  rw [← List.nil_append (openLine :: _), ofLines_closed (List.forall_mem_nil _) hopen hbody hclose,
    passage_nil, List.nil_append]

theorem ofLines_append (hbefore : ∀ line ∈ before, Fence.opens line = false)
    (hopen : Fence.ofLine? openLine = some fence) (rest : List (List Char)) :
    ofLines (before ++ openLine :: rest) = passage before ++ ofLines (openLine :: rest) := by
  rcases exists_first fence.closedBy rest with hall | ⟨body, closeLine, after, rfl, hbody, hclose⟩
  · rw [ofLines_unclosed hbefore hopen hall, ofLines_cons_unclosed hopen hall]
  · rw [ofLines_closed hbefore hopen hbody hclose, ofLines_cons_closed hopen hbody hclose]

end

namespace Scan

section
variable {text settled openLine line left : List Char} {segments : List Segment} {last : Nat}
  {before body : List (List Char)} {fence : Fence}

theorem addProse?_inProse (segments : List Segment)
    (htext : text = settled ++ before.flatten ++ left) (hlines : ∀ line ∈ before, line ≠ []) :
    (inProse segments settled before).addProse? text (Text.width (settled ++ before.flatten)) =
      some (segments ++ passage before) := by
  have hprose : Text.slice? text (Text.width settled) (Text.width (settled ++ before.flatten)) =
      some before.flatten :=
    Text.slice?_eq_some_iff.mpr ⟨settled, left, htext, rfl, rfl⟩
  cases before with
  | nil => simp [addProse?, inProse, passage_nil]
  | cons line before =>
      have hne : (line :: before).flatten ≠ [] := by simp [hlines line List.mem_cons_self]
      have hlt : Text.width settled < Text.width (settled ++ (line :: before).flatten) := by
        have hpos := Text.width_pos.mpr hne
        rw [Text.width_append]
        omega
      rw [addProse?, inProse, if_pos hlt, hprose, passage_of_ne_nil (List.cons_ne_nil line before)]
      rfl

theorem width_flatten_concat (front : List Char) (ls : List (List Char)) (line : List Char) :
    Text.width (front ++ ls.flatten) + Text.width line =
      Text.width (front ++ (ls ++ [line]).flatten) := by
  simp [Nat.add_assoc]

theorem add?_line {front : List Char} (htext : text = front ++ (line ++ left))
    (hsize : Text.width text < 2 ^ 57) :
    Word.add? (Text.width front) (Text.width line) = some (Text.width front + Text.width line) := by
  rw [htext, Text.width_append, Text.width_append] at hsize
  exact Word.add?_of_lt (by omega)

theorem line?_prose (htext : text = settled ++ before.flatten ++ (line ++ left))
    (hsize : Text.width text < 2 ^ 57) (hline : Fence.ofLine? line = none) :
    (inProse segments settled before).line? text line =
      some (inProse segments settled (before ++ [line])) := by
  rw [Scan.line?, inProse, add?_line htext hsize, Option.bind_eq_bind, Option.bind_some,
    width_flatten_concat]
  simp only [hline]
  rfl

theorem line?_opens (htext : text = settled ++ before.flatten ++ (line ++ left))
    (hsize : Text.width text < 2 ^ 57) (hlines : ∀ line ∈ before, line ≠ [])
    (hline : Fence.ofLine? line = some fence) :
    (inProse segments settled before).line? text line =
      some (inBlock (segments ++ passage before) (Text.width settled) (settled ++ before.flatten)
        line [] fence) := by
  have hadded := addProse?_inProse segments htext hlines
  rw [inProse] at hadded
  rw [Scan.line?, inProse, add?_line htext hsize, Option.bind_eq_bind, Option.bind_some,
    ← Text.width_append]
  simp only [hline, hadded]
  rw [inBlock, List.flatten_nil, List.append_nil]
  rfl

theorem line?_body (htext : text = settled ++ openLine ++ body.flatten ++ (line ++ left))
    (hsize : Text.width text < 2 ^ 57) (hline : fence.closedBy line = false) :
    (inBlock segments last settled openLine body fence).line? text line =
      some (inBlock segments last settled openLine (body ++ [line]) fence) := by
  rw [Scan.line?, inBlock, add?_line htext hsize, Option.bind_eq_bind, Option.bind_some,
    width_flatten_concat]
  simp only [hline]
  rfl

theorem line?_closes (htext : text = settled ++ openLine ++ body.flatten ++ (line ++ left))
    (hsize : Text.width text < 2 ^ 57) (hline : fence.closedBy line = true) :
    (inBlock segments last settled openLine body fence).line? text line =
      some (inProse (segments ++ [.fenced ⟨openLine, body.flatten, line⟩ .written])
        (settled ++ openLine ++ body.flatten ++ line) []) := by
  have hopenLine : Text.slice? text (Text.width settled) (Text.width (settled ++ openLine)) =
      some openLine :=
    Text.slice?_eq_some_iff.mpr ⟨settled, body.flatten ++ (line ++ left), by simp [htext], rfl, rfl⟩
  have hbody : Text.slice? text (Text.width (settled ++ openLine))
      (Text.width (settled ++ openLine ++ body.flatten)) = some body.flatten :=
    Text.slice?_eq_some_iff.mpr ⟨settled ++ openLine, line ++ left, htext, rfl, rfl⟩
  have hcloseLine : Text.slice? text (Text.width (settled ++ openLine ++ body.flatten))
      (Text.width (settled ++ openLine ++ body.flatten ++ line)) = some line :=
    Text.slice?_eq_some_iff.mpr ⟨_, left, by simp [htext], rfl, rfl⟩
  rw [Scan.line?, inBlock, add?_line htext hsize, Option.bind_eq_bind, Option.bind_some,
    ← Text.width_append]
  simp only [hline, if_true, hopenLine, hbody, hcloseLine]
  rw [inProse, List.flatten_nil, List.append_nil]
  rfl

/-- A line is read, and the segments that are still to come are the same. -/
theorem At.exists_line? {scan : Scan} {unsettled : List (List Char)}
    (h : At text scan unsettled (line ++ left)) (hline : line ≠ [])
    (hsize : Text.width text < 2 ^ 57) (ls : List (List Char)) :
    ∃ next unsettled', scan.line? text line = some next ∧ At text next unsettled' left ∧
      next.segments ++ ofLines (unsettled' ++ ls) =
        scan.segments ++ ofLines (unsettled ++ line :: ls) := by
  cases h with
  | @prose segments settled _ before htext hlines hbefore =>
      cases hopen : Fence.ofLine? line with
      | none =>
          have hnot : Fence.opens line = false := by simp [Fence.opens, hopen]
          refine ⟨_, _, line?_prose htext hsize hopen, .prose ?_ ?_ ?_, ?_⟩
          · simp [htext]
          · exact List.forall_mem_append.mpr ⟨hlines, List.forall_mem_singleton.mpr hline⟩
          · exact List.forall_mem_append.mpr ⟨hbefore, List.forall_mem_singleton.mpr hnot⟩
          · rw [List.append_assoc, List.singleton_append]
            rfl
      | some fence =>
          refine ⟨_, _, line?_opens htext hsize hlines hopen, .block ?_ hopen (by simp), ?_⟩
          · simp [htext]
          · rw [ofLines_append hbefore hopen ls, ← List.append_assoc]
            rfl
  | @block segments last settled openLine _ body fence htext hopen hbody =>
      cases hclose : fence.closedBy line with
      | false =>
          refine ⟨_, _, line?_body htext hsize hclose, .block ?_ hopen ?_, ?_⟩
          · simp [htext]
          · exact List.forall_mem_append.mpr ⟨hbody, List.forall_mem_singleton.mpr hclose⟩
          · simp [inBlock]
      | true =>
          refine ⟨_, _, line?_closes htext hsize hclose, .prose ?_ ?_ ?_, ?_⟩
          · simp [htext]
          · simp
          · simp
          · rw [List.cons_append, ofLines_cons_closed hopen hbody hclose]
            simp [inProse, inBlock]

theorem At.exists_foldlM {scan : Scan} {unsettled ls : List (List Char)}
    (h : At text scan unsettled ls.flatten) (hls : ∀ line ∈ ls, line ≠ [])
    (hsize : Text.width text < 2 ^ 57) :
    ∃ final unsettled', ls.foldlM (Scan.line? text) scan = some final ∧
      At text final unsettled' [] ∧
      final.segments ++ ofLines unsettled' = scan.segments ++ ofLines (unsettled ++ ls) := by
  induction ls generalizing scan unsettled with
  | nil => exact ⟨scan, unsettled, rfl, h, by rw [List.append_nil]⟩
  | cons line ls ih =>
      obtain ⟨hline, hrest⟩ := List.forall_mem_cons.mp hls
      rw [List.flatten_cons] at h
      obtain ⟨next, unsettled', hnext, hat, hsame⟩ := h.exists_line? hline hsize ls
      obtain ⟨final, unsettled'', hfinal, hend, hall⟩ := ih hat hrest
      refine ⟨final, unsettled'', ?_, hend, hall.trans hsame⟩
      rw [List.foldlM_cons, hnext]
      exact hfinal

theorem At.finish?_eq {scan : Scan} {unsettled : List (List Char)} (h : At text scan unsettled [])
    (hsize : Text.width text < 2 ^ 57) :
    scan.finish? text = some (scan.segments ++ ofLines unsettled) := by
  cases h with
  | @prose segments settled _ before htext hlines hbefore =>
      have hadded := addProse?_inProse segments htext hlines
      rw [← List.append_nil (settled ++ unsettled.flatten), ← htext] at hadded
      rw [Scan.finish?, ofLines_prose hbefore]
      exact hadded
  | @block segments last settled openLine _ body fence htext hopen hbody =>
      rw [List.append_nil] at htext
      have hfence : fence.size < 2 ^ 57 := by
        have hle := size_le_width hopen
        rw [htext, Text.width_append, Text.width_append] at hsize
        omega
      have hopenLine : Text.slice? text (Text.width settled) (Text.width (settled ++ openLine)) =
          some openLine :=
        Text.slice?_eq_some_iff.mpr ⟨settled, body.flatten, htext, rfl, rfl⟩
      have hrest : Text.slice? text (Text.width (settled ++ openLine)) (Text.width text) =
          some body.flatten :=
        Text.slice?_eq_some_iff.mpr ⟨_, [], by rw [List.append_nil, htext], rfl, by rw [htext]⟩
      rw [Scan.finish?, inBlock, ofLines_cons_unclosed hopen hbody]
      simp only [hopenLine, hrest, closingLine?_eq hfence]
      rfl

end

end Scan

theorem ofText?_eq {cs : List Char} (hsize : Text.width cs < 2 ^ 57) :
    ofText? cs = some (ofText cs) := by
  have hlines : ∀ line ∈ Text.lines cs, line ≠ [] :=
    fun line hline => ((Text.lined_lines cs).isLine line hline).ne_nil
  have hstart : Scan.At cs (.inProse [] [] []) [] (Text.lines cs).flatten :=
    .prose (Text.flatten_lines cs).symm (List.forall_mem_nil _) (List.forall_mem_nil _)
  obtain ⟨final, unsettled, hfold, hend, hsegments⟩ := hstart.exists_foldlM hlines hsize
  have hfold : (Text.lines cs).foldlM (Scan.line? cs) ⟨[], 0, none, 0⟩ = some final := hfold
  rw [ofText?, hfold, Option.bind_eq_bind, Option.bind_some, hend.finish?_eq hsize, hsegments]
  rfl

end Segment

end ChannelAdapter
