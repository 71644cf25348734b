import ChannelAdapter.Proofs.Chunk.Size
import ChannelAdapter.Proofs.Chunk.Walk
import ChannelAdapter.Proofs.Segment.Partition
import ChannelAdapter.Proofs.Segment.Scan
/-!
Cutting by byte offsets. Segments that are sliced out of a text fill a draft whose sizes are words.
For a text of fewer than `2 ^ 57` bytes this never fails, whatever the limit, and the chunks are
those that are cut without offsets.
-/

namespace ChannelAdapter.Chunk

namespace Draft

def appendBlock? (limit : Nat) (d : Draft) (block : Block) : Option Draft := do
  let size ← block.width?
  if limit < size then some (d.flush.emit (← refence? block limit))
  else
    let total ← Word.add? d.current.width size
    let text ← block.wrap? block.body
    some (if limit < total then d.flush.push text else d.push text)

def append? (limit : Nat) (d : Draft) : Segment → Option Draft
  | .plain cs => d.appendPlain? limit cs
  | .fenced block _ => d.appendBlock? limit block

end Draft

def fenced? (limit : Nat) (cs : List Char) : Option (List (List Char)) := do
  let segments ← Segment.ofText? cs
  let d ← segments.foldlM (Draft.append? limit) .empty
  some d.chunks

namespace Strategy

def cut? : Strategy → Nat → List Char → Option (List (List Char))
  | .fenced => fenced?
  | .plain => plain?

def chunk? (s : Strategy) (text : String) (limit : Nat) : Option (List String) :=
  if text.isEmpty then some []
  else if limit = 0 || text.utf8ByteSize ≤ limit then some [text]
  else do
    let chunks ← s.cut? limit text.toList
    some (chunks.map String.ofList)

end Strategy

/-! The segments of a text are not much larger than the text. -/

section
variable {cs : List Char} {block : Block} {closing : Closing}

theorem width_source_le {segment : Segment} (h : segment ∈ Segment.ofText cs) :
    Text.width segment.source ≤ Text.width cs := by
  have hinfix := List.infix_of_mem_flatten (List.mem_map_of_mem (f := Segment.source) h)
  rw [← List.flatMap_def, Segment.flatMap_source_ofText] at hinfix
  obtain ⟨before, after, hsplit⟩ := hinfix
  rw [← hsplit, Text.width_append, Text.width_append]
  omega

theorem width_body_le (h : .fenced block closing ∈ Segment.ofText cs) :
    Text.width block.body ≤ Text.width cs := by
  have hsource := width_source_le h
  cases closing <;> simp only [Segment.source, Text.width_append] at hsource <;> omega

theorem width_block_le (h : .fenced block closing ∈ Segment.ofText cs) :
    block.width ≤ 2 * Text.width cs + 2 := by
  have hsource := width_source_le h
  have hbreak : (block.lineBreak block.body).length ≤ 1 := by
    rw [Block.lineBreak]
    generalize Text.endsLine _ = ended
    cases ended <;> simp
  rw [Block.width]
  cases closing with
  | written =>
      simp only [Segment.source, Text.width_append] at hsource
      omega
  | supplied =>
      cases (Segment.partition_ofText cs).shaped _ h with
      | supplied hopen _ hclose =>
          have hcloseLine := Segment.width_closingLine_le (Fence.ofLine?_eq_some_iff.mpr hopen)
          simp only [Segment.source, Text.width_append] at hsource
          rw [hclose]
          omega

end

/-! Drafts. -/

namespace Draft

theorem appendBlock?_eq {limit : Nat} {d : Draft} {block : Block} (hlimit : limit < 2 ^ 57)
    (hcurrent : Text.width d.current.text ≤ limit) (hbody : Text.width block.body < 2 ^ 57)
    (hsize : block.width < 2 ^ 60) :
    d.appendBlock? limit block = some (d.appendBlock limit block) := by
  rw [appendBlock?, appendBlock, Block.width?_eq hsize, Option.bind_eq_bind, Option.bind_some]
  by_cases hwide : limit < block.width
  · rw [if_pos hwide, if_pos hwide, refence?_eq hbody hsize]
    rfl
  · have htext : block.wrap? block.body = some block.render :=
      Block.wrap?_eq hsize (Nat.le_refl _)
    rw [Text.Buffer.width_text] at hcurrent
    rw [if_neg hwide, if_neg hwide, Word.add?_of_lt (by omega), Option.bind_eq_bind,
      Option.bind_some, htext, Option.bind_some]

theorem Bounded.foldlM_append? {limit : Nat} {text : List Char} {d : Draft}
    (h : d.Bounded limit text) (hpos : 0 < limit) (hlimit : limit < 2 ^ 57)
    (hsize : Text.width text < 2 ^ 57) {segments : List Segment}
    (hsegments : segments ⊆ Segment.ofText text) :
    segments.foldlM (append? limit) d = some (segments.foldl (append limit) d) := by
  induction segments generalizing d with
  | nil => rfl
  | cons segment segments ih =>
      obtain ⟨hsegment, hrest⟩ := List.cons_subset.mp hsegments
      have hstep : d.append? limit segment = some (d.append limit segment) := by
        cases segment with
        | plain prose =>
            have hprose : Text.width prose ≤ Text.width text := width_source_le hsegment
            exact appendPlain?_eq hpos (by omega) d
        | fenced block closing =>
            have hbody := width_body_le hsegment
            have hblock := width_block_le hsegment
            exact appendBlock?_eq hlimit h.current (by omega) (by omega)
      have hnext : (d.append limit segment).Bounded limit text :=
        h.foldl (List.cons_subset.mpr ⟨hsegment, List.nil_subset _⟩)
      rw [List.foldlM_cons, hstep, List.foldl_cons, ← ih hnext hrest]
      rfl

end Draft

theorem fenced?_eq {limit : Nat} {cs : List Char} (hpos : 0 < limit) (hlimit : limit < 2 ^ 57)
    (hsize : Text.width cs < 2 ^ 57) : fenced? limit cs = some (fenced limit cs) := by
  have hfold := (Draft.bounded_empty limit cs).foldlM_append? hpos hlimit hsize
    (List.Subset.refl (Segment.ofText cs))
  rw [fenced?, Segment.ofText?_eq hsize, Option.bind_eq_bind, Option.bind_some, hfold]
  rfl

theorem Strategy.chunk?_eq (s : Strategy) {text : String} (hsize : text.utf8ByteSize < 2 ^ 57)
    (limit : Nat) : s.chunk? text limit = some (s.chunk text limit) := by
  rw [chunk?, chunk]
  split
  · rfl
  · split
    · rfl
    · next hlong =>
        rw [Bool.or_eq_true, decide_eq_true_eq, decide_eq_true_eq, not_or] at hlong
        have hwidth : Text.width text.toList < 2 ^ 57 := by rwa [Text.width_toList]
        have hcut : s.cut? limit text.toList = some (s.cut limit text.toList) := by
          cases s with
          | fenced => exact fenced?_eq (by omega) (by omega) hwidth
          | plain => exact plain?_eq hwidth limit
        rw [hcut]
        rfl

/-- No slice is out of place and no word overflows. -/
theorem never_fails (text : String) (hsize : text.utf8ByteSize < 2 ^ 57) (limit : Nat) :
    (∀ s : Strategy, s.chunk? text limit = some (s.chunk text limit)) ∧
    splitPoint? text.toList limit = some (splitPoint text.toList limit) ∧
    Segment.ofText? text.toList = some (Segment.ofText text.toList) ∧
    ∀ block closing, .fenced block closing ∈ Segment.ofText text.toList →
      refence? block limit = some (refence block limit) := by
  have hwidth : Text.width text.toList < 2 ^ 57 := by rwa [Text.width_toList]
  refine ⟨fun s => s.chunk?_eq hsize limit, splitPoint?_eq hwidth limit,
    Segment.ofText?_eq hwidth, ?_⟩
  intro block closing hblock
  have hbody := width_body_le hblock
  have hle := width_block_le hblock
  exact refence?_eq (by omega) (by omega) limit

/-- The limit is smaller than a cluster, one block is taken apart, and another is left open. -/
theorem never_fails_narrow :
    "Ä 👩‍👦.\n```\nab\n```\n~~~\nc".utf8ByteSize < 2 ^ 57 ∧
      Strategy.fenced.chunk? "Ä 👩‍👦.\n```\nab\n```\n~~~\nc" 10 =
        some ["Ä", "👩‍👦", ".\n", "```\na\n```\n", "```\nb\n```\n", "~~~\nc\n~~~\n"] ∧
      Strategy.plain.chunk? "Ä 👩‍👦.\n```\nab\n```\n~~~\nc" 10 =
        some ["Ä", "👩‍👦", ".\n```\nab\n", "```\n~~~\nc"] ∧
      refence? ⟨"```\n".toList, "ab\n".toList, "```\n".toList⟩ 10 =
        some ["```\na\n```\n".toList, "```\nb\n```\n".toList] := by
  have hsize : "Ä 👩‍👦.\n```\nab\n```\n~~~\nc".utf8ByteSize < 2 ^ 57 := by decide
  have hfenced : Strategy.fenced.chunk "Ä 👩‍👦.\n```\nab\n```\n~~~\nc" 10 =
      ["Ä", "👩‍👦", ".\n", "```\na\n```\n", "```\nb\n```\n", "~~~\nc\n~~~\n"] := by
    decide +kernel
  have hplain : Strategy.plain.chunk "Ä 👩‍👦.\n```\nab\n```\n~~~\nc" 10 =
      ["Ä", "👩‍👦", ".\n```\nab\n", "```\n~~~\nc"] := by decide +kernel
  have hblock : .fenced ⟨"```\n".toList, "ab\n".toList, "```\n".toList⟩ .written ∈
      Segment.ofText "Ä 👩‍👦.\n```\nab\n```\n~~~\nc".toList := by decide +kernel
  have hrefence : refence ⟨"```\n".toList, "ab\n".toList, "```\n".toList⟩ 10 =
      ["```\na\n```\n".toList, "```\nb\n```\n".toList] := by decide +kernel
  obtain ⟨hchunk, -, -, hrefence?⟩ := never_fails "Ä 👩‍👦.\n```\nab\n```\n~~~\nc" hsize 10
  refine ⟨hsize, ?_, ?_, ?_⟩
  · rw [hchunk, hfenced]
  · rw [hchunk, hplain]
  · rw [hrefence? _ _ hblock, hrefence]

end ChannelAdapter.Chunk
