import ChannelAdapter.Text.Width
import ChannelAdapter.Text.Cluster.Table
/-!
Extended grapheme clusters. A cluster is read from the front of a text: `Context` remembers what the
boundary rules need of the characters read so far, `Context.joins` says whether the next one belongs
to the same cluster. No rule looks back past the start of a cluster, so the clusters of a text are
its first cluster followed by those of the rest.
-/

namespace ChannelAdapter.Text

inductive Cluster.Kind
  | carriageReturn | lineFeed | control | extend | linker | nonJoiner | joiner | spacing | prepend
  | flag | lead | vowel | tail | syllable | closedSyllable | pictograph | consonant | other
  deriving DecidableEq, Repr

namespace Cluster

/-- The kind of a character. Hangul syllables are open or closed by their position in their block.
-/
def Kind.of (c : Char) : Kind :=
  let n := c.toNat
  if n < 0x20 then
    if n = 13 then .carriageReturn else if n = 10 then .lineFeed else .control
  else if n < 0x7F then .other
  else if 0xAC00 ≤ n && n ≤ 0xD7A3 then
    if (n - 0xAC00) % 28 = 0 then .syllable else .closedSyllable
  else if n = 0x200C then .nonJoiner
  else if n = 0x200D then .joiner
  else if 0x1F1E6 ≤ n && n ≤ 0x1F1FF then .flag
  else if Ranges.covers Table.linker n then .linker
  else if Ranges.covers Table.extend n then .extend
  else if Ranges.covers Table.spacing n then .spacing
  else if Ranges.covers Table.consonant n then .consonant
  else if Ranges.covers Table.pictograph n then .pictograph
  else if Ranges.covers Table.control n then .control
  else if Ranges.covers Table.prepend n then .prepend
  else if Ranges.covers Table.lead n then .lead
  else if Ranges.covers Table.vowel n then .vowel
  else if Ranges.covers Table.tail n then .tail
  else .other

/-- How far the characters read so far are on the way to joining a pictograph. -/
inductive Pictographic
  | none
  /-- A pictograph and extending marks. -/
  | open
  /-- The same, ended by a joiner. -/
  | joined
  deriving DecidableEq, Repr

/-- How far the characters read so far are on the way to joining a consonant. -/
inductive Conjunct
  | none
  /-- A consonant and extending marks. -/
  | open
  /-- The same, with a linker among the marks. -/
  | linked
  deriving DecidableEq, Repr

/-- What the rules need to know of the part of a cluster that has been read. -/
structure Context where
  last : Kind
  pictographic : Pictographic
  conjunct : Conjunct
  /-- Whether an odd number of flag letters ends it. -/
  oddFlags : Bool
  deriving DecidableEq, Repr

def Context.start (k : Kind) : Context where
  last := k
  pictographic := if k = .pictograph then .open else .none
  conjunct := if k = .consonant then .open else .none
  oddFlags := k = .flag

def Context.joins (x : Context) (k : Kind) : Bool :=
  match x.last, k with
  | .carriageReturn, .lineFeed => true
  | .control, _ | .carriageReturn, _ | .lineFeed, _ => false
  | _, .control | _, .carriageReturn | _, .lineFeed => false
  | .lead, .lead | .lead, .vowel | .lead, .syllable | .lead, .closedSyllable => true
  | .syllable, .vowel | .syllable, .tail | .vowel, .vowel | .vowel, .tail => true
  | .closedSyllable, .tail | .tail, .tail => true
  | _, .extend | _, .linker | _, .nonJoiner | _, .joiner | _, .spacing => true
  | .prepend, _ => true
  | _, .consonant => x.conjunct = .linked
  | _, .pictograph => x.pictographic = .joined
  | _, .flag => x.oddFlags
  | _, _ => false

def Context.next (x : Context) (k : Kind) : Context where
  last := k
  pictographic :=
    match k with
    | .pictograph => .open
    | .joiner => if x.pictographic = .open then .joined else .none
    | .extend | .linker | .nonJoiner => if x.pictographic = .open then .open else .none
    | _ => .none
  conjunct :=
    match k with
    | .consonant => .open
    | .linker => if x.conjunct = .none then .none else .linked
    | .extend | .joiner => x.conjunct
    | _ => .none
  oddFlags := k = .flag && !x.oddFlags

def continuation (x : Context) : List Char → List Char × List Char
  | [] => ([], [])
  | c :: cs =>
      if x.joins (.of c) then
        let (a, b) := continuation (x.next (.of c)) cs
        (c :: a, b)
      else ([], c :: cs)

theorem continuation_append (x : Context) (cs : List Char) :
    (continuation x cs).1 ++ (continuation x cs).2 = cs := by
  induction cs generalizing x with
  | nil => rfl
  | cons c cs ih =>
      rw [continuation]
      split
      · simp [ih]
      · rfl

def first : List Char → List Char × List Char
  | [] => ([], [])
  | c :: cs =>
      let (a, b) := continuation (.start (.of c)) cs
      (c :: a, b)

@[simp] theorem first_nil : first [] = ([], []) := rfl

theorem first_append (cs : List Char) : (first cs).1 ++ (first cs).2 = cs := by
  cases cs with
  | nil => rfl
  | cons c cs => simp [first, continuation_append]

theorem first_ne_nil {cs : List Char} (h : cs ≠ []) : (first cs).1 ≠ [] := by
  cases cs with
  | nil => exact absurd rfl h
  | cons c cs => simp [first]

theorem length_first_snd_lt {cs : List Char} (h : cs ≠ []) : (first cs).2.length < cs.length := by
  have hlen := congrArg List.length (first_append cs)
  have hpos := List.length_pos_iff.mpr (first_ne_nil h)
  rw [List.length_append] at hlen
  omega

end Cluster

def clusters (cs : List Char) : List (List Char) :=
  if h : cs = [] then [] else
    have := Cluster.length_first_snd_lt h
    (Cluster.first cs).1 :: clusters (Cluster.first cs).2
termination_by cs.length

theorem flatten_clusters (cs : List Char) : (clusters cs).flatten = cs := by
  fun_induction clusters cs with
  | case1 => rfl
  | case2 cs h _ ih => simp [ih, Cluster.first_append]

end ChannelAdapter.Text
