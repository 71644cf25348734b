import ChannelAdapter.Calendar
import ChannelAdapter.Error
import ChannelAdapter.Text.Blank
/-!
Dates as people write them: a date and a time with an offset, a date and a time of universal time,
or a date alone, which stands for its midnight. The first form has fixed widths; the numbers of the
other two may be shorter, follow white space, and begin with a signed year.
-/

namespace ChannelAdapter.Calendar.Parse

/-- A number at the start of a text, and the rest. -/
abbrev Scan (α : Type) := List Char → Option (α × List Char)

def value (ds : List Char) : Nat :=
  ds.foldl (fun n d => 10 * n + (d.toNat - '0'.toNat)) 0

def number (least most : Nat) : Scan Nat := fun cs =>
  let ds := (cs.take most).takeWhile Char.isDigit
  if least ≤ ds.length then some (value ds, cs.drop ds.length) else none

def numeral : Scan Nat := fun cs =>
  let ds := cs.takeWhile Char.isDigit
  if ds.isEmpty then none else some (value ds, cs.drop ds.length)

def char (c : Char) : List Char → Option (List Char)
  | d :: cs => if c = d then some cs else none
  | [] => none

/-- Nanoseconds after a point, if there is one. Digits beyond the ninth are dropped. -/
def fraction : Scan Nat
  | '.' :: cs =>
      let ds := cs.takeWhile Char.isDigit
      if ds.isEmpty then none
      else some (value ((ds ++ List.replicate 9 '0').take 9), cs.drop ds.length)
  | cs => some (0, cs)

def maxOffset : Nat := (23 * 60 + 59) * 60

def offsetSize : Scan Nat := fun cs => do
  let (hours, cs) ← number 2 2 cs
  let cs ← char ':' cs
  let (minutes, cs) ← number 2 2 cs
  let seconds := hours * 3600 + minutes * 60
  if minutes ≤ 59 ∧ seconds ≤ maxOffset then some (seconds, cs) else none

def offset : Scan Int
  | 'Z' :: cs | 'z' :: cs => some (0, cs)
  | '+' :: cs => (offsetSize cs).map fun (n, cs) => (n, cs)
  | '-' :: cs | '−' :: cs => (offsetSize cs).map fun (n, cs) => (-(n : Int), cs)
  | _ => none

def separator : List Char → Option (List Char)
  | c :: cs => if c = 'T' ∨ c = 't' ∨ c = ' ' then some cs else none
  | [] => none

def instant (d : Date) (t : Time) (offset : Int) : Option Instant :=
  if d.isValid && t.isValid then some (.ofDateTime d t offset) else none

def offsetForm (cs : List Char) : Option Instant := do
  let (year, cs) ← number 4 4 cs
  let (month, cs) ← number 2 2 (← char '-' cs)
  let (day, cs) ← number 2 2 (← char '-' cs)
  let (hour, cs) ← number 2 2 (← separator cs)
  let (minute, cs) ← number 2 2 (← char ':' cs)
  let (second, cs) ← number 2 2 (← char ':' cs)
  let (nanosecond, cs) ← fraction cs
  let (ahead, cs) ← offset cs
  if cs.isEmpty then instant ⟨year, month, day⟩ ⟨hour, minute, second, nanosecond⟩ ahead else none

def field : Scan Nat := fun cs =>
  number 1 2 (cs.dropWhile Text.isBlank)

/-- A year after white space, with a sign and any number of digits, or without one and at most
four. -/
def year : Scan Int := fun cs =>
  match cs.dropWhile Text.isBlank with
  | '-' :: cs => (numeral cs).map fun (n, cs) => (-(n : Int), cs)
  | '+' :: cs => (numeral cs).map fun (n, cs) => (n, cs)
  | cs => (number 1 4 cs).map fun (n, cs) => (n, cs)

def date : Scan Date := fun cs => do
  let (year, cs) ← year cs
  let (month, cs) ← field (← char '-' cs)
  let (day, cs) ← field (← char '-' cs)
  some (⟨year, month, day⟩, cs)

def plainForm (cs : List Char) : Option Instant := do
  let (d, cs) ← date cs
  let (hour, cs) ← field (← char 'T' cs)
  let (minute, cs) ← field (← char ':' cs)
  let (second, cs) ← field (← char ':' cs)
  if cs.isEmpty then instant d ⟨hour, minute, second, 0⟩ 0 else none

def dateForm (cs : List Char) : Option Instant := do
  let (d, cs) ← date cs
  if cs.isEmpty then instant d .midnight 0 else none

end Parse

/-- The instant that a text gives, in the first form that it has. -/
def parse (s : String) : Except Error Instant :=
  if s.isEmpty then .error (.command (.invalidArgument "date is required"))
  else
    let cs := s.toList
    match Parse.offsetForm cs <|> Parse.plainForm cs <|> Parse.dateForm cs with
    | some t => .ok t
    | none =>
        .error (.command (.invalidArgument
          ("unrecognized date " ++ Text.quoted s ++ " (expected ISO 8601 or YYYY-MM-DD)")))

end ChannelAdapter.Calendar
