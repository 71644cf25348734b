/-!
Lines of a text. A line keeps the newline that ends it; only the last one may lack it. Joining the
lines gives the text back.
-/

namespace ChannelAdapter.Text

/-- The lines of a text, each with the newline that ends it. -/
def lines (cs : List Char) : List (List Char) :=
  go [] [] cs
where
  go (line : List Char) (done : List (List Char)) : List Char → List (List Char)
    | [] => if line.isEmpty then done.reverse else (line.reverse :: done).reverse
    | c :: cs =>
        if c = '\n' then go [] ((c :: line).reverse :: done) cs
        else go (c :: line) done cs

private theorem flatten_lines_go (cs line : List Char) (done : List (List Char)) :
    (lines.go line done cs).flatten = done.reverse.flatten ++ line.reverse ++ cs := by
  induction cs generalizing line done with
  | nil =>
      unfold lines.go
      split
      · next h => simp [List.isEmpty_iff.mp h]
      · simp
  | cons c cs ih =>
      unfold lines.go
      split <;> simp [ih]

theorem flatten_lines (cs : List Char) : (lines cs).flatten = cs := by
  simp [lines, flatten_lines_go]

def endsLine (cs : List Char) : Bool :=
  cs.getLast? == some '\n'

/-- A line without the newline that ends it, nor a carriage return before that. -/
def chompLine (line : List Char) : List Char :=
  match line.reverse with
  | '\n' :: '\r' :: rest => rest.reverse
  | '\n' :: rest => rest.reverse
  | _ => line

end ChannelAdapter.Text
