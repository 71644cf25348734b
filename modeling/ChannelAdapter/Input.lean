/-!
Input as lines. Bytes arrive in pieces; a reader takes them one by one and gives up each line when
its newline comes, so where the pieces are cut does not matter. Lines have a greatest length, and
of a longer one nothing is kept.
-/

namespace ChannelAdapter

inductive Input.Line
  | text (bytes : List UInt8)
  | overlong
  deriving DecidableEq, Repr

inductive Input.Ending
  | closed
  | failed (reason : String)
  /-- Nothing ever comes again. -/
  | silent
  deriving DecidableEq, Repr

structure Input where
  pieces : List (List UInt8)
  ending : Input.Ending
  deriving DecidableEq, Repr

namespace Input

def newline : UInt8 := 10

def carriageReturn : UInt8 := 13

def maxLine : Nat := 1048576

/-- A line that has not ended yet: its size, and its bytes, the last one first, unless it is too
long. -/
structure Reader where
  size : Nat
  held : List UInt8
  deriving DecidableEq, Repr

namespace Reader

def start : Reader := ⟨0, []⟩

/-- The line that ends here. A carriage return counts for the length but is not part of the line. -/
def finish (max : Nat) (r : Reader) : Line :=
  if max < r.size then .overlong
  else
    match r.held with
    | [] => .text []
    | b :: bytes => if b = carriageReturn then .text bytes.reverse else .text (b :: bytes).reverse

def last (max : Nat) (r : Reader) : Option Line :=
  if r.size = 0 then none else some (r.finish max)

def step (max : Nat) (r : Reader) (b : UInt8) : Reader × Option Line :=
  if b = newline then (start, some (r.finish max))
  else (⟨r.size + 1, if r.size < max then b :: r.held else []⟩, none)

/-- Takes the bytes of a piece and adds the lines that end in it to those before, the last one
first. -/
def feed (max : Nat) (r : Reader) (done : List Line) : List UInt8 → Reader × List Line
  | [] => (r, done)
  | b :: bytes =>
      let (r, line) := r.step max b
      feed max r (match line with | some l => l :: done | none => done) bytes

theorem feed_append (max : Nat) (r : Reader) (done : List Line) (a b : List UInt8) :
    feed max r done (a ++ b) = feed max (feed max r done a).1 (feed max r done a).2 b := by
  induction a generalizing r done with
  | nil => rfl
  | cons x a ih => simp only [List.cons_append, feed]; exact ih ..

end Reader

/-- The lines of an input. A last line without a newline counts only where the input is closed. -/
def lines (max : Nat) (i : Input) : List Line :=
  let (r, done) := i.pieces.foldl (fun (r, done) piece => r.feed max done piece) (Reader.start, [])
  match i.ending with
  | .closed => done.reverse ++ (r.last max).toList
  | _ => done.reverse

/-- Where input comes from: it gives its pieces to a function, one after the other, and tells how it
ends. -/
abbrev Source (m : Type → Type) : Type 1 :=
  {α : Type} → (α → List UInt8 → m α) → α → m (α × Ending)

def source {m : Type → Type} [Monad m] (i : Input) : Source m := fun f a => do
  return (← i.pieces.foldlM f a, i.ending)

end Input

end ChannelAdapter
