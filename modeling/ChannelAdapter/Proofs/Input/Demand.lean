import ChannelAdapter.Proofs.Input
/-!
Lines on demand. An input that is asked for its next line takes its pieces until a newline comes, and
keeps the rest of the last piece for the next time. What it answers when it is asked again and again
depends on its bytes alone.
-/

namespace ChannelAdapter.Input

inductive Answer
  | line (l : Line)
  /-- No line comes any more. -/
  | ended (ending : Ending)
  deriving DecidableEq, Repr

/-- What a reader answers when there are no more pieces. A line that has begun is lost unless the
input is closed. -/
def Reader.answer (max : Nat) (r : Reader) : Ending → Answer
  | .closed => (r.last max).elim (.ended .closed) .line
  | ending => .ended ending

/-- Takes pieces until a newline comes, and leaves what has not been taken. -/
def Reader.demand (max : Nat) (ending : Ending) (r : Reader) :
    List (List UInt8) → Answer × List (List UInt8)
  | [] => (r.answer max ending, [])
  | piece :: pieces =>
      let content := piece.takeWhile (· != newline)
      let r := (r.feed max [] content).1
      match piece.dropWhile (· != newline) with
      | [] => r.demand max ending pieces
      | _ :: rest => (.line (r.finish max), rest :: pieces)

def demand (max : Nat) (i : Input) : Answer × Input :=
  let (answer, pieces) := Reader.start.demand max i.ending i.pieces
  (answer, ⟨pieces, i.ending⟩)

def answers (max : Nat) (i : Input) : Nat → List Answer
  | 0 => []
  | k + 1 => (i.demand max).1 :: answers max (i.demand max).2 k

/-! One answer. -/

section
variable (max : Nat) (ending : Ending) {raw : List UInt8}

namespace Reader

end Reader

end

/-! All answers. -/

theorem lines_nil (max : Nat) (ending : Ending) : lines max ⟨[], ending⟩ = [] := by
  cases ending <;> rfl

example : answers 3 ⟨[[97, 13], [10, 98], [98, 98, 98, 10], [99]], .closed⟩ 4 =
    [.line (.text [97]), .line .overlong, .line (.text [99]), .ended .closed] := by
  decide

end ChannelAdapter.Input
