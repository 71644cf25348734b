/-!
Sets of code points given as sorted tables of disjoint ranges. Membership is a binary search.
-/

namespace ChannelAdapter.Text.Ranges

/-- Whether a code point lies in one of the ranges from index `lo` to below `hi`. -/
def search (t : Array (Nat × Nat)) (n lo hi : Nat) : Bool :=
  if lo < hi then
    match t[(lo + hi) / 2]? with
    | none => false
    | some (a, b) =>
        if n < a then search t n lo ((lo + hi) / 2)
        else if b < n then search t n ((lo + hi) / 2 + 1) hi
        else true
  else false
termination_by hi - lo

def covers (t : Array (Nat × Nat)) (n : Nat) : Bool :=
  search t n 0 t.size

end ChannelAdapter.Text.Ranges
