import ChannelAdapter.Chunk.SplitPoint
/-!
Chunks of prose. A text is cut at its split points; the spaces around a cut are dropped, and so is a
piece of spaces only.
-/

namespace ChannelAdapter.Chunk

/-- A finished chunk: a piece without the spaces that end it, if anything remains. -/
def finish (piece : List Char) : List (List Char) :=
  let chunk := Text.trimEnd piece
  if chunk.isEmpty then [] else [chunk]

def piece (cs : List Char) (limit : Nat) : List Char :=
  (Text.splitAt (splitPoint cs limit).pos cs).1

def rest (cs : List Char) (limit : Nat) : List Char :=
  Text.trimStart (Text.splitAt (splitPoint cs limit).pos cs).2

theorem length_rest_lt {cs : List Char} (hcs : cs ≠ []) (limit : Nat) :
    (rest cs limit).length < cs.length :=
  Nat.lt_of_le_of_lt (Text.length_trimStart_le _) (length_after_splitPoint_lt hcs limit)

/-- The chunks of a text. The last one keeps its trailing spaces, since nothing was cut there. -/
def plain (limit : Nat) (cs : List Char) : List (List Char) :=
  go cs []
where
  go (cs : List Char) (done : List (List Char)) : List (List Char) :=
    if h : cs = [] then done.reverse
    else if Text.fits cs limit then (cs :: done).reverse
    else
      have := length_rest_lt h limit
      go (rest cs limit) (finish (piece cs limit) ++ done)
  termination_by cs.length

end ChannelAdapter.Chunk
