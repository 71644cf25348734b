import ChannelAdapter.Text.Width
/-!
White space and the trimming rules that cuts and lines use.
-/

namespace ChannelAdapter.Text

def isBlank (c : Char) : Bool :=
  let n := c.toNat
  (9 ≤ n && n ≤ 13) || n == 0x20 || n == 0x85 || n == 0xA0 || n == 0x1680 ||
    (0x2000 ≤ n && n ≤ 0x200A) || n == 0x2028 || n == 0x2029 || n == 0x202F || n == 0x205F ||
    n == 0x3000

def trimEnd (cs : List Char) : List Char :=
  (cs.reverse.dropWhile (· == ' ')).reverse

def trimStart (cs : List Char) : List Char :=
  cs.dropWhile (· == ' ')

theorem length_trimStart_le (cs : List Char) : (trimStart cs).length ≤ cs.length :=
  (List.dropWhile_suffix _).length_le

/-- Whether white space, or the end of the text, stands at byte `pos`. A position inside a character
or past the end counts as an end. -/
def spaceOrEnd (cs : List Char) (pos : Nat) : Bool :=
  match drop? pos cs with
  | some (c :: _) => isBlank c
  | some [] | none => true

end ChannelAdapter.Text
