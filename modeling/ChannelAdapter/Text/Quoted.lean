import ChannelAdapter.Text.Quoted.Table
import ChannelAdapter.Text.Cluster.Table
/-!
Quoted texts in messages. Quotes, backslashes and line controls have short escapes; whatever would
not show as a character of its own, marks that combine with the one before included, is written as
its code point.
-/

namespace ChannelAdapter.Text.Quoted

/-- Whether a character extends a cluster and yet stands for itself: the halfwidth voicing marks and
the skin tones. -/
def standsAlone (n : Nat) : Bool :=
  n == 0xFF9E || n == 0xFF9F || (0x1F3FB ≤ n && n ≤ 0x1F3FF)

def combines (n : Nat) : Bool :=
  (Ranges.covers Cluster.Table.extend n && !standsAlone n) || Ranges.covers Cluster.Table.linker n

def isHidden (c : Char) : Bool :=
  let n := c.toNat
  if n < 0x80 then n < 0x20 || n == 0x7F
  else Ranges.covers Table.unprintable n || combines n

def escape (c : Char) : List Char :=
  match c with
  | '\x00' => ['\\', '0']
  | '\t' => ['\\', 't']
  | '\r' => ['\\', 'r']
  | '\n' => ['\\', 'n']
  | '"' => ['\\', '"']
  | '\\' => ['\\', '\\']
  | c =>
      if isHidden c then ['\\', 'u', '\x7b'] ++ Nat.toDigits 16 c.toNat ++ ['\x7d'] else [c]

end Quoted

def quoted (s : String) : String :=
  String.ofList ('"' :: s.toList.flatMap Quoted.escape ++ ['"'])

end ChannelAdapter.Text
