/-!
The shortest decimal that reads back as a given floating point number. A finite number is decoded
exactly as `mantissa * 2 ^ exponent`; of the decimals that lie in the interval rounding to it, the
one on the coarsest decimal grid is taken, and of two on that grid the nearer one.
-/

namespace ChannelAdapter.Decimal

/-- A positive binary number `mantissa * 2 ^ exponent`. `narrow` says that it is a power of two
whose lower neighbour is nearer than its upper one. -/
structure Binary where
  mantissa : Nat
  exponent : Int
  narrow : Bool
  deriving DecidableEq, Repr

/-- The bit that a number of full precision has in front of the 52 that are stored. -/
private def leadingBit : Nat := 0x10000000000000

def Binary.ofFloat (x : Float) : Binary :=
  let bits := x.toBits.toNat
  let fraction : Nat := bits % leadingBit
  let scale : Nat := bits / leadingBit % 2048
  if scale = 0 then ⟨fraction, -1074, false⟩
  else ⟨leadingBit + fraction, Int.ofNat scale - 1075, fraction = 0 && 1 < scale⟩

structure Scaled where
  digits : Nat
  exponent : Int
  deriving DecidableEq, Repr

/-- `n * 2 ^ (b.exponent - 2) / 10 ^ e` as a fraction. -/
private def Binary.onGrid (b : Binary) (n : Nat) (e : Int) : Nat × Nat :=
  let shift := b.exponent - 2
  ((n <<< shift.toNat) * Nat.pow 10 (-e).toNat, Nat.pow 10 e.toNat <<< (-shift).toNat)

/-- Whether `k * 10 ^ e` rounds to the number. The ends of the interval round to an even mantissa.
-/
def Binary.contains (b : Binary) (k : Nat) (e : Int) : Bool :=
  let (low, unit) := b.onGrid (4 * b.mantissa - if b.narrow then 1 else 2) e
  let (high, _) := b.onGrid (4 * b.mantissa + 2) e
  if b.mantissa % 2 = 0 then low ≤ k * unit && k * unit ≤ high
  else low < k * unit && k * unit < high

def Binary.gridPoint? (b : Binary) (e : Int) : Option Nat :=
  let (value, unit) := b.onGrid (4 * b.mantissa) e
  let below := value / unit
  match b.contains below e, b.contains (below + 1) e with
  | true, true =>
      let twice := 2 * (value - below * unit)
      if twice < unit || (twice = unit && below % 2 = 0) then some below else some (below + 1)
  | true, false => some below
  | false, true => some (below + 1)
  | false, false => none

def Binary.search (b : Binary) : Nat → Int → Option Scaled
  | 0, _ => none
  | steps + 1, e =>
      match b.gridPoint? e with
      | some k => some ⟨k, e⟩
      | none => b.search steps (e - 1)

/-- The shortest decimal of a positive number. The search starts above the leading digit; eighteen
digits always suffice. -/
def Binary.shortest (b : Binary) : Scaled :=
  let top := (b.exponent + b.mantissa.log2 + 1) * 30103 / 100000 + 1
  (b.search 24 top).getD ⟨0, 0⟩

/-- Decimals whose leading digit has an exponent from `low` to `high` are written positionally, all
others with an exponent of their own. -/
structure Style where
  low : Int
  high : Int
  deriving DecidableEq, Repr

def digitChars (n : Nat) : List Char :=
  Nat.toDigits 10 n

def Style.write (style : Style) (d : Scaled) : List Char :=
  let ds := digitChars d.digits
  let lead := d.exponent + ds.length - 1
  if style.low ≤ lead ∧ lead ≤ style.high then
    if 0 ≤ d.exponent then ds ++ List.replicate d.exponent.toNat '0' ++ ['.', '0']
    else if 0 ≤ lead then ds.take (lead + 1).toNat ++ '.' :: ds.drop (lead + 1).toNat
    else '0' :: '.' :: List.replicate (-lead - 1).toNat '0' ++ ds
  else
    ds.take 1 ++ (if ds.length = 1 then [] else '.' :: ds.drop 1) ++
      'e' :: (if lead < 0 then '-' else '+') :: digitChars lead.natAbs

def Style.writeFloat (style : Style) (x : Float) : List Char :=
  let b := Binary.ofFloat x
  (if x.toBits.toNat / leadingBit / 2048 = 1 then ['-'] else []) ++
    if b.mantissa = 0 then ['0', '.', '0'] else style.write b.shortest

end ChannelAdapter.Decimal
