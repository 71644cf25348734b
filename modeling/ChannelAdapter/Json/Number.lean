import ChannelAdapter.Decimal.Shortest
/-!
Numbers of JSON texts. An integer that fits into 64 bits, signed or unsigned, stays an integer; any
other number is a floating point number, and one beyond the range of those is no number at all.
-/

namespace ChannelAdapter

inductive Json.Number
  | integer (n : Int)
  | float (x : Float)
  deriving DecidableEq, Repr

namespace Json

structure Numeral where
  negative : Bool
  whole : List Char
  fraction : List Char
  exponent : Option (Bool × List Char)
  deriving DecidableEq, Repr

def digitValue (c : Char) : Nat :=
  c.toNat - '0'.toNat

def maxMantissa : Nat := 0xFFFFFFFFFFFFFFFF

/-- Appends digits to a mantissa as long as it fits into 64 bits, and returns the digits left over.
-/
def absorb (mantissa : Nat) : List Char → Nat × List Char
  | [] => (mantissa, [])
  | d :: ds =>
      if 10 * mantissa + digitValue d ≤ maxMantissa then absorb (10 * mantissa + digitValue d) ds
      else (mantissa, d :: ds)

/-- The greatest exponent that is read; a greater one is beyond every floating point number. -/
def maxExponent : Nat := 0x7FFFFFFF

/-- `mantissa * 10 ^ exponent`, by one multiplication or division by a power of ten as long as that
power is a floating point number, else in steps. -/
def scale (mantissa : Nat) (exponent : Int) : Option Float :=
  go (exponent.natAbs / 308 + 1) (UInt64.ofNat mantissa).toFloat exponent
where
  go : Nat → Float → Int → Option Float
    | 0, x, _ => some x
    | steps + 1, x, e =>
        if e.natAbs ≤ 308 then
          let power := Float.ofScientific 1 false e.natAbs
          if 0 ≤ e then
            let y := x * power
            if y.isInf then none else some y
          else some (x / power)
        else if x == 0.0 then some x
        else if 0 ≤ e then none
        else go steps (x / 1e308) (e + 308)

/-- The floating point number that is written, if it is in range. Digits that the mantissa has no
room for count as powers of ten before the point and not at all behind it. -/
def Numeral.toFloat? (n : Numeral) : Option Float :=
  let (whole, left) := absorb 0 n.whole
  let (mantissa, unread) := absorb whole n.fraction
  let shift : Int := (left.length : Int) - ((n.fraction.length : Int) - unread.length)
  let magnitude :=
    match n.exponent with
    | none => scale mantissa shift
    | some (negative, ds) =>
        let (e, more) := absorb 0 ds
        if !more.isEmpty || maxExponent < e then
          if mantissa = 0 || negative then some 0.0 else none
        else if negative then scale mantissa (max (shift - e) (-0x80000000))
        else scale mantissa (min (shift + e) maxExponent)
  magnitude.map fun x => if n.negative then -x else x

/-- The number that is written, if it is in range. Minus zero is a floating point number, since no
integer has its sign. -/
def Numeral.number? (n : Numeral) : Option Number :=
  if n.fraction.isEmpty && n.exponent.isNone then
    match absorb 0 n.whole with
    | (value, []) =>
        if !n.negative then some (.integer value)
        else if 0 < value && value ≤ 0x8000000000000000 then some (.integer (-value))
        else n.toFloat?.map .float
    | _ => n.toFloat?.map .float
  else n.toFloat?.map .float

/-- Numbers are written positionally from a hundred-thousandth to below ten to the sixteenth. -/
def Number.style : Decimal.Style := ⟨-5, 15⟩

def Number.text : Number → List Char
  | .integer n => (toString n).toList
  | .float x => style.writeFloat x

end Json

end ChannelAdapter
