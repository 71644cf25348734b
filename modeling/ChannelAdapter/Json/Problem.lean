import ChannelAdapter.Json.Node
import ChannelAdapter.Text.Quoted
/-!
What can be wrong with a JSON text that is to be read as a record, and how messages say it.
-/

namespace ChannelAdapter.Json

inductive Found
  | null
  | bool (b : Bool)
  | number (n : Number)
  | string (s : String)
  | sequence
  | map

def Found.message : Found → String
  | .null => "null"
  | .bool b => s!"boolean `{b}`"
  | .number (.integer n) => s!"integer `{n}`"
  | .number (.float x) => "floating point `" ++ String.ofList (Number.float x).text ++ "`"
  | .string s => "string " ++ Text.quoted s
  | .sequence => "sequence"
  | .map => "map"

inductive Problem
  | wrongType (found : Found) (expected : String)
  | outOfRange (n : Int) (expected : String)
  | missing (field : String)
  | duplicate (field : String)
  | unknownName (name : String) (known : List String)
  | tooFew (found : Nat) (expected : String)
  | tooMany (found wanted : Nat)
  | tooManyInside (found wanted : Nat)
  | noValue
  | unusable

def elementCount (n : Nat) : String :=
  if n = 1 then "1 element" else s!"{n} elements"

namespace Problem

def listNames : List String → String
  | [] => "there are no variants"
  | [a] => s!"expected `{a}`"
  | [a, b] => s!"expected `{a}` or `{b}`"
  | names => "expected one of " ++ ", ".intercalate (names.map fun name => s!"`{name}`")

def message : Problem → String
  | wrongType found expected => "invalid type: " ++ found.message ++ ", expected " ++ expected
  | outOfRange n expected => s!"invalid value: integer `{n}`, expected {expected}"
  | missing field => s!"missing field `{field}`"
  | duplicate field => s!"duplicate field `{field}`"
  | unknownName name known => s!"unknown variant `{name}`, " ++ listNames known
  | tooFew found expected => s!"invalid length {found}, expected {expected}"
  | tooMany _ _ => "trailing characters"
  | tooManyInside found wanted =>
      s!"invalid length {found}, expected " ++ elementCount wanted ++ " in sequence"
  | noValue => "expected value"
  | unusable => "unusable value"

def inside : Problem → Problem
  | tooMany found wanted => tooManyInside found wanted
  | p => p

def ofNode (expected : String) : Node → Problem
  | .null => wrongType .null expected
  | .bool b => wrongType (.bool b) expected
  | .number n => wrongType (.number n) expected
  | .string s => wrongType (.string s) expected
  | .array _ => wrongType .sequence expected
  | .object _ => wrongType .map expected
  | .unusable => unusable

end Problem

inductive ReadError
  /-- The text is no JSON text, or something unusable stands in it. -/
  | malformed
  | problem (p : Problem)
  /-- A reason that is known by its message alone. -/
  | said (message : String)

def ReadError.message : ReadError → String
  | malformed => "malformed text"
  | problem p => p.message
  | said message => message

end ChannelAdapter.Json
