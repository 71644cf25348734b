import ChannelAdapter.Json.Number
/-!
JSON values and their compact text. Objects keep the order in which they are written; `Json.insert`
builds the ones whose keys are sorted.
-/

namespace ChannelAdapter

inductive Json
  | null
  | bool (b : Bool)
  | number (n : Json.Number)
  | string (s : String)
  | array (elements : List Json)
  | object (fields : List (String × Json))
  deriving Repr

namespace Json

def int (n : Int) : Json := .number (.integer n)

/-- Sets a field in a list of fields that is sorted by key. -/
def insert (key : String) (value : Json) : List (String × Json) → List (String × Json)
  | [] => [(key, value)]
  | (k, v) :: fields =>
      if key < k then (key, value) :: (k, v) :: fields
      else if key = k then (key, value) :: fields
      else (k, v) :: insert key value fields

def find? (key : String) (fields : List (String × Json)) : Option Json :=
  fields.lookup key

private theorem find?_cons (key : String) (field : String × Json) (fields : List (String × Json)) :
    find? key (field :: fields) = if key = field.1 then some field.2 else find? key fields := by
  unfold find?
  rw [List.lookup_cons]
  by_cases h : key = field.1
  · simp [h]
  · rw [beq_eq_false_iff_ne.mpr h, if_neg h]

theorem find?_insert (key other : String) (value : Json) (fields : List (String × Json)) :
    find? other (insert key value fields) =
      if other = key then some value else find? other fields := by
  induction fields with
  | nil => exact find?_cons other (key, value) []
  | cons field fields ih =>
      obtain ⟨k, v⟩ := field
      unfold insert
      split
      · exact find?_cons other (key, value) _
      · split
        · next hk =>
            subst hk
            simp only [find?_cons]
            split <;> rfl
        · next hk =>
            simp only [find?_cons, ih]
            by_cases h : other = k
            · rw [if_pos h, if_neg (h ▸ Ne.symm hk), if_pos h]
            · rw [if_neg h, if_neg h]

def hexDigit (n : Nat) : Char :=
  if n < 10 then Char.ofNat ('0'.toNat + n) else Char.ofNat ('a'.toNat + (n - 10))

/-- A character inside a quoted text: quotes, backslashes and controls are escaped, all else stands
for itself. -/
def escape (c : Char) : List Char :=
  if c = '"' then ['\\', '"']
  else if c = '\\' then ['\\', '\\']
  else if c = '\x08' then ['\\', 'b']
  else if c = '\x0c' then ['\\', 'f']
  else if c = '\n' then ['\\', 'n']
  else if c = '\r' then ['\\', 'r']
  else if c = '\t' then ['\\', 't']
  else if c.toNat < 0x20 then
    ['\\', 'u', '0', '0', hexDigit (c.toNat / 16), hexDigit (c.toNat % 16)]
  else [c]

/-- Appends a quoted text to what has been written, the last character first. -/
def writeString (done : List Char) (s : String) : List Char :=
  '"' :: s.toList.foldl (fun done c => (escape c).reverse ++ done) ('"' :: done)

mutual

def write (done : List Char) : Json → List Char
  | .null => "null".toList.reverse ++ done
  | .bool true => "true".toList.reverse ++ done
  | .bool false => "false".toList.reverse ++ done
  | .number n => n.text.reverse ++ done
  | .string s => writeString done s
  | .array xs => ']' :: writeElements ('[' :: done) true xs
  | .object fields => '\x7d' :: writeFields ('\x7b' :: done) true fields

def writeElements (done : List Char) (first : Bool) : List Json → List Char
  | [] => done
  | x :: xs => writeElements (write (if first then done else ',' :: done) x) false xs

def writeFields (done : List Char) (first : Bool) : List (String × Json) → List Char
  | [] => done
  | (k, v) :: fields =>
      let key := writeString (if first then done else ',' :: done) k
      writeFields (write (':' :: key) v) false fields

end

def text (v : Json) : String :=
  String.ofList (write [] v).reverse

end Json

end ChannelAdapter
