import ChannelAdapter.Json.Token
import ChannelAdapter.Json.Value
/-!
JSON texts as they are written: objects keep the order of their fields and the keys that are
repeated. What the grammar admits and no value stands for is `unusable`: numbers out of range,
strings with half a surrogate pair, containers nested too deep. It does harm only where someone
looks at it.
-/

namespace ChannelAdapter.Json

inductive Node
  | null
  | bool (b : Bool)
  | number (n : Number)
  | string (s : String)
  | array (elements : List Node)
  | object (fields : List (String × Node))
  | unusable
  deriving Repr

def maxDepth : Nat := 127

/-- A container that is being read: what it holds so far, the last first. -/
inductive Frame
  | array (depth : Nat) (elements : List Node)
  /-- `usable` is false once a key was unusable. -/
  | object (depth : Nat) (usable : Bool) (fields : List (String × Node))
  /-- An object that has a key waiting for its value. -/
  | member (depth : Nat) (usable : Bool) (fields : List (String × Node)) (key : String)

def Frame.depth : Frame → Nat
  | .array d _ | .object d _ _ | .member d _ _ _ => d

def innerDepth : List Frame → Nat
  | [] => 1
  | f :: _ => f.depth + 1

inductive Reading
  | value (stack : List Frame)
  /-- A value, or the end of the array on top. -/
  | element (stack : List Frame)
  /-- A key, or the end of the object on top. -/
  | member (stack : List Frame)
  | key (stack : List Frame)
  | colon (stack : List Frame)
  /-- A comma, or the end of the container on top. -/
  | separator (stack : List Frame)
  | done (node : Node)

/-- A container is usable only up to the greatest depth. -/
def close (depth : Nat) (node : Node) : Node :=
  if depth ≤ maxDepth then node else .unusable

def place (node : Node) : List Frame → Reading
  | [] => .done node
  | .array d xs :: stack => .separator (.array d (node :: xs) :: stack)
  | .member d usable fields key :: stack =>
      .separator (.object d usable ((key, node) :: fields) :: stack)
  | .object d usable fields :: stack => .separator (.object d usable fields :: stack)

def Reading.onValue (stack : List Frame) : Token → Option Reading
  | .null => some (place .null stack)
  | .bool b => some (place (.bool b) stack)
  | .number n => some (place (n.elim .unusable .number) stack)
  | .string s => some (place (s.elim .unusable .string) stack)
  | .openArray => some (.element (.array (innerDepth stack) [] :: stack))
  | .openObject => some (.member (.object (innerDepth stack) true [] :: stack))
  | _ => none

def Reading.onKey : List Frame → Token → Option Reading
  | .object d usable fields :: stack, .string (some name) =>
      some (.colon (.member d usable fields name :: stack))
  | .object d _ fields :: stack, .string none => some (.colon (.member d false fields "" :: stack))
  | _, _ => none

def Reading.onClose : List Frame → Token → Option Reading
  | .array d xs :: stack, .closeArray => some (place (close d (.array xs.reverse)) stack)
  | .object d usable fields :: stack, .closeObject =>
      some (place (if usable then close d (.object fields.reverse) else .unusable) stack)
  | _, _ => none

def Reading.step : Reading → Token → Option Reading
  | .value stack, t => onValue stack t
  | .element stack, .closeArray => onClose stack .closeArray
  | .element stack, t => onValue stack t
  | .member stack, .closeObject => onClose stack .closeObject
  | .member stack, t => onKey stack t
  | .key stack, t => onKey stack t
  | .colon stack, .colon => some (.value stack)
  | .separator (.array d xs :: stack), .comma => some (.value (.array d xs :: stack))
  | .separator (.object d usable fields :: stack), .comma =>
      some (.key (.object d usable fields :: stack))
  | .separator stack, t => onClose stack t
  | _, _ => none

def Reading.run (r : Reading) : List Token → Option Node
  | [] =>
      match r with
      | .done node => some node
      | _ => none
  | t :: ts =>
      match r.step t with
      | some r => run r ts
      | none => none

namespace Node

def parse? (cs : List Char) : Option Node := do
  Reading.run (.value []) (← tokens? cs)

mutual

/-- The value of a node: keys sorted, the last of repeated ones kept. A node has none if something
unusable stands in it. -/
def value? : Node → Option Json
  | .null => some .null
  | .bool b => some (.bool b)
  | .number n => some (.number n)
  | .string s => some (.string s)
  | .array xs => (values? [] xs).map .array
  | .object fields => (fieldValues? [] fields).map .object
  | .unusable => none

def values? (done : List Json) : List Node → Option (List Json)
  | [] => some done.reverse
  | x :: xs =>
      match x.value? with
      | some v => values? (v :: done) xs
      | none => none

def fieldValues? (done : List (String × Json)) :
    List (String × Node) → Option (List (String × Json))
  | [] => some done
  | (k, x) :: fields =>
      match x.value? with
      | some v => fieldValues? (Json.insert k v done) fields
      | none => none

end

def isUsable (n : Node) : Bool :=
  n.value?.isSome

mutual

def ofValue : Json → Node
  | .null => .null
  | .bool b => .bool b
  | .number n => .number n
  | .string s => .string s
  | .array xs => .array (ofValues [] xs)
  | .object fields => .object (ofFields [] fields)

def ofValues (done : List Node) : List Json → List Node
  | [] => done.reverse
  | x :: xs => ofValues (ofValue x :: done) xs

def ofFields (done : List (String × Node)) : List (String × Json) → List (String × Node)
  | [] => done.reverse
  | (k, x) :: fields => ofFields ((k, ofValue x) :: done) fields

end

end Node

def ofBytes? (bytes : List UInt8) : Option Json := do
  let text ← String.fromUTF8? ⟨bytes.toArray⟩
  let node ← Node.parse? text.toList
  node.value?

end ChannelAdapter.Json
