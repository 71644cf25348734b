import ChannelAdapter.Json.Codec
/-!
Records: JSON objects with known fields. A record is described once, by the list of its fields;
reading and writing follow from the description. Reading goes through the fields as they are given
and ignores unknown ones; a record may also be given as the array of its fields in order.
-/

namespace ChannelAdapter.Json

structure Field (R : Type) where
  name : String
  encode : R → Option Json
  decode : Node → R → Except Problem R
  isRequired : Bool

namespace Field

def required {R α : Type} (name : String) (c : Codec α) (get : R → α) (set : α → R → R) :
    Field R where
  name
  encode r := some (c.encode (get r))
  decode n r := (c.decode n).map (set · r)
  isRequired := true

/-- A field that keeps its initial value if it is not given. -/
def defaulted {R α : Type} (name : String) (c : Codec α) (get : R → α) (set : α → R → R) :
    Field R where
  name
  encode r := some (c.encode (get r))
  decode n r := (c.decode n).map (set · r)
  isRequired := false

/-- A field that is neither given nor written while a condition holds of its value. -/
def omitted {R α : Type} (name : String) (c : Codec α) (omits : α → Bool) (get : R → α)
    (set : α → R → R) : Field R where
  name
  encode r := if omits (get r) then none else some (c.encode (get r))
  decode n r := (c.decode n).map (set · r)
  isRequired := false

def optional {R α : Type} (name : String) (c : Codec α) (get : R → Option α)
    (set : Option α → R → R) : Field R :=
  omitted name c.option Option.isNone get set

end Field

/-- A record with fields in the order in which they are written. -/
structure Record (R : Type) where
  name : String
  /-- The record in which no field has been given. -/
  blank : R
  fields : List (Field R)

namespace Record

variable {R : Type}

def encodeFields (r : Record R) (a : R) : List (String × Json) :=
  r.fields.filterMap fun f => (f.encode a).map (f.name, ·)

/-- Reads fields into a record, `seen` being the names of those before. -/
def decodeFields (r : Record R) (seen : List String) (a : R) :
    List (String × Node) → Except Problem R
  | [] =>
      match r.fields.find? fun f => f.isRequired && !seen.contains f.name with
      | some f => .error (.missing f.name)
      | none => .ok a
  | (key, n) :: rest =>
      match r.fields.find? (·.name == key) with
      | none => decodeFields r seen a rest
      | some f =>
          if seen.contains key then .error (.duplicate key)
          else
            match f.decode n a with
            | .ok a => decodeFields r (key :: seen) a rest
            | .error p => .error p

/-- Reads the elements of an array into a record, `seen` being the number of those before. -/
def decodeElements (r : Record R) (seen : Nat) (a : R) :
    List (Field R) → List Node → Except Problem R
  | [], [] => .ok a
  | [], ns => .error (.tooMany (seen + ns.length) r.fields.length)
  | f :: fs, [] =>
      if f.isRequired then
        .error (.tooFew seen (r.name ++ " with " ++ elementCount r.fields.length))
      else decodeElements r (seen + 1) a fs []
  | f :: fs, n :: ns =>
      match f.decode n a with
      | .ok a => decodeElements r (seen + 1) a fs ns
      | .error p => .error p

def decode (r : Record R) : Node → Except Problem R
  | .object fields => r.decodeFields [] r.blank fields
  | .array ns => r.decodeElements 0 r.blank r.fields ns
  | n => .error (.ofNode r.name n)

def codec (r : Record R) : Codec R where
  encode a := .object (r.encodeFields a)
  decode := r.decode

end Record

/-- One kind of the values of a union, with the record that describes it. -/
structure Case (α : Type) where
  name : String
  encode : α → Option (List (String × Json))
  decode : Node → Except Problem α

def Case.of {α β : Type} (name : String) (r : Record β) (make : β → α) (view : α → Option β) :
    Case α where
  name
  encode a := (view a).map r.encodeFields
  decode n := (r.decode n).map make

/-- A union of records, told apart by the field `type`. -/
structure Union (α : Type) where
  name : String
  cases : List (Case α)

namespace Union

variable {α : Type}

def tag : String := "type"

def encode (u : Union α) (a : α) : Json :=
  .object <| (u.cases.findSome? fun c => (c.encode a).map fun fields =>
    (tag, Json.string c.name) :: fields).getD []

def case (u : Union α) : Node → Except Problem (Case α)
  | .string s =>
      match u.cases.find? (·.name == s) with
      | some c => .ok c
      | none => .error (.unknownName s (u.cases.map (·.name)))
  | n => .error (.ofNode "variant identifier" n)

def taggedCase (u : Union α) (found : Option (Case α)) :
    List (String × Node) → Except Problem (Case α)
  | [] =>
      match found with
      | some c => .ok c
      | none => .error (.missing tag)
  | (key, n) :: rest =>
      if key == tag then
        match found with
        | some _ => .error (.duplicate tag)
        | none =>
            match u.case n with
            | .ok c => taggedCase u (some c) rest
            | .error p => .error p
      else taggedCase u found rest

/-- Reads a value. The kind of one that is given as an array is its first element. -/
def decode (u : Union α) (n : Node) : Except Problem α :=
  if !n.isUsable then .error .unusable
  else
    match n with
    | .object fields =>
        match u.taggedCase none fields with
        | .ok c => (c.decode (.object (fields.filter (·.1 != tag)))).mapError Problem.inside
        | .error p => .error p
    | .array [] => .error (.missing tag)
    | .array (n :: ns) =>
        match u.case n with
        | .ok c => (c.decode (.array ns)).mapError Problem.inside
        | .error p => .error p
    | n => .error (.ofNode u.name n)

def codec (u : Union α) : Codec α where
  encode := u.encode
  decode := u.decode

end Union

end ChannelAdapter.Json
