import ChannelAdapter.Json.Problem
/-!
Codecs: how values of a type are written as JSON, and read from it.
-/

namespace ChannelAdapter.Json

structure Codec (α : Type) where
  encode : α → Json
  decode : Node → Except Problem α

namespace Codec

/-- Reads a text. A problem counts only in a text without anything unusable. -/
def read {α : Type} (c : Codec α) (text : String) : Except ReadError α :=
  match Node.parse? text.toList with
  | none => .error .malformed
  | some n =>
      match c.decode n with
      | .ok a => .ok a
      | .error p => .error (if n.isUsable then .problem p else .malformed)

def write {α : Type} (c : Codec α) (a : α) : String :=
  (c.encode a).text

def string : Codec String where
  encode := .string
  decode
    | .string s => .ok s
    | n => .error (.ofNode "a string" n)

def bool : Codec Bool where
  encode := .bool
  decode
    | .bool b => .ok b
    | n => .error (.ofNode "a boolean" n)

def integer (expected : String) (lo hi : Int) : Codec Int where
  encode := .int
  decode
    | .number (.integer n) => if lo ≤ n ∧ n ≤ hi then .ok n else .error (.outOfRange n expected)
    | n => .error (.ofNode expected n)

def i64 : Codec Int :=
  integer "i64" (-0x8000000000000000) 0x7FFFFFFFFFFFFFFF

def natural (expected : String) (hi : Nat) : Codec Nat where
  encode n := .int n
  decode n := ((integer expected 0 hi).decode n).map Int.toNat

def u32 : Codec Nat := natural "u32" 0xFFFFFFFF

def u64 : Codec Nat := natural "u64" 0xFFFFFFFFFFFFFFFF

def usize : Codec Nat := natural "usize" 0xFFFFFFFFFFFFFFFF

def decodeAll {α : Type} (decode : Node → Except Problem α) (done : List α) :
    List Node → Except Problem (List α)
  | [] => .ok done.reverse
  | n :: ns =>
      match decode n with
      | .ok a => decodeAll decode (a :: done) ns
      | .error p => .error p

def list {α : Type} (c : Codec α) : Codec (List α) where
  encode xs := .array (xs.map c.encode)
  decode
    | .array ns => decodeAll c.decode [] ns
    | n => .error (.ofNode "a sequence" n)

/-- Free-form maps, with sorted keys. -/
def map : Codec (List (String × Json)) where
  encode := .object
  decode
    | .object fields =>
        match Node.fieldValues? [] fields with
        | some fields => .ok fields
        | none => .error .unusable
    | n => .error (.ofNode "a map" n)

def option {α : Type} (c : Codec α) : Codec (Option α) where
  encode
    | none => .null
    | some a => c.encode a
  decode
    | .null => .ok none
    | n => (c.decode n).map some

/-- Names from a fixed list. A name may also stand as the only key of an object, whose value is
null. -/
def names {α : Type} (all : List α) (name : α → String) : Codec α where
  encode a := .string (name a)
  decode
    | .string s => ofName s
    | .object [(key, value)] => do
        let a ← ofName key
        match value with
        | .null => .ok a
        | n => .error (.ofNode "unit" n)
    | .object ((key, value) :: _ :: _) => do
        let _ ← ofName key
        match value with
        | .null => .error .noValue
        | n => .error (.ofNode "unit" n)
    | _ => .error .noValue
where
  ofName (s : String) : Except Problem α :=
    match all.find? (name · == s) with
    | some a => .ok a
    | none => .error (.unknownName s (all.map name))

end Codec

end ChannelAdapter.Json
