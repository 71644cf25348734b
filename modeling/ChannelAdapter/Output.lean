import ChannelAdapter.Error
import ChannelAdapter.Event
import ChannelAdapter.Json.Record
/-!
Output: records written one to a line, and the emission of events with a count of those written.
-/

namespace ChannelAdapter

class MonadOutput (m : Type → Type) where
  put : String → m (Except String Unit)

namespace Json

/-- The text that a value gives as a key. Only simple values can be keys. -/
def key? : Json → Option String
  | .string s => some s
  | .bool b => some (toString b)
  | .number n => some (String.ofList n.text)
  | _ => none

def ofEntries : List (Json × Json) → Except String Json
  | [] => .ok (.object [])
  | (k, v) :: entries =>
      match k.key?, ofEntries entries with
      | some key, .ok (.object fields) => .ok (.object ((key, v) :: fields))
      | some _, result => result
      | none, _ => .error "key must be a string"

end Json

namespace Output

variable {m : Type → Type} [Monad m] [MonadOutput m]

def line (v : Json) : String :=
  v.text ++ "\n"

/-- Writes a value, if it has been made. Otherwise nothing is written. -/
def writeMade (v : Except String Json) : m (Except Error Unit) := do
  match v with
  | .error reason => return .error (.json reason)
  | .ok v => return (← MonadOutput.put (line v)).mapError .io

def write {α : Type} (c : Json.Codec α) (a : α) : m (Except Error Unit) :=
  writeMade (.ok (c.encode a))

end Output

structure Emitter where
  emitted : Nat
  deriving DecidableEq, Repr

namespace Emitter

variable {m : Type → Type} [Monad m] [MonadOutput m]

def start : Emitter := ⟨0⟩

def emit (e : Event) : StateT Emitter m (Except Error Unit) := do
  match ← (Output.write Event.record.codec e : m _) with
  | .ok () => do
      modify fun s => ⟨s.emitted + 1⟩
      return .ok ()
  | .error e => return .error e

def describe (s : Emitter) : String :=
  s!"EventEmitter \x7b emitted: {s.emitted}, .. \x7d"

end Emitter

end ChannelAdapter
