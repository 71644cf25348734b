import ChannelAdapter.Clock
import ChannelAdapter.Input
import ChannelAdapter.Stream.Handler
/-!
Dispatch: the lines of an input are read as stream events and handed to a handler. Lines that are
not events are skipped, and an error of the handler is reported as a status; neither ends a stream.
-/

namespace ChannelAdapter.Stream

/-- Reads a line. A line whose type is not that of an event holds none. -/
def Event.readLine (bytes : List UInt8) : Except Json.ReadError (Option Event) :=
  match Json.ofBytes? bytes with
  | none => .error .malformed
  | some (.object fields) =>
      match Json.find? Json.Union.tag fields with
      | some (.string type) =>
          match Kind.ofName? type with
          | none => .ok none
          | some _ =>
              match union.decode (.ofValue (.object fields)) with
              | .ok e => .ok (some e)
              | .error p => .error (.problem p)
      | _ => .ok none
  | some _ => .ok none

def Event.ofLine? (bytes : List UInt8) : Option Event :=
  (readLine bytes).toOption.join

def isSpace (b : UInt8) : Bool :=
  b == 32 || b == 9 || b == 10 || b == 12 || b == 13

structure Report where
  /-- Lines that are not blank. -/
  lines : Nat
  dispatched : Nat
  /-- Lines that are too long or hold no event. -/
  skipped : Nat
  handlerErrors : Nat
  deriving DecidableEq, Repr

namespace Report

def empty : Report := ⟨0, 0, 0, 0⟩

def skip (r : Report) : Report :=
  { r with lines := r.lines + 1, skipped := r.skipped + 1 }

def dispatch (r : Report) : Report :=
  { r with lines := r.lines + 1, dispatched := r.dispatched + 1 }

def fail (r : Report) : Report :=
  { r with handlerErrors := r.handlerErrors + 1 }

end Report

variable {σ : Type} {m : Type → Type} [Monad m] [MonadClock m] [MonadOutput m]

/-- Hands an event to the handler. If the handler fails, its error is written as a status; that
this may fail as well does not matter. -/
def handle (h : Handler σ m) (e : Event) (r : Report) (s : σ) : m (Report × σ) := do
  match ← (h.on e).run s with
  | (.ok (), s) => return (r.dispatch, s)
  | (.error chain, s) => do
      let _ ← (Status.fault ⟨chain.message⟩).emit
      return (r.dispatch.fail, s)

def takeLine (h : Handler σ m) (r : Report) (s : σ) : Input.Line → m (Report × σ)
  | .overlong => return (r.skip, s)
  | .text bytes =>
      if bytes.all isSpace then return (r, s)
      else
        match Event.ofLine? bytes with
        | none => return (r.skip, s)
        | some e => handle h e r s

def takeLines (h : Handler σ m) (r : Report) (s : σ) : List Input.Line → m (Report × σ)
  | [] => return (r, s)
  | line :: lines => do
      if ← MonadClock.isCancelled then return (r, s)
      else
        let (r, s) ← takeLine h r s line
        takeLines h r s lines

structure Progress (σ : Type) where
  /-- The line that has not ended yet. -/
  reader : Input.Reader
  report : Report
  state : σ

def takePiece (h : Handler σ m) (p : Progress σ) (piece : List UInt8) : m (Progress σ) := do
  let (reader, done) := p.reader.feed Input.maxLine [] piece
  let (report, state) ← takeLines h p.report p.state done.reverse
  return ⟨reader, report, state⟩

/-- Takes the end of the input, where a last line may stand. After a cancellation it does not
matter how the input ends, and nothing else ends an input that stays silent. -/
def finish (h : Handler σ m) (p : Progress σ) (ending : Input.Ending) :
    m (Except Error Report) := do
  if ← MonadClock.isCancelled then return .ok p.report
  else
    match ending with
    | .failed reason => return .error (.streamUnreadable reason)
    | .silent => return .ok p.report
    | .closed =>
        let (report, _) ← takeLines h p.report p.state (p.reader.last Input.maxLine).toList
        return .ok report

def dispatchFrom (source : Input.Source m) (h : Handler σ m) (s : σ) : m (Except Error Report) := do
  let (p, ending) ← source (takePiece h) ⟨.start, .empty, s⟩
  finish h p ending

def dispatch (h : Handler σ m) (s : σ) (i : Input) : m (Except Error Report) :=
  dispatchFrom i.source h s

end ChannelAdapter.Stream
