import ChannelAdapter.Loopback.Inbox
import ChannelAdapter.Stream.Handler
/-!
Replies on the loopback channel: the text of a reply is shown by a message that grows, and where it
would grow beyond the limit the next message begins.
-/

namespace ChannelAdapter.Loopback

/-- The number of the last message. -/
structure Ids where
  last : Nat
  deriving DecidableEq, Repr

def freshId {m : Type → Type} [Monad m] [MonadStateOf Ids m] : m String := do
  let n := (← getThe Ids).last + 1
  set (⟨n⟩ : Ids)
  return s!"{channel}:{n}"

structure Reply where
  current : Option String
  /-- The bytes of its text. -/
  size : Nat
  /-- The messages that have been finished, the last one first. -/
  sent : List String
  deriving DecidableEq, Repr

namespace Reply

def start : Reply := ⟨none, 0, []⟩

variable {m : Type → Type} [Monad m] [MonadOutput m] [MonadStateOf Ids m]

/-- A step of a reply, which fails when a status cannot be written. -/
abbrev Step (m : Type → Type) (α : Type) := ExceptT ErrorChain (StateT Reply m) α

def tell (s : Stream.Status) : Step m Unit := do
  match ← (s.emit : m _) with
  | .ok () => return ()
  | .error e => throw (.ofError e)

def openMessage : Step m String := do
  let id ← (freshId : m _)
  tell (.created ⟨id⟩)
  modify fun r => { r with current := some id, size := 0 }
  return id

def closeMessage (final : Bool) : Step m Unit := do
  match (← get).current with
  | none => return ()
  | some id => do
      modify fun r => { r with current := none }
      tell (.sent ⟨id, final⟩)
      modify fun r => { r with sent := id :: r.sent }

/-- Whether a text has to go into a new message. A limit of zero means no limit. -/
def overflows (limit : Nat) (r : Reply) (text : String) : Bool :=
  0 < limit && 0 < r.size && limit < r.size + text.utf8ByteSize

def onStart : Step m Unit := do
  modify fun r => { r with sent := [] }
  let _ ← openMessage

def onToken (limit : Nat) (text : String) : Step m Unit := do
  if (← get).overflows limit text then closeMessage false
  let id ←
    match (← get).current with
    | some id => pure id
    | none => openMessage
  modify fun r => { r with size := r.size + text.utf8ByteSize }
  tell (.updated ⟨id, (← get).size⟩)

def onFinish (final : Bool) : Step m Unit := do
  closeMessage final
  if final then
    let sent := (← get).sent.reverse
    modify fun r => { r with sent := [] }
    tell (.complete ⟨sent⟩)

def onFailure (error : String) : Step m Unit := do
  closeMessage true
  tell (.fault ⟨error⟩)

def handler (limit : Nat) : Stream.Handler Reply m where
  onStart _ := onStart.run
  onToken p := (onToken limit p.text).run
  onFinish p := (onFinish p.final).run
  onFailure p := (onFailure p.error).run

end Reply

end ChannelAdapter.Loopback
