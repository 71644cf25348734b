import ChannelAdapter.Error
import ChannelAdapter.Event.Edit
import ChannelAdapter.Files
import ChannelAdapter.Text.Blank
import ChannelAdapter.Text.Line
/-!
The inbox of the loopback channel: a file in which each line is a message. Lines are numbered from
one, and the number of lines that have been read is the cursor.
-/

namespace ChannelAdapter.Loopback

def channel : String := "loopback"

def maxTimestamp : Int := 0x7FFFFFFFFFFFFFFF

namespace Inbox

def lines (content : String) : List (List Char) :=
  (Text.lines content.toList).map Text.chompLine

/-- The event of a line. Lines are stamped in their order, beginning after the last change of the
file. -/
def event (account : String) (modified : Int) (n : Nat) (line : List Char) : Event :=
  .build channel s!"{channel}:inbox:{n}" [
    .timestamp (min (modified + n) maxTimestamp),
    .content (String.ofList line),
    .sender "inbox" (some "Inbox"),
    .container "inbox" "direct",
    .account account,
    .metadata "line" (.int n)]

/-- The events of the lines after the first `cursor` ones, where `n` lines have gone before. Blank
lines are counted but are no messages. -/
def eventsFrom (account : String) (modified : Int) (cursor n : Nat) : List (List Char) → List Event
  | [] => []
  | line :: lines =>
      let rest := eventsFrom account modified cursor (n + 1) lines
      if n + 1 ≤ cursor || line.all Text.isBlank then rest
      else event account modified (n + 1) line :: rest

def events (account : String) (modified : Int) (cursor : Nat) (content : String) : List Event :=
  eventsFrom account modified cursor 0 (lines content)

variable {m : Type → Type} [Monad m] [MonadFiles m]

def read (path account : String) (cursor : Nat) : m (Except ErrorChain (List Event × Nat)) := do
  match ← readText path with
  | .error e => return .error ((ErrorChain.ofText e.message).wrap s!"read inbox {path}")
  | .ok content => do
      let modified ← MonadFiles.modified path
      return .ok (events account modified cursor content, (lines content).length)

end Inbox

end ChannelAdapter.Loopback
