import ChannelAdapter.Calendar
/-!
Commands that an adapter is invoked with.
-/

namespace ChannelAdapter

inductive Command.Format
  /-- One JSON text on each line. -/
  | lines
  deriving DecidableEq, Repr

inductive Command.AccountsAction
  | list
  deriving DecidableEq, Repr

structure Command.Message where
  account : Option String
  recipient : String
  text : String
  media : Option String
  caption : Option String
  replyTo : Option String
  thread : Option String
  deriving DecidableEq, Repr

inductive Command
  | info
  | monitor (account : Option String) (format : Command.Format)
  | send (message : Command.Message)
  | backfill (account : Option String) (since : Calendar.Instant) (format : Command.Format)
  | health (account : Option String)
  | accounts (action : Option Command.AccountsAction)
  | stream (account : Option String) (format : Command.Format)
  deriving DecidableEq, Repr

namespace Command

def name : Command → String
  | info => "info"
  | monitor .. => "monitor"
  | send _ => "send"
  | backfill .. => "backfill"
  | health _ => "health"
  | accounts _ => "accounts"
  | stream .. => "stream"

end Command

end ChannelAdapter
