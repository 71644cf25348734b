import ChannelAdapter.Adapter.Info
import ChannelAdapter.Calendar
import ChannelAdapter.Context
import ChannelAdapter.Delivery.Request
import ChannelAdapter.Delivery.Result
import ChannelAdapter.Stream.Handler
/-!
Adapters: what a channel provides so that the commands can be carried out.
-/

namespace ChannelAdapter

structure AdapterContext where
  runtime : Option RuntimeContext

namespace AdapterContext

/-- The account of a command: the one that it names, even if that is empty, else that of the runtime
context. -/
def account (c : AdapterContext) (named : Option String) : String :=
  (named <|> c.runtime.map (·.account)).getD ""

def text? (c : AdapterContext) (key : String) : Option String :=
  c.runtime.bind (·.text? key)

def nat? (c : AdapterContext) (key : String) : Option Nat :=
  c.runtime.bind (·.nat? key)

end AdapterContext

structure Stream.Session (m : Type → Type) [Monad m] where
  State : Type
  /-- Makes the state that the handler begins in. -/
  start : m State
  handler : Stream.Handler State m

def Adapter.unsupported {m : Type → Type} [Monad m] {α : Type} (command : String) :
    m (Except ErrorChain α) :=
  pure (.error ⟨.command (.unsupported command), []⟩)

/-- The handlers of an adapter. A command without a handler of its own is not supported. -/
structure Adapter (m : Type → Type) [Monad m] where
  info : AdapterInfo
  monitor : AdapterContext → String → m (Except ErrorChain Unit) :=
    fun _ _ => Adapter.unsupported "monitor"
  send : AdapterContext → SendRequest → m (Except ErrorChain DeliveryResult) :=
    fun _ _ => Adapter.unsupported "send"
  backfill : AdapterContext → String → Calendar.Instant → m (Except ErrorChain Unit) :=
    fun _ _ _ => Adapter.unsupported "backfill"
  health : AdapterContext → String → m (Except ErrorChain AdapterHealth) :=
    fun _ _ => Adapter.unsupported "health"
  accounts : AdapterContext → m (Except ErrorChain (List AdapterAccount)) :=
    fun _ => Adapter.unsupported "accounts"
  stream : AdapterContext → Option (Stream.Session m) := fun _ => none

end ChannelAdapter
