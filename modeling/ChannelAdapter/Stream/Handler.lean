import ChannelAdapter.Error
import ChannelAdapter.Output
import ChannelAdapter.Stream.Event
import ChannelAdapter.Stream.Status
/-!
Handlers of stream events. A handler has a state of its own and a callback for each kind of event; a
kind that it does not care about is ignored.
-/

namespace ChannelAdapter.Stream

variable {σ : Type} {m : Type → Type}

structure Handler (σ : Type) (m : Type → Type) [Monad m] where
  onStart : Start → StateT σ m (Except ErrorChain Unit) := fun _ => pure (.ok ())
  onToken : Delta → StateT σ m (Except ErrorChain Unit) := fun _ => pure (.ok ())
  onTool : Tool → StateT σ m (Except ErrorChain Unit) := fun _ => pure (.ok ())
  onReasoning : Delta → StateT σ m (Except ErrorChain Unit) := fun _ => pure (.ok ())
  onFinish : Finish → StateT σ m (Except ErrorChain Unit) := fun _ => pure (.ok ())
  onFailure : Failure → StateT σ m (Except ErrorChain Unit) := fun _ => pure (.ok ())

variable [Monad m]

def Handler.on (h : Handler σ m) : Event → StateT σ m (Except ErrorChain Unit)
  | .start p => h.onStart p
  | .token p => h.onToken p
  | .tool p => h.onTool p
  | .reasoning p => h.onReasoning p
  | .finish p => h.onFinish p
  | .failure p => h.onFailure p

def Status.emit [MonadOutput m] (s : Status) : m (Except Error Unit) :=
  Output.write Status.union.codec s

def describe (cancelled : Bool) : String :=
  s!"StreamContext \x7b cancelled: {cancelled}, .. \x7d"

end ChannelAdapter.Stream
