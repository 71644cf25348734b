import ChannelAdapter.Chunk.Strategy
import ChannelAdapter.Delivery.Result
import ChannelAdapter.Error
import ChannelAdapter.Task
/-!
Deliveries: a text is cut into chunks, and the chunks are sent in order up to the first failure.
-/

namespace ChannelAdapter.Delivery

variable {m : Type → Type} [Monad m]

/-- Sends chunks, `ids` being the ids of those before, the last one first. -/
def sendAll (send : String → m (Except ErrorChain String)) (ids : List String) :
    List String → m DeliveryResult
  | [] => return .delivered ids.reverse
  | chunk :: chunks => do
      match ← send chunk with
      | .ok id => sendAll send (id :: ids) chunks
      | .error e => return .failed ids.reverse (.network e.message)

/-- Delivers a text that `cut` cuts into chunks. A text without chunks is rejected and nothing is
sent. -/
def deliverBy (cut : String → Nat → List String) (text : String) (limit : Nat)
    (send : String → m (Except ErrorChain String)) : m DeliveryResult := do
  let result ←
    match cut text limit with
    | [] => pure (.failed [] (.contentRejected "empty message"))
    | chunks => sendAll send [] chunks
  return result.withTotal text.utf8ByteSize

def deliver (s : Chunk.Strategy) (text : String) (limit : Nat)
    (send : String → m (Except ErrorChain String)) : m DeliveryResult :=
  deliverBy s.chunk text limit send

def deliverDefault (text : String) (limit : Nat)
    (send : String → m (Except ErrorChain String)) : m DeliveryResult :=
  deliver .default text limit send

/-- Delivers for a sender that may have to wait. -/
def deliverLater {ω : Type} (text : String) (limit : Nat)
    (send : String → Task ω (Except ErrorChain String)) : Task ω DeliveryResult :=
  deliver .default text limit send

end ChannelAdapter.Delivery
