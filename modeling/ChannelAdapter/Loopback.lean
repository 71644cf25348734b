import ChannelAdapter.Adapter
import ChannelAdapter.Delivery
import ChannelAdapter.Loopback.Reply
import ChannelAdapter.Monitor
/-!
The loopback channel: an adapter without a platform. Messages come from an inbox, a file with one
message to a line, and go to an outbox, a file with one record to a line.
-/

namespace ChannelAdapter.Loopback

def version : String := "0.1.0"

def info : AdapterInfo where
  channel
  name := "Loopback"
  version
  supports := [.monitor, .send, .stream, .backfill, .health, .accounts]
  credentialService := none
  multiAccount := false
  capabilities :=
    { ChannelCapabilities.none with
      textLimit := Chunk.defaultLimit
      markdown := true
      markdownFlavor := some "standard"
      codeBlocks := true
      edit := true
      streamingEdit := true }

def textLimit (ctx : AdapterContext) : Nat :=
  (ctx.nat? "text_limit").getD Chunk.defaultLimit

def inbox (ctx : AdapterContext) : Except ErrorChain String :=
  match ctx.text? "inbox" with
  | some path => .ok path
  | none => .error (.ofText "no inbox configured (runtime config `inbox`)")

def pollConfig (ctx : AdapterContext) : Monitor.Config where
  interval := (ctx.nat? "poll_interval_ms").getD 1000
  backoff := none
  retry := .ofMaxErrors (((ctx.nat? "max_errors").filter (· ≤ 0xFFFFFFFF)).getD 0)

def strategy (ctx : AdapterContext) : Except ErrorChain Chunk.Strategy :=
  let name := (ctx.text? "chunker").getD Chunk.Strategy.fenced.name
  match Chunk.Strategy.ofName? name with
  | some s => .ok s
  | none => .error (.ofError (.unknownStrategy name))

def outboxLine (id recipient chunk : String) : String :=
  Output.line (.object [("id", .string id), ("text", .string chunk), ("to", .string recipient)])

variable {m : Type → Type} [Monad m] [MonadFiles m]

section
variable [MonadStateOf Ids m]

/-- Sends a chunk, which has got its id even if the outbox cannot be written to. -/
def sendChunk (outbox : Option String) (recipient chunk : String) :
    m (Except ErrorChain String) := do
  let id ← freshId
  match outbox with
  | none => return .ok id
  | some path =>
      match ← MonadFiles.append path (outboxLine id recipient chunk).toUTF8 with
      | .ok () => return .ok id
      | .error e => return .error ((ErrorChain.ofText e.message).wrap "append to outbox")

def openOutbox : Option String → m (Except ErrorChain Unit)
  | none => return .ok ()
  | some path => do
      match ← MonadFiles.append path .empty with
      | .ok () => return .ok ()
      | .error e => return .error ((ErrorChain.ofText e.message).wrap s!"open outbox {path}")

def send (ctx : AdapterContext) (r : SendRequest) : m (Except ErrorChain DeliveryResult) := do
  match strategy ctx with
  | .error chain => return .error chain
  | .ok s =>
      let outbox := ctx.text? "outbox"
      match ← openOutbox outbox with
      | .error chain => return .error chain
      | .ok () =>
          return .ok (← Delivery.deliver s r.text (textLimit ctx) (sendChunk outbox r.recipient))

end

section
variable [MonadOutput m]

def emit (e : Event) : m (Except Error Unit) :=
  Output.write Event.record.codec e

/-- Polls are counted in 64 bits. -/
def maxPolls : Nat := 0x10000000000000000

def fetch (path account : String) (cursor : Nat) :
    m (Except ErrorChain (Monitor.Batch Nat Event)) := do
  return (← Inbox.read path account cursor).map fun (events, lines) => ⟨events, some lines⟩

def monitor [MonadClock m] (ctx : AdapterContext) (account : String) :
    m (Except ErrorChain Unit) := do
  match inbox ctx, (pollConfig ctx).check with
  | .error chain, _ => return .error chain
  | _, .error e => return .error (.ofError e)
  | .ok path, .ok () =>
      match ← Monitor.run (pollConfig ctx) (fetch path account) emit maxPolls (.start 0) with
      | .failed e => return .error (.ofError e)
      | .stopped _ | .running _ => return .ok ()

def backfill (ctx : AdapterContext) (account : String) (since : Calendar.Instant) :
    m (Except ErrorChain Unit) := do
  match inbox ctx with
  | .error chain => return .error chain
  | .ok path =>
      match ← Inbox.read path account 0 with
      | .error chain => return .error chain
      | .ok (events, _) =>
          let recent := events.filter (since.milliseconds ≤ ·.timestamp)
          return ((← Monitor.emitAll emit 0 recent).map fun _ => ()).mapError .ofError

end

def health (ctx : AdapterContext) (account : String) : m (Except ErrorChain AdapterHealth) := do
  match ctx.text? "inbox" with
  | none => return .ok ⟨true, account, none, none, none⟩
  | some path =>
      if ← MonadFiles.pathExists path then
        return .ok ⟨true, account, none, none, some [("inbox", .string path)]⟩
      else return .ok (.disconnected account s!"inbox {path} not found")

def accounts (ctx : AdapterContext) : List AdapterAccount :=
  [⟨(ctx.runtime.map (·.account)).getD "default", some "Loopback", none, "ready"⟩]

def adapter [MonadClock m] [MonadOutput m] [MonadStateOf Ids m] : Adapter m where
  info
  monitor
  send
  backfill
  health
  accounts ctx := return .ok (accounts ctx)
  stream ctx := some ⟨Reply, pure .start, Reply.handler (textLimit ctx)⟩

end ChannelAdapter.Loopback
