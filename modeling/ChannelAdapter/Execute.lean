import ChannelAdapter.Adapter
import ChannelAdapter.Command
import ChannelAdapter.Stream.Dispatch
/-!
Carrying out commands. Each command is given to its handler, and what the handler answers is
written as a record. A message that cannot be sent and an account whose state cannot be told are
answers too.
-/

namespace ChannelAdapter.Execute

/-- The error of a handler as a record gives it: for an error of this library its message, for a
failure of the command itself the reason alone. -/
def reason : Error → String
  | .command (.executionFailed _ reason) => reason
  | e => e.message

def isUnsupported : Error → Bool
  | .command (.unsupported _) => true
  | _ => false

def request (ctx : AdapterContext) (m : Command.Message) : SendRequest where
  account := ctx.account m.account
  recipient := m.recipient
  text := m.text
  media := m.media
  caption := m.caption
  replyTo := m.replyTo
  thread := m.thread

variable {m : Type → Type} [Monad m] [MonadClock m] [MonadOutput m]

/-- Writes the answer of a handler. An error is answered by a record of its own, unless the command
is not supported. -/
def answer {α : Type} (c : Json.Codec α) (command : String) (failed : String → α)
    (result : Except ErrorChain α) : m (Except Error Unit) :=
  match result with
  | .ok a => Output.write c a
  | .error chain =>
      let e := chain.commandError command
      if isUnsupported e then return .error e else Output.write c (failed (reason e))

def execute (a : Adapter m) (ctx : AdapterContext) (source : Input.Source m) :
    Command → m (Except Error Unit)
  | .info => Output.write AdapterInfo.record.codec a.info
  | .monitor account _ => do
      return (← a.monitor ctx (ctx.account account)).mapError (·.commandError "monitor")
  | .send message => do
      answer DeliveryResult.record.codec "send" (fun reason => .failed [] (.unknown reason))
        (← a.send ctx (request ctx message))
  | .backfill account since _ => do
      return (← a.backfill ctx (ctx.account account) since).mapError (·.commandError "backfill")
  | .health account => do
      answer AdapterHealth.record.codec "health" (AdapterHealth.disconnected (ctx.account account))
        (← a.health ctx (ctx.account account))
  | .accounts _ => do
      match ← a.accounts ctx with
      | .error chain => return .error (chain.commandError "accounts list")
      | .ok accounts => Output.write (.list AdapterAccount.record.codec) accounts
  | .stream .. => do
      match a.stream ctx with
      | none => return .error (.command (.unsupported "stream"))
      | some s => return (← Stream.dispatchFrom source s.handler (← s.start)).map fun _ => ()

end ChannelAdapter.Execute
