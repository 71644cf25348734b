import ChannelAdapter.CommandLine
import ChannelAdapter.Execute
import ChannelAdapter.Verbosity
/-!
The program of an adapter, from the arguments to the exit code.
-/

namespace ChannelAdapter.Program

structure Environment where
  /-- Whether to log with all details. -/
  verbose : Option String
  /-- The path of the runtime context. -/
  contextPath : Option String
  deriving DecidableEq, Repr

inductive Failure
  | refused (r : CommandLine.Refusal)
  | failed (e : Error)

/-- Zero if the command was carried out or what was asked has been answered. -/
def exitCode : Except Failure Unit → UInt32
  | .ok () => 0
  | .error (.refused r) => if r.isAnswer then 0 else 1
  | .error (.failed _) => 1

def Failure.message : Failure → String
  | .refused r => r.message
  | .failed e => "command failed: " ++ e.message

def title (l : CommandLine.Level) : String :=
  "-".intercalate ("nexus-adapter" :: l.path)

def version : String := "0.1.0"

def answer? : CommandLine.Refusal → Option String
  | .help => some CommandLine.usage
  | .version l => some s!"{title l} {version}"
  | _ => none

variable {m : Type → Type} [Monad m] [MonadClock m] [MonadOutput m] [MonadFiles m]

def run (a : Adapter m) (args : List String) (env : Environment) (source : Input.Source m) :
    m (Except Failure Unit) := do
  match CommandLine.parse args env.verbose with
  | .error r => do
      if let some text := answer? r then
        let _ ← MonadOutput.put (text ++ "\n")
      return .error (.refused r)
  | .ok i =>
      match ← RuntimeContext.loadFor i.requireContext env.contextPath with
      | .error e => return .error (.failed e)
      | .ok runtime => return (← Execute.execute a ⟨runtime⟩ source i.command).mapError .failed

end ChannelAdapter.Program
