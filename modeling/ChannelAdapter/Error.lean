import ChannelAdapter.Json.Problem
/-!
Errors: the causes that the parts of the library name, and the one message of each.
-/

namespace ChannelAdapter

inductive CommandError
  | unsupported (command : String)
  | invalidArgument (reason : String)
  | executionFailed (command reason : String)
  deriving DecidableEq, Repr

def CommandError.message : CommandError → String
  | unsupported command => s!"{command} not supported by this adapter"
  | invalidArgument reason => s!"invalid argument: {reason}"
  | executionFailed command reason => s!"{command}: {reason}"

inductive Error
  | unknownStrategy (name : String)
  | invalidInterval (reason : String)
  | tooManyErrors (count : Nat) (last : String)
  | streamUnreadable (reason : String)
  /-- The variable that names the runtime context is not set. -/
  | missingContext (var : String)
  | contextUnreadable (path reason : String)
  | contextMalformed (why : Json.ReadError)
  | contextIncomplete (field : String)
  | command (e : CommandError)
  | io (reason : String)
  | json (reason : String)

namespace Error

def origin : Error → String
  | unknownStrategy _ => "chunking error"
  | invalidInterval _ | tooManyErrors .. => "monitor error"
  | streamUnreadable _ => "stream error"
  | missingContext _ | contextUnreadable .. | contextMalformed _ | contextIncomplete _ =>
      "configuration error"
  | command _ => "command error"
  | io _ => "I/O error"
  | json _ => "json error"

def cause : Error → String
  | unknownStrategy name => s!"unknown chunking strategy: {name}"
  | invalidInterval reason => s!"invalid poll interval: {reason}"
  | tooManyErrors count last => s!"too many consecutive errors ({count}): {last}"
  | streamUnreadable reason => s!"stdin read error: {reason}"
  | missingContext var => s!"missing runtime context (expected ${var})"
  | contextUnreadable path reason => s!"read runtime context: {path}: {reason}"
  | contextMalformed why => "parse runtime context json: " ++ why.message
  | contextIncomplete field => s!"runtime context missing {field}"
  | command e => e.message
  | io reason => reason
  | json reason => reason

def message (e : Error) : String :=
  e.origin ++ ": " ++ e.cause

end Error

inductive ErrorChain.Root
  | text (message : String)
  | error (e : Error)
  | command (e : CommandError)

/-- The messages of a root, the outer one first. An error is caused by the failure that it wraps. -/
def ErrorChain.Root.messages : ErrorChain.Root → List String
  | text message => [message]
  | error e => [e.message, e.cause]
  | command e => [e.message]

/-- An error with the contexts that were added to it, the last one first. The root is the error of
this library that a search through the chain finds, be it the first cause or itself added as a
context; if there is none, the first cause is known by its text alone. -/
structure ErrorChain where
  root : ErrorChain.Root
  contexts : List String

namespace ErrorChain

def ofText (message : String) : ErrorChain :=
  ⟨.text message, []⟩

def ofError (e : Error) : ErrorChain :=
  ⟨.error e, []⟩

def wrap (c : ErrorChain) (context : String) : ErrorChain :=
  { c with contexts := context :: c.contexts }

def message (c : ErrorChain) : String :=
  ": ".intercalate (c.contexts ++ c.root.messages)

/-- The error of a command whose handler failed with a chain. Errors of this library are recognized
under any contexts, which are lost; of other errors all messages are kept. -/
def commandError (c : ErrorChain) (command : String) : Error :=
  match c.root with
  | .command e => .command e
  | .error e => e
  | .text _ => .command (.executionFailed command c.message)

end ErrorChain

end ChannelAdapter
