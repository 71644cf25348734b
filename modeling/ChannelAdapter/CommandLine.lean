import ChannelAdapter.Calendar.Parse
import ChannelAdapter.Command
/-!
Command lines. Arguments are read from left to right, each at the level of the command that was
named last. A value that stands in an argument of its own is looked at only when the next option
comes, so what is wrong with that argument is reported first.
-/

namespace ChannelAdapter.CommandLine

inductive Key
  | account | format | recipient | text | media | caption | replyTo | thread | since
  deriving DecidableEq, Repr

inductive Switch
  | verbose | requireContext
  deriving DecidableEq, Repr

/-- How far the commands on a line have been named. -/
inductive Level
  | root | info | monitor | send | backfill | health | accounts | accountsList | stream
  deriving DecidableEq, Repr

/-- Why a line is not carried out: it asks for something else, or something is wrong with it. -/
inductive Refusal
  | help
  | version (level : Level)
  | nothingGiven
  | missingCommand
  | unknownCommand
  | unknownArgument
  | repeated
  /-- A value is missing or not one of those that are allowed. -/
  | invalidValue
  | badDate
  | unneededValue
  | missingOption
  deriving DecidableEq, Repr

def Refusal.isAnswer : Refusal → Bool
  | help | version _ => true
  | _ => false

def usage : String :=
  "usage: [--verbose] [--require-context] " ++
    "info | monitor | send | backfill | health | accounts | stream"

def Refusal.message : Refusal → String
  | help | nothingGiven => usage
  | version _ => "the version was asked for"
  | missingCommand => "a command is missing"
  | unknownCommand => "there is no such command"
  | unknownArgument => "an argument has no place here"
  | repeated => "an option is given twice"
  | invalidValue => "the value of an option is missing or not allowed"
  | badDate => "a date is not understood"
  | unneededValue => "an option takes no value"
  | missingOption => "an option is missing"

namespace Key

def all : List Key :=
  [.account, .format, .recipient, .text, .media, .caption, .replyTo, .thread, .since]

def name : Key → String
  | account => "account"
  | format => "format"
  | recipient => "to"
  | text => "text"
  | media => "media"
  | caption => "caption"
  | replyTo => "reply-to"
  | thread => "thread"
  | since => "since"

def check (k : Key) (value : String) : Except Refusal Unit :=
  match k with
  | format => if value = "jsonl" then .ok () else .error .invalidValue
  | since => (Calendar.parse value).toOption.elim (.error .badDate) fun _ => .ok ()
  | _ => .ok ()

end Key

namespace Switch

def name : Switch → String
  | verbose => "verbose"
  | requireContext => "require-context"

def all : List Switch := [.verbose, .requireContext]

end Switch

namespace Level

def keys : Level → List Key
  | monitor | stream => [.account, .format]
  | send => [.account, .recipient, .text, .media, .caption, .replyTo, .thread]
  | backfill => [.account, .since, .format]
  | health => [.account]
  | _ => []

def required : Level → List Key
  | send => [.recipient]
  | backfill => [.since]
  | _ => []

def commands : Level → List (String × Level)
  | root =>
      [("info", .info), ("monitor", .monitor), ("send", .send), ("backfill", .backfill),
        ("health", .health), ("accounts", .accounts), ("stream", .stream)]
  | accounts => [("list", .accountsList), ("ls", .accountsList)]
  | _ => []

def helpCommand : String := "help"

def path : Level → List String
  | root => []
  | info => ["info"]
  | monitor => ["monitor"]
  | send => ["send"]
  | backfill => ["backfill"]
  | health => ["health"]
  | accounts => ["accounts"]
  | accountsList => ["accounts", "list"]
  | stream => ["stream"]

def hasCommand (l : Level) (name : String) : Bool :=
  !l.commands.isEmpty && (name == helpCommand || (l.commands.lookup name).isSome)

def helpFor (l : Level) : List String → Refusal
  | [] => .help
  | name :: names =>
      match l.commands.lookup name with
      | some l => helpFor l names
      | none => if l.hasCommand name && names.isEmpty then .help else .unknownCommand

end Level

structure Reading where
  level : Level
  /-- Switches that were given at each of the levels above. -/
  above : List (List Switch)
  switches : List Switch
  values : List (Key × String)
  /-- The last option, if its value has not been looked at, and that value, if it has come. -/
  pending : Option (Key × Option String)
  /-- Whether no more options are to come. -/
  plain : Bool
  deriving DecidableEq, Repr

namespace Reading

def start : Reading := ⟨.root, [], [], [], none, false⟩

def give (r : Reading) (k : Key) (value : String) : Except Refusal Reading :=
  if (r.values.lookup k).isSome then .error .repeated
  else do
    k.check value
    return { r with values := (k, value) :: r.values }

def settle (r : Reading) : Except Refusal Reading :=
  match r.pending with
  | none => .ok r
  | some (_, none) => .error .invalidValue
  | some (k, some value) => { r with pending := none }.give k value

def turnOn (r : Reading) (s : Switch) : Except Refusal Reading := do
  let r ← r.settle
  if r.switches.contains s then throw .repeated
  return { r with switches := s :: r.switches }

def onLong (r : Reading) (name : String) (value : Option String) : Except Refusal Reading :=
  match r.level.keys.find? (·.name == name), Switch.all.find? (·.name == name) with
  | some k, _ => do
      let r ← r.settle
      match value with
      | some value => r.give k value
      | none => return { r with pending := some (k, none) }
  | none, some s => if value.isSome then .error .unneededValue else r.turnOn s
  | none, none =>
      if name == "help" || name == "version" then
        if value.isSome then .error .unneededValue
        else do
          let r ← r.settle
          throw (if name == "help" then .help else .version r.level)
      else .error .unknownArgument

def onShort (r : Reading) : List Char → Except Refusal Reading
  | [] => .ok r
  | c :: cs =>
      if c = 'v' then do onShort (← r.turnOn .verbose) cs
      else if c = 'h' then do
        let _ ← r.settle
        throw .help
      else if c = 'V' then do
        let r ← r.settle
        throw (.version r.level)
      else .error .unknownArgument

def misplaced (r : Reading) (arg : String) : Refusal :=
  if r.level.commands.isEmpty then .unknownArgument
  else if r.plain && r.level.hasCommand arg then .unknownArgument
  else .unknownCommand

/-- Takes an argument that is no option: the value of the last option, or the name of a command. -/
def onPlain (r : Reading) (arg : String) : Except Refusal Reading :=
  match r.pending with
  | some (k, none) =>
      if r.plain then .error (r.misplaced arg)
      else .ok { r with pending := some (k, some arg) }
  | _ => .error (r.misplaced arg)

def awaitsValue (r : Reading) : Bool :=
  r.pending matches some (_, none)

def splitLong (arg : List Char) : String × Option String :=
  let name := arg.takeWhile (· != '=')
  (String.ofList name,
    match arg.drop name.length with
    | [] => none
    | _ :: value => some (String.ofList value))

def onArgument (r : Reading) (arg : String) : Except Refusal Reading :=
  if r.plain then r.onPlain arg
  else
    match arg.toList with
    | ['-', '-'] => .ok { r with plain := true }
    | '-' :: '-' :: cs => r.onLong (splitLong cs).1 (splitLong cs).2
    | ['-'] => r.onPlain arg
    | '-' :: cs => r.onShort cs
    | _ => r.onPlain arg

def enter (r : Reading) (l : Level) : Reading :=
  { start with level := l, above := r.switches :: r.above }

def run (r : Reading) : List String → Except Refusal Reading
  | [] => r.settle
  | arg :: args =>
      if !r.plain && !r.awaitsValue && r.level.hasCommand arg then
        match r.level.commands.lookup arg with
        | some l => (r.enter l).run args
        | none => .error (r.level.helpFor args)
      else
        match r.onArgument arg with
        | .ok r => r.run args
        | .error e => .error e

def isOn (r : Reading) (s : Switch) : Bool :=
  (r.switches :: r.above).any (·.contains s)

def isOnThroughout (r : Reading) (s : Switch) : Bool :=
  (r.switches :: r.above).all (·.contains s)

def value? (r : Reading) (k : Key) : Option String :=
  r.values.lookup k

def command (r : Reading) : Except Refusal Command :=
  if r.level.required.any fun k => (r.value? k).isNone then .error .missingOption
  else
    match r.level with
    | .root => .error (if r.switches.isEmpty then .nothingGiven else .missingCommand)
    | .info => .ok .info
    | .monitor => .ok (.monitor (r.value? .account) .lines)
    | .send =>
        .ok (.send
          { account := r.value? .account
            recipient := (r.value? .recipient).getD ""
            text := (r.value? .text).getD ""
            media := r.value? .media
            caption := r.value? .caption
            replyTo := r.value? .replyTo
            thread := r.value? .thread })
    | .backfill =>
        match Calendar.parse ((r.value? .since).getD "") with
        | .ok since => .ok (.backfill (r.value? .account) since .lines)
        | .error _ => .error .badDate
    | .health => .ok (.health (r.value? .account))
    | .accounts => .ok (.accounts none)
    | .accountsList => .ok (.accounts (some .list))
    | .stream => .ok (.stream (r.value? .account) .lines)

end Reading

structure Invocation where
  verbose : Bool
  requireContext : Bool
  command : Command
  deriving DecidableEq, Repr

def environmentSwitch : Option String → Except Refusal Bool
  | none => .ok false
  | some "true" => .ok true
  | some "false" => .ok false
  | some _ => .error .invalidValue

/-- Reads the arguments of a line. What the environment says of verbosity counts unless the switch
is given at every level. -/
def parse (args : List String) (verbose : Option String) : Except Refusal Invocation := do
  let r ← Reading.start.run args
  let command ← r.command
  let set ← if r.isOnThroughout .verbose then .ok true else environmentSwitch verbose
  return ⟨r.isOn .verbose || set, r.isOn .requireContext, command⟩

end ChannelAdapter.CommandLine
