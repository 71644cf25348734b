import ChannelAdapter.Error
import ChannelAdapter.Files
import ChannelAdapter.Json.Record
/-!
The runtime context: which channel and account an adapter serves, how it is configured, and the
credential it may use. It comes as a file that a variable of the environment names.
-/

namespace ChannelAdapter

namespace Json

mutual

/-- A value as logs show it. -/
def describe : Json → String
  | .null => "Null"
  | .bool b => s!"Bool({b})"
  | .number n => "Number(" ++ String.ofList n.text ++ ")"
  | .string s => "String(" ++ Text.quoted s ++ ")"
  | .array xs => "Array [" ++ ", ".intercalate (describeElements xs) ++ "]"
  | .object fields => "Object \x7b" ++ ", ".intercalate (describeFields fields) ++ "\x7d"

def describeElements : List Json → List String
  | [] => []
  | x :: xs => x.describe :: describeElements xs

def describeFields : List (String × Json) → List String
  | [] => []
  | (k, x) :: fields => (Text.quoted k ++ ": " ++ x.describe) :: describeFields fields

end

end Json

structure Credential where
  kind : String
  value : String
  reference : Option String
  service : Option String
  account : Option String
  deriving DecidableEq, Repr

open Json in
def Credential.record : Record Credential where
  name := "struct RuntimeCredential"
  blank := ⟨"", "", none, none, none⟩
  fields := [
    .defaulted "kind" .string (·.kind) fun v r => { r with kind := v },
    .defaulted "value" .string (·.value) fun v r => { r with value := v },
    .optional "ref" .string (·.reference) fun v r => { r with reference := v },
    .optional "service" .string (·.service) fun v r => { r with service := v },
    .optional "account" .string (·.account) fun v r => { r with account := v }]

/-- A credential as logs show it: without its value. -/
def Credential.describe (c : Credential) : String :=
  let optional : Option String → String
    | none => "None"
    | some s => "Some(" ++ Text.quoted s ++ ")"
  "RuntimeCredential \x7b kind: " ++ Text.quoted c.kind ++ ", value: \"[REDACTED]\", reference: " ++
    optional c.reference ++ ", service: " ++ optional c.service ++ ", account: " ++
    optional c.account ++ " \x7d"

structure RuntimeContext where
  version : Option Nat
  channel : String
  account : String
  config : List (String × Json)
  /-- Absent where no authentication is needed. -/
  credential : Option Credential

namespace RuntimeContext

def describe (c : RuntimeContext) : String :=
  "RuntimeContext \x7b version: " ++ optional toString c.version ++ ", channel: " ++
    Text.quoted c.channel ++ ", account_id: " ++ Text.quoted c.account ++ ", config: \x7b" ++
    ", ".intercalate (Json.describeFields c.config) ++ "\x7d, credential: " ++
    optional Credential.describe c.credential ++ " \x7d"
where
  optional {α : Type} (text : α → String) : Option α → String
    | none => "None"
    | some a => "Some(" ++ text a ++ ")"

open Json in
/-- A missing configuration is an empty one, and so is null. -/
def config? : Codec (List (String × Json)) where
  encode := .object
  decode n := (Codec.map.option.decode n).map (·.getD [])

open Json in
def record : Record RuntimeContext where
  name := "struct RuntimeContext"
  blank := ⟨none, "", "", [], none⟩
  fields := [
    .optional "version" .u32 (·.version) fun v r => { r with version := v },
    .defaulted "channel" .string (·.channel) fun v r => { r with channel := v },
    .defaulted "account_id" .string (·.account) fun v r => { r with account := v },
    .defaulted "config" config? (·.config) fun v r => { r with config := v },
    .optional "credential" Credential.record.codec (·.credential)
      fun v r => { r with credential := v }]

def emptyField? (c : RuntimeContext) : Option String :=
  if c.channel.isEmpty then some "channel"
  else if c.account.isEmpty then some "account_id"
  else if c.credential.any (·.value.isEmpty) then some "credential value"
  else none

/-- A context in which a credential without a kind is a token. -/
def withKind (c : RuntimeContext) : RuntimeContext :=
  { c with
    credential := c.credential.map fun x =>
      if x.kind.isEmpty then { x with kind := "token" } else x }

def parse (raw : String) : Except Error RuntimeContext :=
  match record.codec.read raw with
  | .error why => .error (.contextMalformed why)
  | .ok c =>
      match c.emptyField? with
      | some field => .error (.contextIncomplete field)
      | none => .ok c.withKind

def variableName : String := "NEXUS_ADAPTER_CONTEXT_PATH"

def text? (c : RuntimeContext) (key : String) : Option String :=
  match Json.find? key c.config with
  | some (.string s) => some s
  | _ => none

def nat? (c : RuntimeContext) (key : String) : Option Nat :=
  match Json.find? key c.config with
  | some (.number (.integer n)) => if 0 ≤ n then some n.toNat else none
  | _ => none

variable {m : Type → Type} [Monad m] [MonadFiles m]

def loadFile (path : String) : m (Except Error RuntimeContext) := do
  match ← readText path with
  | .error e => return .error (.contextUnreadable path e.message)
  | .ok raw => return parse raw

/-- Reads the context from the file that the variable names. An empty variable counts as unset. -/
def load (var : Option String) : m (Except Error RuntimeContext) :=
  match var.filter (!·.isEmpty) with
  | some path => loadFile path
  | none => return .error (.missingContext variableName)

def load? (var : Option String) : m (Except Error (Option RuntimeContext)) := do
  match ← load var with
  | .ok c => return .ok (some c)
  | .error (.missingContext _) => return .ok none
  | .error e => return .error e

def loadFor (required : Bool) (var : Option String) : m (Except Error (Option RuntimeContext)) :=
  if required then return (← load var).map some else load? var

end RuntimeContext

end ChannelAdapter
