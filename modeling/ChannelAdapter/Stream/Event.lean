import ChannelAdapter.Json.Record
/-!
Stream events: what an adapter is told while a reply is being written.
-/

namespace ChannelAdapter

structure DeliveryTarget where
  platform : String
  account : String
  recipient : String
  thread : Option String
  replyTo : Option String
  deriving DecidableEq, Repr

open Json in
def DeliveryTarget.record : Record DeliveryTarget where
  name := "struct DeliveryTarget"
  blank := ⟨"", "", "", none, none⟩
  fields := [
    .defaulted "platform" .string (·.platform) fun v r => { r with platform := v },
    .defaulted "account_id" .string (·.account) fun v r => { r with account := v },
    .defaulted "to" .string (·.recipient) fun v r => { r with recipient := v },
    .optional "thread_id" .string (·.thread) fun v r => { r with thread := v },
    .optional "reply_to_id" .string (·.replyTo) fun v r => { r with replyTo := v }]

namespace Stream

structure Start where
  run : Option String
  session : Option String
  target : Option DeliveryTarget
  deriving DecidableEq, Repr

structure Delta where
  text : String
  deriving DecidableEq, Repr

structure Tool where
  name : String
  call : Option String
  status : Option String
  summary : Option String
  deriving DecidableEq, Repr

/-- A run has ended; the last run of a reply is final. -/
structure Finish where
  run : Option String
  final : Bool
  deriving DecidableEq, Repr

structure Failure where
  error : String
  isPartial : Bool
  deriving DecidableEq, Repr

open Json in
def Start.record : Record Start where
  name := "struct StreamStart"
  blank := ⟨none, none, none⟩
  fields := [
    .optional "runId" .string (·.run) fun v r => { r with run := v },
    .optional "sessionLabel" .string (·.session) fun v r => { r with session := v },
    .optional "target" DeliveryTarget.record.codec (·.target) fun v r => { r with target := v }]

open Json in
def Delta.record : Record Delta where
  name := "struct TextDelta"
  blank := ⟨""⟩
  fields := [.defaulted "text" .string (·.text) fun v _ => ⟨v⟩]

open Json in
def Tool.record : Record Tool where
  name := "struct ToolStatus"
  blank := ⟨"", none, none, none⟩
  fields := [
    .defaulted "toolName" .string (·.name) fun v r => { r with name := v },
    .optional "toolCallId" .string (·.call) fun v r => { r with call := v },
    .optional "status" .string (·.status) fun v r => { r with status := v },
    .optional "summary" .string (·.summary) fun v r => { r with summary := v }]

open Json in
def Finish.record : Record Finish where
  name := "struct StreamEnd"
  blank := ⟨none, false⟩
  fields := [
    .optional "runId" .string (·.run) fun v r => { r with run := v },
    .defaulted "final" .bool (·.final) fun v r => { r with final := v }]

open Json in
def Failure.record : Record Failure where
  name := "struct StreamFailure"
  blank := ⟨"", false⟩
  fields := [
    .defaulted "error" .string (·.error) fun v r => { r with error := v },
    .defaulted "partial" .bool (·.isPartial) fun v r => { r with isPartial := v }]

inductive Event
  | start (p : Start)
  | token (p : Delta)
  | tool (p : Tool)
  | reasoning (p : Delta)
  | finish (p : Finish)
  | failure (p : Failure)
  deriving DecidableEq, Repr

inductive Event.Kind
  | start | token | tool | reasoning | finish | failure
  deriving DecidableEq, Repr

namespace Event

namespace Kind

def all : List Kind := [.start, .token, .tool, .reasoning, .finish, .failure]

def name : Kind → String
  | .start => "stream_start"
  | .token => "token"
  | .tool => "tool_status"
  | .reasoning => "reasoning"
  | .finish => "stream_end"
  | .failure => "stream_error"

def ofName? (s : String) : Option Kind :=
  all.find? (name · == s)

theorem ofName?_name (k : Kind) : ofName? k.name = some k := by
  cases k <;> decide +kernel

end Kind

def kind : Event → Kind
  | .start _ => .start
  | .token _ => .token
  | .tool _ => .tool
  | .reasoning _ => .reasoning
  | .finish _ => .finish
  | .failure _ => .failure

open Json in
def Kind.case : Kind → Case Event
  | .start => .of (name .start) Start.record .start fun | .start p => some p | _ => none
  | .token => .of (name .token) Delta.record .token fun | .token p => some p | _ => none
  | .tool => .of (name .tool) Tool.record .tool fun | .tool p => some p | _ => none
  | .reasoning =>
      .of (name .reasoning) Delta.record .reasoning fun | .reasoning p => some p | _ => none
  | .finish => .of (name .finish) Finish.record .finish fun | .finish p => some p | _ => none
  | .failure => .of (name .failure) Failure.record .failure fun | .failure p => some p | _ => none

def union : Json.Union Event where
  name := "internally tagged enum StreamEvent"
  cases := Kind.all.map Kind.case

end Event

end Stream

end ChannelAdapter
