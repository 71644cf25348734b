import ChannelAdapter.Json.Record
/-!
Stream statuses: what an adapter tells while it delivers a reply that is being written.
-/

namespace ChannelAdapter.Stream

structure Created where
  message : String
  deriving DecidableEq, Repr

structure Updated where
  message : String
  /-- The bytes that it holds now. -/
  size : Nat
  deriving DecidableEq, Repr

/-- A message has its last content; the last message of a reply is final. -/
structure Sent where
  message : String
  final : Bool
  deriving DecidableEq, Repr

structure Complete where
  messages : List String
  deriving DecidableEq, Repr

structure Fault where
  error : String
  deriving DecidableEq, Repr

open Json in
def Created.record : Record Created where
  name := "struct variant AdapterStreamStatus::MessageCreated"
  blank := ⟨""⟩
  fields := [.required "messageId" .string (·.message) fun v _ => ⟨v⟩]

open Json in
def Updated.record : Record Updated where
  name := "struct variant AdapterStreamStatus::MessageUpdated"
  blank := ⟨"", 0⟩
  fields := [
    .required "messageId" .string (·.message) fun v r => { r with message := v },
    .required "chars" .usize (·.size) fun v r => { r with size := v }]

open Json in
def Sent.record : Record Sent where
  name := "struct variant AdapterStreamStatus::MessageSent"
  blank := ⟨"", false⟩
  fields := [
    .required "messageId" .string (·.message) fun v r => { r with message := v },
    .required "final" .bool (·.final) fun v r => { r with final := v }]

open Json in
def Complete.record : Record Complete where
  name := "struct variant AdapterStreamStatus::DeliveryComplete"
  blank := ⟨[]⟩
  fields := [.required "messageIds" (.list .string) (·.messages) fun v _ => ⟨v⟩]

open Json in
def Fault.record : Record Fault where
  name := "struct variant AdapterStreamStatus::DeliveryError"
  blank := ⟨""⟩
  fields := [.required "error" .string (·.error) fun v _ => ⟨v⟩]

inductive Status
  | created (p : Created)
  | updated (p : Updated)
  | sent (p : Sent)
  | complete (p : Complete)
  | fault (p : Fault)
  deriving DecidableEq, Repr

open Json in
def Status.union : Json.Union Status where
  name := "internally tagged enum AdapterStreamStatus"
  cases := [
    .of "message_created" Created.record .created fun | .created p => some p | _ => none,
    .of "message_updated" Updated.record .updated fun | .updated p => some p | _ => none,
    .of "message_sent" Sent.record .sent fun | .sent p => some p | _ => none,
    .of "delivery_complete" Complete.record .complete fun | .complete p => some p | _ => none,
    .of "delivery_error" Fault.record .fault fun | .fault p => some p | _ => none]

end ChannelAdapter.Stream
