import ChannelAdapter.Json.Record
/-!
Results of deliveries. A failed delivery names the chunks that were sent before it failed.
-/

namespace ChannelAdapter

inductive DeliveryError.Kind
  | rateLimited | permissionDenied | notFound | contentRejected | network | unknown
  deriving DecidableEq, Repr

namespace DeliveryError.Kind

def all : List Kind :=
  [.rateLimited, .permissionDenied, .notFound, .contentRejected, .network, .unknown]

def name : Kind → String
  | .rateLimited => "rate_limited"
  | .permissionDenied => "permission_denied"
  | .notFound => "not_found"
  | .contentRejected => "content_rejected"
  | .network => "network"
  | .unknown => "unknown"

def isRetryable : Kind → Bool
  | .rateLimited | .network => true
  | _ => false

end DeliveryError.Kind

structure DeliveryError where
  kind : DeliveryError.Kind
  message : String
  /-- How long to wait before a second attempt, in milliseconds. -/
  retryAfter : Option Nat
  retry : Bool
  details : Option (List (String × Json))

namespace DeliveryError

def new (kind : Kind) (message : String) : DeliveryError :=
  ⟨kind, message, none, kind.isRetryable, none⟩

def contentRejected (message : String) : DeliveryError := new .contentRejected message

def network (message : String) : DeliveryError := new .network message

def rateLimited (message : String) (retryAfter : Nat) : DeliveryError :=
  { new .rateLimited message with retryAfter := some retryAfter }

def unknown (message : String) : DeliveryError := new .unknown message

def withDetail (e : DeliveryError) (key : String) (value : Json) : DeliveryError :=
  { e with details := some (Json.insert key value (e.details.getD [])) }

open Json in
def record : Record DeliveryError where
  name := "struct DeliveryError"
  blank := new .unknown ""
  fields := [
    .required "type" (.names Kind.all Kind.name) (·.kind) fun v r => { r with kind := v },
    .required "message" .string (·.message) fun v r => { r with message := v },
    .optional "retry_after_ms" .u64 (·.retryAfter) fun v r => { r with retryAfter := v },
    .required "retry" .bool (·.retry) fun v r => { r with retry := v },
    .optional "details" .map (·.details) fun v r => { r with details := v }]

end DeliveryError

structure DeliveryResult where
  success : Bool
  /-- The platform's ids of the chunks that were sent, in order. -/
  messageIds : List String
  chunksSent : Nat
  /-- The bytes of the whole text. -/
  totalSize : Option Nat
  error : Option DeliveryError

namespace DeliveryResult

def delivered (ids : List String) : DeliveryResult :=
  ⟨true, ids, ids.length, none, none⟩

def failed (ids : List String) (error : DeliveryError) : DeliveryResult :=
  ⟨false, ids, ids.length, none, some error⟩

def withTotal (r : DeliveryResult) (total : Nat) : DeliveryResult :=
  { r with totalSize := some total }

open Json in
def record : Record DeliveryResult where
  name := "struct DeliveryResult"
  blank := ⟨false, [], 0, none, none⟩
  fields := [
    .required "success" .bool (·.success) fun v r => { r with success := v },
    .defaulted "message_ids" (.list .string) (·.messageIds) fun v r => { r with messageIds := v },
    .required "chunks_sent" .usize (·.chunksSent) fun v r => { r with chunksSent := v },
    .optional "total_chars" .usize (·.totalSize) fun v r => { r with totalSize := v },
    .optional "error" DeliveryError.record.codec (·.error) fun v r => { r with error := v }]

end DeliveryResult

end ChannelAdapter
