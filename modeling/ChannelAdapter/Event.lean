import ChannelAdapter.Json.Record
/-!
Events: what an adapter reports of the messages that reach an account, in one form for all
platforms.
-/

namespace ChannelAdapter

structure Attachment where
  id : String
  filename : String
  contentType : String
  size : Option Nat
  url : Option String
  path : Option String

structure Event where
  /-- By convention the platform, a colon, and the platform's own id. -/
  id : String
  /-- Milliseconds since 1970. -/
  timestamp : Int
  content : String
  contentType : String
  attachments : List Attachment
  platform : String
  account : String
  sender : String
  senderName : Option String
  /-- What the container belongs to, such as a workspace. -/
  space : Option String
  spaceName : Option String
  container : String
  containerKind : String
  containerName : Option String
  thread : Option String
  threadName : Option String
  replyTo : Option String
  metadata : Option (List (String × Json))
  /-- Metadata that comes back with the replies. -/
  deliveryMetadata : Option (List (String × Json))

open Json in
def Attachment.record : Record Attachment where
  name := "struct Attachment"
  blank := ⟨"", "", "", none, none, none⟩
  fields := [
    .required "id" .string (·.id) fun v r => { r with id := v },
    .required "filename" .string (·.filename) fun v r => { r with filename := v },
    .required "content_type" .string (·.contentType) fun v r => { r with contentType := v },
    .optional "size_bytes" .u64 (·.size) fun v r => { r with size := v },
    .optional "url" .string (·.url) fun v r => { r with url := v },
    .optional "path" .string (·.path) fun v r => { r with path := v }]

namespace Event

def draft (platform id : String) : Event where
  id
  timestamp := 0
  content := ""
  contentType := "text"
  attachments := []
  platform
  account := ""
  sender := ""
  senderName := none
  space := none
  spaceName := none
  container := ""
  containerKind := ""
  containerName := none
  thread := none
  threadName := none
  replyTo := none
  metadata := none
  deliveryMetadata := none

open Json in
def record : Record Event where
  name := "struct NexusEvent"
  blank := draft "" ""
  fields := [
    .required "event_id" .string (·.id) fun v r => { r with id := v },
    .required "timestamp" .i64 (·.timestamp) fun v r => { r with timestamp := v },
    .required "content" .string (·.content) fun v r => { r with content := v },
    .required "content_type" .string (·.contentType) fun v r => { r with contentType := v },
    .omitted "attachments" (.list Attachment.record.codec) List.isEmpty (·.attachments)
      fun v r => { r with attachments := v },
    .required "platform" .string (·.platform) fun v r => { r with platform := v },
    .required "account_id" .string (·.account) fun v r => { r with account := v },
    .required "sender_id" .string (·.sender) fun v r => { r with sender := v },
    .optional "sender_name" .string (·.senderName) fun v r => { r with senderName := v },
    .optional "space_id" .string (·.space) fun v r => { r with space := v },
    .optional "space_name" .string (·.spaceName) fun v r => { r with spaceName := v },
    .required "container_id" .string (·.container) fun v r => { r with container := v },
    .required "container_kind" .string (·.containerKind) fun v r => { r with containerKind := v },
    .optional "container_name" .string (·.containerName) fun v r => { r with containerName := v },
    .optional "thread_id" .string (·.thread) fun v r => { r with thread := v },
    .optional "thread_name" .string (·.threadName) fun v r => { r with threadName := v },
    .optional "reply_to_id" .string (·.replyTo) fun v r => { r with replyTo := v },
    .optional "metadata" .map (·.metadata) fun v r => { r with metadata := v },
    .optional "delivery_metadata" .map (·.deliveryMetadata)
      fun v r => { r with deliveryMetadata := v }]

end Event

end ChannelAdapter
