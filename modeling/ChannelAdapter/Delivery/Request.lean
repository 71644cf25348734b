import ChannelAdapter.Json.Record
/-!
Requests to send a message.
-/

namespace ChannelAdapter

structure SendRequest where
  account : String
  recipient : String
  text : String
  /-- The path of a file to attach. -/
  media : Option String
  caption : Option String
  replyTo : Option String
  thread : Option String
  deriving DecidableEq, Repr

open Json in
def SendRequest.record : Record SendRequest where
  name := "struct SendRequest"
  blank := ⟨"", "", "", none, none, none, none⟩
  fields := [
    .required "account" .string (·.account) fun v r => { r with account := v },
    .required "to" .string (·.recipient) fun v r => { r with recipient := v },
    .omitted "text" .string String.isEmpty (·.text) fun v r => { r with text := v },
    .optional "media" .string (·.media) fun v r => { r with media := v },
    .optional "caption" .string (·.caption) fun v r => { r with caption := v },
    .optional "reply_to_id" .string (·.replyTo) fun v r => { r with replyTo := v },
    .optional "thread_id" .string (·.thread) fun v r => { r with thread := v }]

end ChannelAdapter
