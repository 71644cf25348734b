import ChannelAdapter.Json.Record
/-!
What an adapter says about itself, its accounts and their state.
-/

namespace ChannelAdapter

inductive Capability
  | monitor | send | stream | backfill | health | accounts | react | edit | delete | poll
  deriving DecidableEq, Repr

namespace Capability

def all : List Capability :=
  [.monitor, .send, .stream, .backfill, .health, .accounts, .react, .edit, .delete, .poll]

def name : Capability → String
  | .monitor => "monitor"
  | .send => "send"
  | .stream => "stream"
  | .backfill => "backfill"
  | .health => "health"
  | .accounts => "accounts"
  | .react => "react"
  | .edit => "edit"
  | .delete => "delete"
  | .poll => "poll"

end Capability

structure ChannelCapabilities where
  textLimit : Nat
  captionLimit : Option Nat
  markdown : Bool
  markdownFlavor : Option String
  tables : Bool
  codeBlocks : Bool
  embeds : Bool
  threads : Bool
  reactions : Bool
  polls : Bool
  buttons : Bool
  edit : Bool
  delete : Bool
  media : Bool
  voiceNotes : Bool
  /-- Whether a message can grow by edits while it is written. -/
  streamingEdit : Bool
  deriving DecidableEq, Repr

namespace ChannelCapabilities

def none : ChannelCapabilities where
  textLimit := 0
  captionLimit := .none
  markdown := false
  markdownFlavor := .none
  tables := false
  codeBlocks := false
  embeds := false
  threads := false
  reactions := false
  polls := false
  buttons := false
  edit := false
  delete := false
  media := false
  voiceNotes := false
  streamingEdit := false

open Json in
def record : Record ChannelCapabilities where
  name := "struct ChannelCapabilities"
  blank := none
  fields := [
    .defaulted "text_limit" .usize (·.textLimit) fun v r => { r with textLimit := v },
    .optional "caption_limit" .usize (·.captionLimit) fun v r => { r with captionLimit := v },
    .defaulted "supports_markdown" .bool (·.markdown) fun v r => { r with markdown := v },
    .optional "markdown_flavor" .string (·.markdownFlavor)
      fun v r => { r with markdownFlavor := v },
    .defaulted "supports_tables" .bool (·.tables) fun v r => { r with tables := v },
    .defaulted "supports_code_blocks" .bool (·.codeBlocks) fun v r => { r with codeBlocks := v },
    .defaulted "supports_embeds" .bool (·.embeds) fun v r => { r with embeds := v },
    .defaulted "supports_threads" .bool (·.threads) fun v r => { r with threads := v },
    .defaulted "supports_reactions" .bool (·.reactions) fun v r => { r with reactions := v },
    .defaulted "supports_polls" .bool (·.polls) fun v r => { r with polls := v },
    .defaulted "supports_buttons" .bool (·.buttons) fun v r => { r with buttons := v },
    .defaulted "supports_edit" .bool (·.edit) fun v r => { r with edit := v },
    .defaulted "supports_delete" .bool (·.delete) fun v r => { r with delete := v },
    .defaulted "supports_media" .bool (·.media) fun v r => { r with media := v },
    .defaulted "supports_voice_notes" .bool (·.voiceNotes) fun v r => { r with voiceNotes := v },
    .defaulted "supports_streaming_edit" .bool (·.streamingEdit)
      fun v r => { r with streamingEdit := v }]

end ChannelCapabilities

structure AdapterInfo where
  channel : String
  /-- The name for people. -/
  name : String
  version : String
  supports : List Capability
  /-- Where the credentials of its accounts are kept. -/
  credentialService : Option String
  multiAccount : Bool
  capabilities : ChannelCapabilities
  deriving DecidableEq, Repr

open Json in
def AdapterInfo.record : Record AdapterInfo where
  name := "struct AdapterInfo"
  blank := ⟨"", "", "", [], none, false, .none⟩
  fields := [
    .required "channel" .string (·.channel) fun v r => { r with channel := v },
    .required "name" .string (·.name) fun v r => { r with name := v },
    .required "version" .string (·.version) fun v r => { r with version := v },
    .required "supports" (.list (.names Capability.all Capability.name)) (·.supports)
      fun v r => { r with supports := v },
    .optional "credential_service" .string (·.credentialService)
      fun v r => { r with credentialService := v },
    .defaulted "multi_account" .bool (·.multiAccount) fun v r => { r with multiAccount := v },
    .required "channel_capabilities" ChannelCapabilities.record.codec (·.capabilities)
      fun v r => { r with capabilities := v }]

def AdapterInfo.has (info : AdapterInfo) (c : Capability) : Bool :=
  info.supports.contains c

structure AdapterHealth where
  connected : Bool
  account : String
  /-- When the last event arrived, in milliseconds since 1970. -/
  lastEvent : Option Int
  error : Option String
  details : Option (List (String × Json))

namespace AdapterHealth

def disconnected (account error : String) : AdapterHealth :=
  ⟨false, account, none, some error, none⟩

open Json in
def record : Record AdapterHealth where
  name := "struct AdapterHealth"
  blank := ⟨false, "", none, none, none⟩
  fields := [
    .required "connected" .bool (·.connected) fun v r => { r with connected := v },
    .required "account" .string (·.account) fun v r => { r with account := v },
    .optional "last_event_at" .i64 (·.lastEvent) fun v r => { r with lastEvent := v },
    .optional "error" .string (·.error) fun v r => { r with error := v },
    .optional "details" .map (·.details) fun v r => { r with details := v }]

end AdapterHealth

structure AdapterAccount where
  id : String
  displayName : Option String
  credential : Option String
  /-- Whether it can be used. -/
  status : String
  deriving DecidableEq, Repr

open Json in
def AdapterAccount.record : Record AdapterAccount where
  name := "struct AdapterAccount"
  blank := ⟨"", none, none, ""⟩
  fields := [
    .required "id" .string (·.id) fun v r => { r with id := v },
    .optional "display_name" .string (·.displayName) fun v r => { r with displayName := v },
    .optional "credential_ref" .string (·.credential) fun v r => { r with credential := v },
    .required "status" .string (·.status) fun v r => { r with status := v }]

end ChannelAdapter
