import ChannelAdapter.Event
import ChannelAdapter.Calendar
/-!
Building events step by step. Each step sets the fields of one kind and leaves the others alone.
-/

namespace ChannelAdapter.Event

inductive Edit
  | instant (time : Calendar.Instant)
  | timestamp (ms : Int)
  | content (text : String)
  | contentType (type : String)
  | sender (id : String) (name : Option String)
  | container (id kind : String)
  | containerName (name : String)
  | space (id : String) (name : Option String)
  | account (id : String)
  | thread (id : String)
  | replyTo (id : String)
  | attachment (file : Attachment)
  | metadata (key : String) (value : Json)
  | deliveryMetadata (key : String) (value : Json)

def setKey (key : String) (value : Json) (fields : Option (List (String × Json))) :
    Option (List (String × Json)) :=
  some (Json.insert key value (fields.getD []))

def Edit.apply (e : Event) : Edit → Event
  | .instant t => { e with timestamp := t.milliseconds }
  | .timestamp ms => { e with timestamp := ms }
  | .content text => { e with content := text }
  | .contentType type => { e with contentType := type }
  | .sender id name => { e with sender := id, senderName := name }
  | .container id kind => { e with container := id, containerKind := kind }
  | .containerName name => { e with containerName := some name }
  | .space id name => { e with space := some id, spaceName := name }
  | .account id => { e with account := id }
  | .thread id => { e with thread := some id }
  | .replyTo id => { e with replyTo := some id }
  | .attachment file => { e with attachments := e.attachments ++ [file] }
  | .metadata key value => { e with metadata := setKey key value e.metadata }
  | .deliveryMetadata key value =>
      { e with deliveryMetadata := setKey key value e.deliveryMetadata }

def build (platform id : String) (edits : List Edit) : Event :=
  edits.foldl Edit.apply (draft platform id)

end ChannelAdapter.Event
