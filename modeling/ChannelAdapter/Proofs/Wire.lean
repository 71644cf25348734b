import ChannelAdapter.Adapter.Info
import ChannelAdapter.Delivery.Request
import ChannelAdapter.Delivery.Result
import ChannelAdapter.Event
import ChannelAdapter.Proofs.Json.Record
import ChannelAdapter.Stream.Event
import ChannelAdapter.Stream.Status
/-!
The records that go over the wire. Each of them is read as what has been written, and so is what has
been read of any text.
-/

namespace ChannelAdapter

open Json
open Codec (Faithful)

/-! Requests and accounts, in which all is text. -/

theorem SendRequest.faithful : Faithful record.codec (fun _ => True) fun _ => True :=
  Record.faithful (by decide) trivial <|
    .field (.required_free .string fun _ _ h => h) <|
    .field (.required_free .string fun _ _ h => h) <|
    .field (.omitted .string (fun _ _ h => by rw [String.isEmpty_iff.mp h]; rfl)
      (fun _ _ => trivial) (fun _ _ _ h => h) fun _ _ => trivial) <|
    .field (.optional_string (fun _ => rfl) fun _ _ h => h) <|
    .field (.optional_string (fun _ => rfl) fun _ _ h => h) <|
    .field (.optional_string (fun _ => rfl) fun _ _ h => h) <|
    .field (.optional_string (fun _ => rfl) fun _ _ h => h) <|
    .done fun _ => rfl

theorem AdapterAccount.faithful : Faithful record.codec (fun _ => True) fun _ => True :=
  Record.faithful (by decide) trivial <|
    .field (.required_free .string fun _ _ h => h) <|
    .field (.optional_string (fun _ => rfl) fun _ _ h => h) <|
    .field (.optional_string (fun _ => rfl) fun _ _ h => h) <|
    .field (.required_free .string fun _ _ h => h) <|
    .done fun _ => rfl

theorem DeliveryTarget.faithful : Faithful record.codec (fun _ => True) fun _ => True :=
  Record.faithful (by decide) trivial <|
    .field (.defaulted_free .string fun _ _ h => h) <|
    .field (.defaulted_free .string fun _ _ h => h) <|
    .field (.defaulted_free .string fun _ _ h => h) <|
    .field (.optional_string (fun _ => rfl) fun _ _ h => h) <|
    .field (.optional_string (fun _ => rfl) fun _ _ h => h) <|
    .done fun _ => rfl

/-! Events. -/

def Attachment.Sound (file : Attachment) : Prop :=
  ∀ n ∈ file.size, IsU64 n

theorem Attachment.faithful : Faithful record.codec Sound fun _ => True :=
  Record.faithful (by decide) (fun _ => nofun) <|
    .field (.required_free .string fun _ _ h => h) <|
    .field (.required_free .string fun _ _ h => h) <|
    .field (.required_free .string fun _ _ h => h) <|
    .field (.optional .u64 (fun _ => nofun) (fun _ => rfl) (fun _ h => h) (fun _ _ hv _ => hv)
      fun _ _ _ _ => trivial) <|
    .field (.optional_string (fun _ => rfl) fun _ _ h => h) <|
    .field (.optional_string (fun _ => rfl) fun _ _ h => h) <|
    .done fun _ => rfl

namespace Event

def Sound (e : Event) : Prop :=
  IsI64 e.timestamp ∧ (∀ file ∈ e.attachments, file.Sound) ∧
    (∀ m ∈ e.metadata, Sorted (.object m)) ∧ ∀ m ∈ e.deliveryMetadata, Sorted (.object m)

def Whole (e : Event) : Prop :=
  (∀ m ∈ e.metadata, Integral (.object m)) ∧ ∀ m ∈ e.deliveryMetadata, Integral (.object m)

theorem faithful : Faithful record.codec Sound Whole :=
  Record.faithful (by decide) ⟨by decide, List.forall_mem_nil _, fun _ => nofun, fun _ => nofun⟩ <|
    .field (.required_free .string fun _ _ h => h) <|
    .field (.required .i64 (fun _ h => h.1) (fun _ _ hv h => ⟨hv, h.2⟩) fun _ _ => trivial) <|
    .field (.required_free .string fun _ _ h => h) <|
    .field (.required_free .string fun _ _ h => h) <|
    .field (.omitted Attachment.faithful.list (fun _ _ h => by rw [List.isEmpty_iff.mp h]; rfl)
      (fun _ h => h.2.1) (fun _ _ hv h => ⟨h.1, hv, h.2.2⟩) fun _ _ _ _ => trivial) <|
    .field (.required_free .string fun _ _ h => h) <|
    .field (.required_free .string fun _ _ h => h) <|
    .field (.required_free .string fun _ _ h => h) <|
    .field (.optional_string (fun _ => rfl) fun _ _ h => h) <|
    .field (.optional_string (fun _ => rfl) fun _ _ h => h) <|
    .field (.optional_string (fun _ => rfl) fun _ _ h => h) <|
    .field (.required_free .string fun _ _ h => h) <|
    .field (.required_free .string fun _ _ h => h) <|
    .field (.optional_string (fun _ => rfl) fun _ _ h => h) <|
    .field (.optional_string (fun _ => rfl) fun _ _ h => h) <|
    .field (.optional_string (fun _ => rfl) fun _ _ h => h) <|
    .field (.optional_string (fun _ => rfl) fun _ _ h => h) <|
    .field (.optional .map (fun _ => nofun) (fun _ => rfl) (fun _ h => h.2.2.1)
      (fun _ _ hv h => ⟨h.1, h.2.1, hv, h.2.2.2⟩) fun _ h => h.1) <|
    .field (.optional .map (fun _ => nofun) (fun _ => rfl) (fun _ h => h.2.2.2)
      (fun _ _ hv h => ⟨h.1, h.2.1, h.2.2.1, hv⟩) fun _ h => h.2) <|
    .done fun _ => rfl

end Event

/-! Results of deliveries. -/

namespace DeliveryError

def Sound (e : DeliveryError) : Prop :=
  (∀ n ∈ e.retryAfter, IsU64 n) ∧ ∀ m ∈ e.details, Sorted (.object m)

def Whole (e : DeliveryError) : Prop :=
  ∀ m ∈ e.details, Integral (.object m)

theorem faithful : Faithful record.codec Sound Whole :=
  Record.faithful (by decide) ⟨fun _ => nofun, fun _ => nofun⟩ <|
    .field (.required_free (.names (by decide) fun kind => by cases kind <;> decide)
      fun _ _ h => h) <|
    .field (.required_free .string fun _ _ h => h) <|
    .field (.optional .u64 (fun _ => nofun) (fun _ => rfl) (fun _ h => h.1)
      (fun _ _ hv h => ⟨hv, h.2⟩) fun _ _ _ _ => trivial) <|
    .field (.required_free .bool fun _ _ h => h) <|
    .field (.optional .map (fun _ => nofun) (fun _ => rfl) (fun _ h => h.2)
      (fun _ _ hv h => ⟨h.1, hv⟩) fun _ h => h) <|
    .done fun _ => rfl

end DeliveryError

namespace DeliveryResult

def Sound (r : DeliveryResult) : Prop :=
  IsU64 r.chunksSent ∧ (∀ n ∈ r.totalSize, IsU64 n) ∧ ∀ e ∈ r.error, e.Sound

def Whole (r : DeliveryResult) : Prop :=
  ∀ e ∈ r.error, e.Whole

theorem faithful : Faithful record.codec Sound Whole :=
  Record.faithful (by decide) ⟨by decide, fun _ => nofun, fun _ => nofun⟩ <|
    .field (.required_free .bool fun _ _ h => h) <|
    .field (.defaulted (.list .string) (fun _ _ _ _ => trivial) (fun _ _ _ h => h)
      fun _ _ _ _ => trivial) <|
    .field (.required .usize (fun _ h => h.1) (fun _ _ hv h => ⟨hv, h.2⟩) fun _ _ => trivial) <|
    .field (.optional .usize (fun _ => nofun) (fun _ => rfl) (fun _ h => h.2.1)
      (fun _ _ hv h => ⟨h.1, hv, h.2.2⟩) fun _ _ _ _ => trivial) <|
    .field (.optional DeliveryError.faithful (fun _ => nofun) (fun _ => rfl) (fun _ h => h.2.2)
      (fun _ _ hv h => ⟨h.1, h.2.1, hv⟩) fun _ h => h) <|
    .done fun _ => rfl

end DeliveryResult

/-! What an adapter says about itself. -/

def ChannelCapabilities.Sound (c : ChannelCapabilities) : Prop :=
  IsU64 c.textLimit ∧ ∀ n ∈ c.captionLimit, IsU64 n

theorem ChannelCapabilities.faithful : Faithful record.codec Sound fun _ => True :=
  Record.faithful (by decide) ⟨by decide, fun _ => nofun⟩ <|
    .field (.defaulted .usize (fun _ h => h.1) (fun _ _ hv h => ⟨hv, h.2⟩) fun _ _ => trivial) <|
    .field (.optional .usize (fun _ => nofun) (fun _ => rfl) (fun _ h => h.2)
      (fun _ _ hv h => ⟨h.1, hv⟩) fun _ _ _ _ => trivial) <|
    .field (.defaulted_free .bool fun _ _ h => h) <|
    .field (.optional_string (fun _ => rfl) fun _ _ h => h) <|
    .field (.defaulted_free .bool fun _ _ h => h) <|
    .field (.defaulted_free .bool fun _ _ h => h) <|
    .field (.defaulted_free .bool fun _ _ h => h) <|
    .field (.defaulted_free .bool fun _ _ h => h) <|
    .field (.defaulted_free .bool fun _ _ h => h) <|
    .field (.defaulted_free .bool fun _ _ h => h) <|
    .field (.defaulted_free .bool fun _ _ h => h) <|
    .field (.defaulted_free .bool fun _ _ h => h) <|
    .field (.defaulted_free .bool fun _ _ h => h) <|
    .field (.defaulted_free .bool fun _ _ h => h) <|
    .field (.defaulted_free .bool fun _ _ h => h) <|
    .field (.defaulted_free .bool fun _ _ h => h) <|
    .done fun _ => rfl

def AdapterInfo.Sound (info : AdapterInfo) : Prop :=
  info.capabilities.Sound

theorem AdapterInfo.faithful : Faithful record.codec Sound fun _ => True :=
  Record.faithful (by decide) ⟨by decide, fun _ => nofun⟩ <|
    .field (.required_free .string fun _ _ h => h) <|
    .field (.required_free .string fun _ _ h => h) <|
    .field (.required_free .string fun _ _ h => h) <|
    .field (.required (.list (.names (by decide) fun c => by cases c <;> decide))
      (fun _ _ _ _ => trivial) (fun _ _ _ h => h) fun _ _ _ _ => trivial) <|
    .field (.optional_string (fun _ => rfl) fun _ _ h => h) <|
    .field (.defaulted_free .bool fun _ _ h => h) <|
    .field (.required ChannelCapabilities.faithful (fun _ h => h) (fun _ _ hv _ => hv)
      fun _ _ => trivial) <|
    .done fun _ => rfl

namespace AdapterHealth

def Sound (health : AdapterHealth) : Prop :=
  (∀ n ∈ health.lastEvent, IsI64 n) ∧ ∀ m ∈ health.details, Sorted (.object m)

def Whole (health : AdapterHealth) : Prop :=
  ∀ m ∈ health.details, Integral (.object m)

theorem faithful : Faithful record.codec Sound Whole :=
  Record.faithful (by decide) ⟨fun _ => nofun, fun _ => nofun⟩ <|
    .field (.required_free .bool fun _ _ h => h) <|
    .field (.required_free .string fun _ _ h => h) <|
    .field (.optional .i64 (fun _ => nofun) (fun _ => rfl) (fun _ h => h.1)
      (fun _ _ hv h => ⟨hv, h.2⟩) fun _ _ _ _ => trivial) <|
    .field (.optional_string (fun _ => rfl) fun _ _ h => h) <|
    .field (.optional .map (fun _ => nofun) (fun _ => rfl) (fun _ h => h.2)
      (fun _ _ hv h => ⟨h.1, hv⟩) fun _ h => h) <|
    .done fun _ => rfl

end AdapterHealth

/-! Streams. -/

namespace Stream

theorem Start.faithful : Faithful record.codec (fun _ => True) fun _ => True :=
  Record.faithful (by decide) trivial <|
    .field (.optional_string (fun _ => rfl) fun _ _ h => h) <|
    .field (.optional_string (fun _ => rfl) fun _ _ h => h) <|
    .field (.optional DeliveryTarget.faithful (fun _ => nofun) (fun _ => rfl)
      (fun _ _ _ _ => trivial) (fun _ _ _ h => h) fun _ _ _ _ => trivial) <|
    .done fun _ => rfl

theorem Delta.faithful : Faithful record.codec (fun _ => True) fun _ => True :=
  Record.faithful (by decide) trivial <|
    .field (.defaulted_free .string fun _ _ h => h) <|
    .done fun _ => rfl

theorem Tool.faithful : Faithful record.codec (fun _ => True) fun _ => True :=
  Record.faithful (by decide) trivial <|
    .field (.defaulted_free .string fun _ _ h => h) <|
    .field (.optional_string (fun _ => rfl) fun _ _ h => h) <|
    .field (.optional_string (fun _ => rfl) fun _ _ h => h) <|
    .field (.optional_string (fun _ => rfl) fun _ _ h => h) <|
    .done fun _ => rfl

theorem Finish.faithful : Faithful record.codec (fun _ => True) fun _ => True :=
  Record.faithful (by decide) trivial <|
    .field (.optional_string (fun _ => rfl) fun _ _ h => h) <|
    .field (.defaulted_free .bool fun _ _ h => h) <|
    .done fun _ => rfl

theorem Failure.faithful : Faithful record.codec (fun _ => True) fun _ => True :=
  Record.faithful (by decide) trivial <|
    .field (.defaulted_free .string fun _ _ h => h) <|
    .field (.defaulted_free .bool fun _ _ h => h) <|
    .done fun _ => rfl

theorem Event.faithful : Faithful union.codec (fun _ => True) fun _ => True := by
  refine Union.faithful (by decide) (fun _ _ _ _ _ => trivial) fun e _ => ?_
  have hmem (kind : Kind) : kind.case ∈ union.cases :=
    List.mem_map_of_mem (by cases kind <;> decide)
  cases e with
  | start p => exact ⟨_, _, .of Start.faithful (by decide) trivial id (hmem .start) rfl⟩
  | token p => exact ⟨_, _, .of Delta.faithful (by decide) trivial id (hmem .token) rfl⟩
  | tool p => exact ⟨_, _, .of Tool.faithful (by decide) trivial id (hmem .tool) rfl⟩
  | reasoning p => exact ⟨_, _, .of Delta.faithful (by decide) trivial id (hmem .reasoning) rfl⟩
  | finish p => exact ⟨_, _, .of Finish.faithful (by decide) trivial id (hmem .finish) rfl⟩
  | failure p => exact ⟨_, _, .of Failure.faithful (by decide) trivial id (hmem .failure) rfl⟩

theorem Created.faithful : Faithful record.codec (fun _ => True) fun _ => True :=
  Record.faithful (by decide) trivial <|
    .field (.required_free .string fun _ _ h => h) <|
    .done fun _ => rfl

theorem Updated.faithful : Faithful record.codec (fun p => IsU64 p.size) fun _ => True :=
  Record.faithful (by decide) (by decide) <|
    .field (.required_free .string fun _ _ h => h) <|
    .field (.required .usize (fun _ h => h) (fun _ _ hv _ => hv) fun _ _ => trivial) <|
    .done fun _ => rfl

theorem Sent.faithful : Faithful record.codec (fun _ => True) fun _ => True :=
  Record.faithful (by decide) trivial <|
    .field (.required_free .string fun _ _ h => h) <|
    .field (.required_free .bool fun _ _ h => h) <|
    .done fun _ => rfl

theorem Complete.faithful : Faithful record.codec (fun _ => True) fun _ => True :=
  Record.faithful (by decide) trivial <|
    .field (.required (.list .string) (fun _ _ _ _ => trivial) (fun _ _ _ h => h)
      fun _ _ _ _ => trivial) <|
    .done fun _ => rfl

theorem Fault.faithful : Faithful record.codec (fun _ => True) fun _ => True :=
  Record.faithful (by decide) trivial <|
    .field (.required_free .string fun _ _ h => h) <|
    .done fun _ => rfl

def Status.Sound : Status → Prop
  | .updated p => IsU64 p.size
  | _ => True

theorem Status.faithful : Faithful union.codec Sound fun _ => True := by
  refine Union.faithful (by decide) (fun c hc => ?_) fun status h => ?_
  · simp only [union, List.mem_cons, List.not_mem_nil, or_false] at hc
    rcases hc with rfl | rfl | rfl | rfl | rfl
    · exact Case.sound_decode Created.faithful fun _ _ => trivial
    · exact Case.sound_decode Updated.faithful fun _ h => h
    · exact Case.sound_decode Sent.faithful fun _ _ => trivial
    · exact Case.sound_decode Complete.faithful fun _ _ => trivial
    · exact Case.sound_decode Fault.faithful fun _ _ => trivial
  · cases status with
    | created p =>
        exact ⟨_, _, .of Created.faithful (by decide) trivial id (.head _) rfl⟩
    | updated p =>
        exact ⟨_, _, .of Updated.faithful (by decide) h id (.tail _ (.head _)) rfl⟩
    | sent p =>
        exact ⟨_, _, .of Sent.faithful (by decide) trivial id (.tail _ (.tail _ (.head _))) rfl⟩
    | complete p =>
        exact ⟨_, _, .of Complete.faithful (by decide) trivial id
          (.tail _ (.tail _ (.tail _ (.head _)))) rfl⟩
    | fault p =>
        exact ⟨_, _, .of Fault.faithful (by decide) trivial id
          (.tail _ (.tail _ (.tail _ (.tail _ (.head _))))) rfl⟩

end Stream

/-! All records. -/

inductive Wire
  | event | attachment | sendRequest | deliveryResult | deliveryError | streamEvent
  | deliveryTarget | streamStatus | info | capabilities | health | account
  deriving DecidableEq, Repr

namespace Wire

@[reducible] def Value : Wire → Type
  | .event => Event
  | .attachment => Attachment
  | .sendRequest => SendRequest
  | .deliveryResult => DeliveryResult
  | .deliveryError => DeliveryError
  | .streamEvent => Stream.Event
  | .deliveryTarget => DeliveryTarget
  | .streamStatus => Stream.Status
  | .info => AdapterInfo
  | .capabilities => ChannelCapabilities
  | .health => AdapterHealth
  | .account => AdapterAccount

def codec : (w : Wire) → Codec w.Value
  | .event => Event.record.codec
  | .attachment => Attachment.record.codec
  | .sendRequest => SendRequest.record.codec
  | .deliveryResult => DeliveryResult.record.codec
  | .deliveryError => DeliveryError.record.codec
  | .streamEvent => Stream.Event.union.codec
  | .deliveryTarget => DeliveryTarget.record.codec
  | .streamStatus => Stream.Status.union.codec
  | .info => AdapterInfo.record.codec
  | .capabilities => ChannelCapabilities.record.codec
  | .health => AdapterHealth.record.codec
  | .account => AdapterAccount.record.codec

/-- The values that there are: their numbers have 64 bits, and the keys of their maps are sorted. -/
def Sound : (w : Wire) → w.Value → Prop
  | .event => Event.Sound
  | .attachment => Attachment.Sound
  | .deliveryResult => DeliveryResult.Sound
  | .deliveryError => DeliveryError.Sound
  | .streamStatus => Stream.Status.Sound
  | .info => AdapterInfo.Sound
  | .capabilities => ChannelCapabilities.Sound
  | .health => AdapterHealth.Sound
  | .sendRequest | .streamEvent | .deliveryTarget | .account => fun _ => True

/-- The numbers in free-form maps are integers that fit into 64 bits. -/
def Whole : (w : Wire) → w.Value → Prop
  | .event => Event.Whole
  | .deliveryResult => DeliveryResult.Whole
  | .deliveryError => DeliveryError.Whole
  | .health => AdapterHealth.Whole
  | .attachment | .sendRequest | .streamEvent | .deliveryTarget | .streamStatus | .info
  | .capabilities | .account => fun _ => True

theorem faithful (w : Wire) : Faithful w.codec w.Sound w.Whole := by
  cases w with
  | event => exact Event.faithful
  | attachment => exact Attachment.faithful
  | sendRequest => exact SendRequest.faithful
  | deliveryResult => exact DeliveryResult.faithful
  | deliveryError => exact DeliveryError.faithful
  | streamEvent => exact Stream.Event.faithful
  | deliveryTarget => exact DeliveryTarget.faithful
  | streamStatus => exact Stream.Status.faithful
  | info => exact AdapterInfo.faithful
  | capabilities => exact ChannelCapabilities.faithful
  | health => exact AdapterHealth.faithful
  | account => exact AdapterAccount.faithful

/-- A record is read as what has been written, and what has been read of any text can be written and
read again without a change of the record or of its text. -/
theorem record_round_trip (w : Wire) :
    (∀ a, w.Sound a → w.Whole a → depth (w.codec.encode a) ≤ maxDepth →
      w.codec.read (w.codec.write a) = .ok a) ∧
    ∀ text a, w.codec.read text = .ok a → w.Whole a → depth (w.codec.encode a) ≤ maxDepth →
      ∃ b, w.codec.read (w.codec.write a) = .ok b ∧ b = a ∧
        w.codec.write b = w.codec.write a := by
  constructor
  · intro a hsound hwhole hdepth
    exact w.faithful.read_write hsound hwhole hdepth
  · intro text a hread hwhole hdepth
    have hsound := w.faithful.sound_read hread
    exact ⟨a, w.faithful.read_write hsound hwhole hdepth, rfl, rfl⟩

def sample : Event :=
  { Event.draft "irc" "irc:1" with
    metadata := some []
    deliveryMetadata := some [("hops", .int (-1)), ("path", .array [.object [], .null])] }

theorem record_round_trip_sample :
    event.Sound sample ∧ event.Whole sample ∧ depth (event.codec.encode sample) ≤ maxDepth ∧
      event.codec.read (event.codec.write sample) = .ok sample ∧
      ∃ b, event.codec.read (event.codec.write sample) = .ok b ∧ b = sample ∧
        event.codec.write b = event.codec.write sample := by
  have hsound : event.Sound sample := by
    refine ⟨by decide, List.forall_mem_nil _, fun m hm => ?_, fun m hm => ?_⟩
    · cases hm
      exact .object .nil (List.forall_mem_nil _)
    · cases hm
      have hpath : Sorted (.array [.object [], .null]) :=
        .array (by simpa using ⟨.object .nil (List.forall_mem_nil _), .null⟩)
      exact .object (by decide +kernel) (by simpa using ⟨.number _, hpath⟩)
  have hwhole : event.Whole sample := by
    refine ⟨fun m hm => ?_, fun m hm => ?_⟩
    · cases hm
      exact .object (List.forall_mem_nil _)
    · cases hm
      have hpath : Integral (.array [.object [], .null]) :=
        .array (by simpa using ⟨.object (List.forall_mem_nil _), .null⟩)
      exact .object (by simpa using ⟨.integer (by decide), hpath⟩)
  have hdepth : depth (event.codec.encode sample) ≤ maxDepth := by decide +kernel
  have hread := (record_round_trip event).1 sample hsound hwhole hdepth
  exact ⟨hsound, hwhole, hdepth, hread, (record_round_trip event).2 _ sample hread hwhole hdepth⟩

end Wire

end ChannelAdapter
