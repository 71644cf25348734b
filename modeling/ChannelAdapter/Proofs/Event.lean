import Mathlib.Data.List.Induction
import Mathlib.Data.List.Nodup
import ChannelAdapter.Event.Edit
import ChannelAdapter.Proofs.Json.Rearranged
/-!
Events that are built step by step. A step sets what is of its own kind and nothing else, so what an
event says is decided kind by kind, by the last step of each, and steps of different kinds may come
in any order.
-/

namespace ChannelAdapter

theorem Json.eq_of_find?_eq {fields others : List (String × Json)}
    (hfields : fields.Pairwise fun a b => a.1 < b.1)
    (hothers : others.Pairwise fun a b => a.1 < b.1)
    (h : ∀ key, find? key fields = find? key others) : fields = others := by
  have hkeys {l : List (String × Json)} (hl : l.Pairwise fun a b => a.1 < b.1) :
      (l.map Prod.fst).Nodup :=
    List.pairwise_map.mpr (hl.imp fun hlt => Std.ne_of_lt hlt)
  have hmem : ∀ field, field ∈ fields ↔ field ∈ others := by
    intro field
    rw [← find?_eq_some_iff (hkeys hfields), h, find?_eq_some_iff (hkeys hothers)]
  have hperm : fields.Perm others :=
    (List.perm_ext_iff_of_nodup (List.Nodup.of_map _ (hkeys hfields))
      (List.Nodup.of_map _ (hkeys hothers))).mpr hmem
  exact hperm.eq_of_pairwise
    (fun a b _ _ hab hba => absurd hab (Std.not_lt.mpr (Std.le_of_lt hba))) hfields hothers

namespace Event

/-! What steps set. -/

/-- What a step is about: fields that are set together, or one key of a map. -/
inductive Edit.Kind
  | timestamp | content | contentType | account | thread | replyTo | containerName
  | sender | container | space | attachment
  | metadata (key : String)
  | deliveryMetadata (key : String)

abbrev Edit.Kind.Value : Kind → Type
  | .timestamp => Int
  | .content | .contentType | .account => String
  | .thread | .replyTo | .containerName => Option String
  | .sender => String × Option String
  | .container => String × String
  | .space => Option String × Option String
  | .attachment => Attachment
  | .metadata _ | .deliveryMetadata _ => Json

/-- What a step sets, if it is of a kind. Both ways to give a time are of one kind. -/
def Edit.value? : (kind : Kind) → Edit → Option kind.Value
  | .timestamp, .instant t => some t.milliseconds
  | .timestamp, .timestamp ms => some ms
  | .content, .content text => some text
  | .contentType, .contentType type => some type
  | .account, .account id => some id
  | .thread, .thread id => some (some id)
  | .replyTo, .replyTo id => some (some id)
  | .containerName, .containerName name => some (some name)
  | .sender, .sender id name => some (id, name)
  | .container, .container id kind => some (id, kind)
  | .space, .space id name => some (some id, name)
  | .attachment, .attachment file => some file
  | .metadata key, .metadata k value => if key = k then some value else none
  | .deliveryMetadata key, .deliveryMetadata k value => if key = k then some value else none
  | _, _ => none

def values (kind : Edit.Kind) (edits : List Edit) : List kind.Value :=
  edits.filterMap (Edit.value? kind)

/-- What the last step of a kind sets, or the initial value. -/
def last (kind : Edit.Kind) (edits : List Edit) (initial : kind.Value) : kind.Value :=
  (values kind edits).getLast?.getD initial

/-- The map of the last value for each key. There is none if no step sets a key. -/
structure MapOf (given : String → List Json) (m : Option (List (String × Json))) : Prop where
  eq_none_iff : m = none ↔ ∀ key, given key = []
  sorted : ∀ fields ∈ m, fields.Pairwise fun a b => a.1 < b.1
  find? : ∀ key, m.bind (Json.find? key) = (given key).getLast?

structure Built (draft : Event) (edits : List Edit) (e : Event) : Prop where
  id : e.id = draft.id
  platform : e.platform = draft.platform
  threadName : e.threadName = draft.threadName
  timestamp : e.timestamp = last .timestamp edits draft.timestamp
  content : e.content = last .content edits draft.content
  contentType : e.contentType = last .contentType edits draft.contentType
  account : e.account = last .account edits draft.account
  thread : e.thread = last .thread edits draft.thread
  replyTo : e.replyTo = last .replyTo edits draft.replyTo
  containerName : e.containerName = last .containerName edits draft.containerName
  sender : (e.sender, e.senderName) = last .sender edits (draft.sender, draft.senderName)
  container :
    (e.container, e.containerKind) = last .container edits (draft.container, draft.containerKind)
  space : (e.space, e.spaceName) = last .space edits (draft.space, draft.spaceName)
  attachments : e.attachments = values .attachment edits
  metadata : MapOf (fun key => values (.metadata key) edits) e.metadata
  deliveryMetadata : MapOf (fun key => values (.deliveryMetadata key) edits) e.deliveryMetadata

/-- Steps of each kind set the same, one after the other. -/
def Agree (edits others : List Edit) : Prop :=
  ∀ kind, values kind edits = values kind others

/-! Fields. -/

theorem values_cons (kind : Edit.Kind) (edit : Edit) (edits : List Edit) :
    values kind (edit :: edits) = (edit.value? kind).toList ++ values kind edits := by
  rw [values, values, List.filterMap_cons]
  cases edit.value? kind <;> rfl

theorem Agree.eq_of_last {edits others : List Edit} (h : Agree edits others) (kind : Edit.Kind)
    {initial a b : kind.Value} (ha : a = last kind edits initial)
    (hb : b = last kind others initial) : a = b := by
  rw [ha, hb, last, h kind, last]

theorem foldl_apply_eq_last (kind : Edit.Kind) (get : Event → kind.Value)
    (hstep : ∀ e edit, get (Edit.apply e edit) = (edit.value? kind).getD (get e))
    (edits : List Edit) (e : Event) :
    get (edits.foldl Edit.apply e) = last kind edits (get e) := by
  induction edits generalizing e with
  | nil => rfl
  | cons edit edits ih =>
      rw [List.foldl_cons, ih, hstep, last, last, values_cons]
      cases edit.value? kind with
      | none => rfl
      | some value =>
          rw [Option.toList_some, List.singleton_append, List.getLast?_cons]
          rfl

theorem foldl_apply_eq (get : Event → α) (hstep : ∀ e edit, get (Edit.apply e edit) = get e)
    (edits : List Edit) (e : Event) : get (edits.foldl Edit.apply e) = get e := by
  induction edits generalizing e with
  | nil => rfl
  | cons edit edits ih => rw [List.foldl_cons, ih, hstep]

theorem foldl_apply_eq_append (kind : Edit.Kind) (get : Event → List kind.Value)
    (hstep : ∀ e edit, get (Edit.apply e edit) = get e ++ (edit.value? kind).toList)
    (edits : List Edit) (e : Event) :
    get (edits.foldl Edit.apply e) = get e ++ values kind edits := by
  induction edits generalizing e with
  | nil => exact (List.append_nil _).symm
  | cons edit edits ih =>
      rw [List.foldl_cons, ih, hstep, values_cons, List.append_assoc]

/-! Maps. -/

section
variable {given : String → List Json} {m : Option (List (String × Json))}

theorem mapOf_none : MapOf (fun _ => []) none :=
  ⟨by simp, fun _ => nofun, fun _ => rfl⟩

theorem MapOf.setKey (h : MapOf given m) (key : String) (value : Json) :
    MapOf (fun k => given k ++ (if k = key then some value else none).toList)
      (setKey key value m) where
  eq_none_iff := by
    refine ⟨nofun, fun hnone => ?_⟩
    have hkey := hnone key
    rw [if_pos rfl] at hkey
    exact absurd hkey (by simp)
  sorted := by
    intro fields hfields
    cases hfields
    apply Json.pairwise_insert
    cases m with
    | none => exact .nil
    | some fields => exact h.sorted fields rfl
  find? := by
    intro k
    rw [Event.setKey, Option.bind_some, Json.find?_insert]
    by_cases hk : k = key
    · rw [if_pos hk, if_pos hk, Option.toList_some, List.getLast?_concat]
    · rw [if_neg hk, if_neg hk, Option.toList_none, List.append_nil, ← h.find? k]
      cases m <;> rfl

theorem MapOf.unique (h : MapOf given m) {m' : Option (List (String × Json))}
    (h' : MapOf given m') : m = m' := by
  have hnone : m = none ↔ m' = none := h.eq_none_iff.trans h'.eq_none_iff.symm
  cases m with
  | none => exact (hnone.mp rfl).symm
  | some fields =>
      cases m' with
      | none => exact hnone.mpr rfl
      | some others =>
          apply congrArg some
          apply Json.eq_of_find?_eq (h.sorted fields rfl) (h'.sorted others rfl)
          intro key
          exact (h.find? key).trans (h'.find? key).symm

end

/-- What a step does to a map: it sets one key, or nothing. -/
inductive Touches (value? : String → Option Json) (m : Option (List (String × Json))) :
    Option (List (String × Json)) → Prop
  | key (key : String) (value : Json)
      (hvalue : value? = fun k => if k = key then some value else none) :
      Touches value? m (setKey key value m)
  | nothing (hvalue : value? = fun _ => none) : Touches value? m m

theorem MapOf.concat {given : String → List Json} {m m' : Option (List (String × Json))}
    (h : MapOf given m) {value? : String → Option Json} (htouch : Touches value? m m') :
    MapOf (fun key => given key ++ (value? key).toList) m' := by
  cases htouch with
  | key key value hvalue =>
      subst hvalue
      exact h.setKey key value
  | nothing hvalue =>
      subst hvalue
      simpa using h

theorem filterMap_concat (f : Edit → Option α) (edits : List Edit) (edit : Edit) :
    (edits ++ [edit]).filterMap f = edits.filterMap f ++ (f edit).toList := by
  cases h : f edit <;> simp [h]

theorem mapOf_foldl_apply {value? : String → Edit → Option Json}
    {get : Event → Option (List (String × Json))}
    (hstep : ∀ e edit, Touches (value? · edit) (get e) (get (Edit.apply e edit))) {draft : Event}
    (hdraft : get draft = none) (edits : List Edit) :
    MapOf (fun key => edits.filterMap (value? key)) (get (edits.foldl Edit.apply draft)) := by
  induction edits using List.reverseRecOn with
  | nil =>
      rw [List.foldl_nil, hdraft]
      exact mapOf_none
  | append_singleton edits edit ih =>
      rw [List.foldl_append]
      simp only [filterMap_concat]
      exact ih.concat (hstep (edits.foldl Edit.apply draft) edit)

theorem touches_metadata (e : Event) (edit : Edit) :
    Touches (fun key => edit.value? (.metadata key)) e.metadata (Edit.apply e edit).metadata := by
  cases edit with
  | metadata key value => exact .key key value rfl
  | _ => exact .nothing rfl

theorem touches_deliveryMetadata (e : Event) (edit : Edit) :
    Touches (fun key => edit.value? (.deliveryMetadata key)) e.deliveryMetadata
      (Edit.apply e edit).deliveryMetadata := by
  cases edit with
  | deliveryMetadata key value => exact .key key value rfl
  | _ => exact .nothing rfl

/-! Events. -/

theorem built_foldl_apply {draft : Event} (hattachments : draft.attachments = [])
    (hmetadata : draft.metadata = none) (hdelivery : draft.deliveryMetadata = none)
    (edits : List Edit) : Built draft edits (edits.foldl Edit.apply draft) where
  id := foldl_apply_eq (·.id) (fun _ edit => by cases edit <;> rfl) edits draft
  platform := foldl_apply_eq (·.platform) (fun _ edit => by cases edit <;> rfl) edits draft
  threadName := foldl_apply_eq (·.threadName) (fun _ edit => by cases edit <;> rfl) edits draft
  timestamp :=
    foldl_apply_eq_last .timestamp (·.timestamp) (fun _ edit => by cases edit <;> rfl) edits draft
  content :=
    foldl_apply_eq_last .content (·.content) (fun _ edit => by cases edit <;> rfl) edits draft
  contentType := foldl_apply_eq_last .contentType (·.contentType)
    (fun _ edit => by cases edit <;> rfl) edits draft
  account :=
    foldl_apply_eq_last .account (·.account) (fun _ edit => by cases edit <;> rfl) edits draft
  thread := foldl_apply_eq_last .thread (·.thread) (fun _ edit => by cases edit <;> rfl) edits draft
  replyTo :=
    foldl_apply_eq_last .replyTo (·.replyTo) (fun _ edit => by cases edit <;> rfl) edits draft
  containerName := foldl_apply_eq_last .containerName (·.containerName)
    (fun _ edit => by cases edit <;> rfl) edits draft
  sender := foldl_apply_eq_last .sender (fun e => (e.sender, e.senderName))
    (fun _ edit => by cases edit <;> rfl) edits draft
  container := foldl_apply_eq_last .container (fun e => (e.container, e.containerKind))
    (fun _ edit => by cases edit <;> rfl) edits draft
  space := foldl_apply_eq_last .space (fun e => (e.space, e.spaceName))
    (fun _ edit => by cases edit <;> rfl) edits draft
  attachments := by
    have hadded := foldl_apply_eq_append .attachment (·.attachments)
      (fun e edit => by cases edit <;> simp [Edit.apply, Edit.value?]) edits draft
    rwa [hattachments, List.nil_append] at hadded
  metadata := mapOf_foldl_apply touches_metadata hmetadata edits
  deliveryMetadata := mapOf_foldl_apply touches_deliveryMetadata hdelivery edits

theorem Built.unique {draft e e' : Event} {edits others : List Edit} (h : Built draft edits e)
    (h' : Built draft others e') (hagree : Agree edits others) : e = e' := by
  obtain ⟨hsender, hsenderName⟩ := Prod.mk.inj (hagree.eq_of_last .sender h.sender h'.sender)
  obtain ⟨hcontainer, hkind⟩ := Prod.mk.inj (hagree.eq_of_last .container h.container h'.container)
  obtain ⟨hspace, hspaceName⟩ := Prod.mk.inj (hagree.eq_of_last .space h.space h'.space)
  have hattachments : e.attachments = e'.attachments := by
    rw [h.attachments, h'.attachments, hagree .attachment]
  have hmetadata : e.metadata = e'.metadata := by
    have hmap := h.metadata
    simp only [hagree (.metadata _)] at hmap
    exact hmap.unique h'.metadata
  have hdelivery : e.deliveryMetadata = e'.deliveryMetadata := by
    have hmap := h.deliveryMetadata
    simp only [hagree (.deliveryMetadata _)] at hmap
    exact hmap.unique h'.deliveryMetadata
  cases e
  cases e'
  rw [Event.mk.injEq]
  exact ⟨h.id.trans h'.id.symm, hagree.eq_of_last .timestamp h.timestamp h'.timestamp,
    hagree.eq_of_last .content h.content h'.content,
    hagree.eq_of_last .contentType h.contentType h'.contentType, hattachments,
    h.platform.trans h'.platform.symm, hagree.eq_of_last .account h.account h'.account,
    hsender, hsenderName, hspace, hspaceName, hcontainer, hkind,
    hagree.eq_of_last .containerName h.containerName h'.containerName,
    hagree.eq_of_last .thread h.thread h'.thread, h.threadName.trans h'.threadName.symm,
    hagree.eq_of_last .replyTo h.replyTo h'.replyTo, hmetadata, hdelivery⟩

/-- An event is begun at a time, which steps may replace. Each field of the event is decided by the
steps of its own kind, and steps that agree kind by kind build one event, with one text. -/
theorem fields_of_steps (platform id : String) (now : Int) (edits : List Edit) :
    Built { draft platform id with timestamp := now } edits
        (build platform id (.timestamp now :: edits)) ∧
      Built (draft platform id) edits (build platform id edits) ∧
      ∀ others, Agree edits others →
        build platform id (.timestamp now :: edits) =
            build platform id (.timestamp now :: others) ∧
          build platform id edits = build platform id others ∧
          record.codec.write (build platform id edits) =
            record.codec.write (build platform id others) := by
  have hbegun (edits : List Edit) :
      Built { draft platform id with timestamp := now } edits
        (build platform id (.timestamp now :: edits)) :=
    built_foldl_apply rfl rfl rfl edits
  have hbuilt (edits : List Edit) : Built (draft platform id) edits (build platform id edits) :=
    built_foldl_apply rfl rfl rfl edits
  refine ⟨hbegun edits, hbuilt edits, ?_⟩
  intro others hagree
  have hsame := (hbuilt edits).unique (hbuilt others) hagree
  exact ⟨(hbegun edits).unique (hbegun others) hagree, hsame, by rw [hsame]⟩

/-- A sender is named and then replaced, and a key is set twice. -/
def replaced : List Edit :=
  [.sender "u1" (some "Ann"), .metadata "a" (.int 1), .content "hi", .sender "u2" none,
    .metadata "b" .null, .metadata "a" (.bool true)]

def replacedLater : List Edit :=
  [.metadata "b" .null, .metadata "a" (.int 1), .metadata "a" (.bool true),
    .sender "u1" (some "Ann"), .content "hi", .sender "u2" none]

theorem agree_replaced : Agree replaced replacedLater := by
  intro kind
  cases kind with
  | metadata key =>
      simp only [values, replaced, replacedLater, List.filterMap_cons, Edit.value?]
      by_cases ha : key = "a"
      · subst ha
        rfl
      · by_cases hb : key = "b" <;> simp [ha, hb]
  | _ => rfl

/-- The name goes with the sender that had it, in either order. -/
theorem fields_of_steps_replaced :
    Agree replaced replacedLater ∧
      Built (draft "irc" "irc:1") replaced (build "irc" "irc:1" replaced) ∧
      (build "irc" "irc:1" replacedLater).senderName = none ∧
      (build "irc" "irc:1" replacedLater).metadata = some [("a", .bool true), ("b", .null)] ∧
      build "irc" "irc:1" replaced = build "irc" "irc:1" replacedLater := by
  obtain ⟨-, hbuilt, hagree⟩ := fields_of_steps "irc" "irc:1" 0 replaced
  obtain ⟨-, hsame, -⟩ := hagree replacedLater agree_replaced
  exact ⟨agree_replaced, hbuilt, rfl, rfl, hsame⟩

end Event

end ChannelAdapter
