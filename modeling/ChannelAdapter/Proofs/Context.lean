import ChannelAdapter.Context
import ChannelAdapter.Proofs.Json.Given
import ChannelAdapter.Proofs.Json.Record
/-!
Which texts are runtime contexts, what is read of them, and what is wrong with the others. A context
that has been read is written as a text of which it is read again.
-/

namespace ChannelAdapter

open Json
open Codec (Faithful)

namespace Credential

/-- What a credential is given as: nothing of it is needed, and some of it may be null. -/
inductive Given : Node → Credential → Prop
  | fields {n : Node} {kind value reference service account : Option Node} {c : Credential}
      (gives : Gives ["kind", "value", "ref", "service", "account"] n
        [kind, value, reference, service, account])
      (hkind : OrElse IsString "" kind c.kind) (hvalue : OrElse IsString "" value c.value)
      (hreference : OrElse (Nullable IsString) none reference c.reference)
      (hservice : OrElse (Nullable IsString) none service c.service)
      (haccount : OrElse (Nullable IsString) none account c.account) : Given n c

theorem given_iff {n : Node} {c : Credential} : record.decode n = .ok c ↔ Given n c := by
  have hoptional {n : Node} {o : Option String} :
      Codec.string.option.decode n = .ok o ↔ Nullable IsString n o :=
    Codec.option_decode_iff Codec.string_decode_iff nofun
  have hcommutes : record.fields.Pairwise Field.Commutes := by
    simp [record, Field.defaulted, Field.optional, Field.omitted]
  rw [Record.decode_eq_ok_iff (by decide) hcommutes]
  constructor
  · rintro ⟨_, hgives, hfills⟩
    obtain ⟨_, _, kind, rfl, hkind, hfills⟩ :=
      (fills_value_iff Codec.string_decode_iff rfl).mp hfills
    obtain ⟨_, _, value, rfl, hvalue, hfills⟩ :=
      (fills_value_iff Codec.string_decode_iff rfl).mp hfills
    obtain ⟨_, _, reference, rfl, hreference, hfills⟩ := (fills_value_iff hoptional rfl).mp hfills
    obtain ⟨_, _, service, rfl, hservice, hfills⟩ := (fills_value_iff hoptional rfl).mp hfills
    obtain ⟨_, _, account, rfl, haccount, hfills⟩ := (fills_value_iff hoptional rfl).mp hfills
    cases hfills
    exact .fields hgives hkind hvalue hreference hservice haccount
  · rintro ⟨hgives, hkind, hvalue, hreference, hservice, haccount⟩
    refine ⟨_, hgives, ?_⟩
    refine (fills_value_iff Codec.string_decode_iff rfl).mpr ⟨_, _, _, rfl, hkind, ?_⟩
    refine (fills_value_iff Codec.string_decode_iff rfl).mpr ⟨_, _, _, rfl, hvalue, ?_⟩
    refine (fills_value_iff hoptional rfl).mpr ⟨_, _, _, rfl, hreference, ?_⟩
    refine (fills_value_iff hoptional rfl).mpr ⟨_, _, _, rfl, hservice, ?_⟩
    refine (fills_value_iff hoptional rfl).mpr ⟨_, _, _, rfl, haccount, ?_⟩
    exact .done

theorem faithful : Faithful record.codec (fun _ => True) fun _ => True :=
  Record.faithful (by decide) trivial <|
    .field (.defaulted_free .string fun _ _ h => h) <|
    .field (.defaulted_free .string fun _ _ h => h) <|
    .field (.optional_string (fun _ => rfl) fun _ _ h => h) <|
    .field (.optional_string (fun _ => rfl) fun _ _ h => h) <|
    .field (.optional_string (fun _ => rfl) fun _ _ h => h) <|
    .done fun _ => rfl

end Credential

namespace RuntimeContext

/-! What is read. -/

inductive IsConfig : Node → List (String × Json) → Prop
  | null : IsConfig .null []
  | object {fields : List (String × Node)} {config : List (String × Json)}
      (h : (Node.object fields).value? = some (.object config)) : IsConfig (.object fields) config

theorem isConfig_iff {n : Node} {config : List (String × Json)} :
    config?.decode n = .ok config ↔ IsConfig n config := by
  cases n with
  | null =>
      constructor
      · rintro ⟨⟩
        exact .null
      · rintro ⟨⟩
        rfl
  | object fields =>
      have hvalue : (Node.object fields).value? = some (.object config) ↔
          Node.fieldValues? [] fields = some config := by
        simp [Node.value?]
      have hread : config?.decode (.object fields) = .ok config ↔
          Node.fieldValues? [] fields = some config := by
        simp only [config?, Codec.option, Codec.map]
        cases Node.fieldValues? [] fields <;> simp [Except.map]
      rw [hread, ← hvalue]
      constructor
      · exact .object
      · intro h
        cases h with
        | object hconfig => exact hconfig
  | bool | number | string | array | unusable =>
      constructor
      · intro h
        cases h
      · intro h
        cases h

inductive Given : Node → RuntimeContext → Prop
  | fields {n : Node} {version channel account config credential : Option Node}
      {c : RuntimeContext}
      (gives : Gives ["version", "channel", "account_id", "config", "credential"] n
        [version, channel, account, config, credential])
      (hversion : OrElse (Nullable (IsNatural 0xFFFFFFFF)) none version c.version)
      (hchannel : OrElse IsString "" channel c.channel)
      (haccount : OrElse IsString "" account c.account)
      (hconfig : OrElse IsConfig [] config c.config)
      (hcredential : OrElse (Nullable Credential.Given) none credential c.credential) : Given n c

theorem given_iff {n : Node} {c : RuntimeContext} : record.decode n = .ok c ↔ Given n c := by
  have hversion {n : Node} {o : Option Nat} :
      Codec.u32.option.decode n = .ok o ↔ Nullable (IsNatural 0xFFFFFFFF) n o :=
    Codec.option_decode_iff Codec.natural_decode_iff nofun
  have hcredential {n : Node} {o : Option Credential} :
      Credential.record.codec.option.decode n = .ok o ↔ Nullable Credential.Given n o := by
    refine Codec.option_decode_iff Credential.given_iff fun c => ?_
    rintro ⟨⟨⟩⟩
  have hcommutes : record.fields.Pairwise Field.Commutes := by
    simp [record, Field.defaulted, Field.optional, Field.omitted]
  rw [Record.decode_eq_ok_iff (by decide) hcommutes]
  constructor
  · rintro ⟨_, hgives, hfills⟩
    obtain ⟨_, _, _, rfl, hversion, hfills⟩ := (fills_value_iff hversion rfl).mp hfills
    obtain ⟨_, _, _, rfl, hchannel, hfills⟩ :=
      (fills_value_iff Codec.string_decode_iff rfl).mp hfills
    obtain ⟨_, _, _, rfl, haccount, hfills⟩ :=
      (fills_value_iff Codec.string_decode_iff rfl).mp hfills
    obtain ⟨_, _, _, rfl, hconfig, hfills⟩ := (fills_value_iff isConfig_iff rfl).mp hfills
    obtain ⟨_, _, _, rfl, hcredential, hfills⟩ := (fills_value_iff hcredential rfl).mp hfills
    cases hfills
    exact .fields hgives hversion hchannel haccount hconfig hcredential
  · rintro ⟨hgives, hgiven, hchannel, haccount, hconfig, hsecret⟩
    refine ⟨_, hgives, ?_⟩
    refine (fills_value_iff hversion rfl).mpr ⟨_, _, _, rfl, hgiven, ?_⟩
    refine (fills_value_iff Codec.string_decode_iff rfl).mpr ⟨_, _, _, rfl, hchannel, ?_⟩
    refine (fills_value_iff Codec.string_decode_iff rfl).mpr ⟨_, _, _, rfl, haccount, ?_⟩
    refine (fills_value_iff isConfig_iff rfl).mpr ⟨_, _, _, rfl, hconfig, ?_⟩
    refine (fills_value_iff hcredential rfl).mpr ⟨_, _, _, rfl, hsecret, ?_⟩
    exact .done

/-- The text stands for the context, whether or not that is complete. -/
def Denotes (raw : String) (c : RuntimeContext) : Prop :=
  ∃ n, Node.parse? raw.toList = some n ∧ Given n c

theorem denotes_iff {raw : String} {c : RuntimeContext} :
    record.codec.read raw = .ok c ↔ Denotes raw c := by
  cases hn : Node.parse? raw.toList with
  | none => simp [Codec.read, Denotes, hn]
  | some n =>
      rw [Codec.read_eq_ok_iff hn, Denotes, hn]
      refine given_iff.trans ⟨fun h => ⟨n, rfl, h⟩, ?_⟩
      rintro ⟨_, ⟨⟩, h⟩
      exact h

/-! What has to be filled in. -/

structure Complete (c : RuntimeContext) : Prop where
  channel : c.channel ≠ ""
  account : c.account ≠ ""
  credential : ∀ x ∈ c.credential, x.value ≠ ""

/-- The first field that is empty and must not be. -/
inductive Lacks (c : RuntimeContext) : String → Prop
  | channel (h : c.channel = "") : Lacks c "channel"
  | account (hchannel : c.channel ≠ "") (h : c.account = "") : Lacks c "account_id"
  | credential (hchannel : c.channel ≠ "") (haccount : c.account ≠ "") {x : Credential}
      (hx : c.credential = some x) (h : x.value = "") : Lacks c "credential value"

theorem emptyField?_eq_some_iff {c : RuntimeContext} {field : String} :
    c.emptyField? = some field ↔ c.Lacks field := by
  constructor
  · intro h
    unfold emptyField? at h
    split at h
    · next hchannel =>
        cases h
        exact .channel (String.isEmpty_iff.mp hchannel)
    · next hchannel =>
        split at h
        · next haccount =>
            cases h
            exact .account (by simpa using hchannel) (String.isEmpty_iff.mp haccount)
        · next haccount =>
            split at h
            · next hvalue =>
                cases h
                obtain ⟨x, hx, hempty⟩ := Option.any_eq_true _ _ |>.mp hvalue
                exact .credential (by simpa using hchannel) (by simpa using haccount) hx
                  (String.isEmpty_iff.mp hempty)
            · cases h
  · intro h
    cases h with
    | channel h => simp [emptyField?, h]
    | account hchannel h => simp [emptyField?, hchannel, h]
    | credential hchannel haccount hx h => simp [emptyField?, hchannel, haccount, hx, h]

theorem emptyField?_eq_none_iff {c : RuntimeContext} : c.emptyField? = none ↔ c.Complete := by
  constructor
  · intro h
    have hlacks (field : String) : ¬c.Lacks field := by
      simp [← emptyField?_eq_some_iff, h]
    have hchannel : c.channel ≠ "" := fun h => hlacks _ (.channel h)
    have haccount : c.account ≠ "" := fun h => hlacks _ (.account hchannel h)
    exact ⟨hchannel, haccount, fun x hx h => hlacks _ (.credential hchannel haccount hx h)⟩
  · intro h
    refine Option.eq_none_iff_forall_ne_some.mpr fun field hfield => ?_
    cases emptyField?_eq_some_iff.mp hfield with
    | channel hempty => exact h.channel hempty
    | account _ hempty => exact h.account hempty
    | credential _ _ hx hempty => exact h.credential _ hx hempty

/-! Contexts that are written. -/

def Sound (c : RuntimeContext) : Prop :=
  (∀ n ∈ c.version, n ≤ 0xFFFFFFFF) ∧ Sorted (.object c.config)

def Whole (c : RuntimeContext) : Prop :=
  Integral (.object c.config)

theorem faithful_config : Faithful config? (fun config => Sorted (.object config))
    fun config => Integral (.object config) := by
  have hoption := Faithful.map.option fun _ => nofun
  constructor
  case sound =>
    intro n config h
    obtain ⟨o, ho, rfl⟩ := exists_of_map_eq_ok h
    cases o with
    | none => exact .object .nil (List.forall_mem_nil _)
    | some config => exact hoption.sound n _ ho config rfl
  case decode_encode =>
    intro config h
    have hread := hoption.decode_encode (some config) (by rintro _ ⟨⟩; exact h)
    exact congrArg (Except.map (·.getD [])) hread
  case integral => exact fun _ _ h => h

theorem faithful : Faithful record.codec Sound Whole :=
  Record.faithful (by decide) ⟨fun _ => nofun, .object .nil (List.forall_mem_nil _)⟩ <|
    .field (.optional (.natural "u32" (by decide)) (fun _ => nofun) (fun _ => rfl)
      (fun _ h => h.1) (fun _ _ hv h => ⟨hv, h.2⟩) fun _ _ _ _ => trivial) <|
    .field (.defaulted_free .string fun _ _ h => h) <|
    .field (.defaulted_free .string fun _ _ h => h) <|
    .field (.defaulted faithful_config (fun _ h => h.2) (fun _ _ hv h => ⟨h.1, hv⟩)
      fun _ h => h) <|
    .field (.optional Credential.faithful (fun _ => nofun) (fun _ => rfl) (fun _ _ _ _ => trivial)
      (fun _ _ _ h => h) fun _ _ _ _ => trivial) <|
    .done fun _ => rfl

/-! Contexts that are complete. -/

theorem withKind_eq (c : RuntimeContext) : c.withKind =
    { c with
      credential := c.credential.map fun x =>
        if x.kind = "" then { x with kind := "token" } else x } := by
  simp only [withKind, String.isEmpty_iff]

theorem withKind_withKind (c : RuntimeContext) : c.withKind.withKind = c.withKind := by
  cases hx : c.credential with
  | none => simp [withKind_eq, hx]
  | some x => by_cases hkind : x.kind = "" <;> simp [withKind_eq, hx, hkind]

theorem Complete.withKind {c : RuntimeContext} (h : c.Complete) : c.withKind.Complete := by
  refine ⟨h.channel, h.account, fun x hx => ?_⟩
  rw [withKind_eq] at hx
  obtain ⟨y, hy, rfl⟩ := Option.map_eq_some_iff.mp hx
  split
  · exact h.credential y hy
  · exact h.credential y hy

theorem parse_of_complete {raw : String} {c : RuntimeContext} (hraw : Denotes raw c)
    (h : c.Complete) : parse raw = .ok c.withKind := by
  rw [parse, denotes_iff.mpr hraw]
  simp only [emptyField?_eq_none_iff.mpr h]

theorem parse_of_lacks {raw field : String} {c : RuntimeContext} (hraw : Denotes raw c)
    (h : c.Lacks field) : parse raw = .error (.contextIncomplete field) := by
  rw [parse, denotes_iff.mpr hraw]
  simp only [emptyField?_eq_some_iff.mpr h]

inductive Outcome (raw : String) : Except Error RuntimeContext → Prop
  | malformed {why : ReadError} (h : ¬∃ c, Denotes raw c) :
      Outcome raw (.error (.contextMalformed why))
  | incomplete {c : RuntimeContext} {field : String} (hraw : Denotes raw c) (h : c.Lacks field) :
      Outcome raw (.error (.contextIncomplete field))
  | context {c : RuntimeContext} (hraw : Denotes raw c) (h : c.Complete) :
      Outcome raw (.ok c.withKind)

theorem outcome (raw : String) : Outcome raw (parse raw) := by
  cases hread : record.codec.read raw with
  | error why =>
      have hnone : ¬∃ c, Denotes raw c := by simp [← denotes_iff, hread]
      have hparse : parse raw = .error (.contextMalformed why) := by rw [parse, hread]
      exact hparse ▸ .malformed hnone
  | ok c =>
      have hraw := denotes_iff.mp hread
      cases hempty : c.emptyField? with
      | none =>
          have h := emptyField?_eq_none_iff.mp hempty
          exact parse_of_complete hraw h ▸ .context hraw h
      | some field =>
          have h := emptyField?_eq_some_iff.mp hempty
          exact parse_of_lacks hraw h ▸ .incomplete hraw h

theorem parse_write {raw : String} {c : RuntimeContext} (h : parse raw = .ok c) (hwhole : c.Whole)
    (hdepth : depth (record.codec.encode c) ≤ maxDepth) :
    parse (record.codec.write c) = .ok c := by
  have houtcome := outcome raw
  rw [h] at houtcome
  cases houtcome with
  | @context d hraw hcomplete =>
      have hsound : d.Sound := faithful.sound_read (denotes_iff.mpr hraw)
      have hwritten : Denotes (record.codec.write d.withKind) d.withKind :=
        denotes_iff.mp (faithful.read_write hsound hwhole hdepth)
      rw [parse_of_complete hwritten hcomplete.withKind, withKind_withKind]

/-- A text is read as the context that it denotes if nothing is lacking in that context; a credential
without a kind becomes a token. The context can be written and read again. -/
theorem context_of_text (raw : String) :
    (∀ c, parse raw = .ok c ↔ ∃ d, Denotes raw d ∧ d.Complete ∧
      c = { d with
        credential := d.credential.map fun x =>
          if x.kind = "" then { x with kind := "token" } else x }) ∧
    ((∃ why, parse raw = .error (.contextMalformed why)) ↔ ¬∃ d, Denotes raw d) ∧
    (∀ field, parse raw = .error (.contextIncomplete field) ↔
      ∃ d, Denotes raw d ∧ d.Lacks field) ∧
    (∀ e, parse raw = .error e →
      (∃ why, e = .contextMalformed why) ∨ ∃ field, e = .contextIncomplete field) ∧
    ∀ c, parse raw = .ok c → Integral (.object c.config) →
      depth (record.codec.encode c) ≤ maxDepth → parse (record.codec.write c) = .ok c := by
  have houtcome := outcome raw
  refine ⟨fun c => ⟨fun h => ?_, ?_⟩, ⟨?_, fun h => ?_⟩, fun field => ⟨fun h => ?_, ?_⟩,
    fun e h => ?_, fun c => parse_write⟩
  · rw [h] at houtcome
    cases houtcome with
    | @context d hraw hcomplete => exact ⟨d, hraw, hcomplete, withKind_eq d⟩
  · rintro ⟨d, hraw, hcomplete, rfl⟩
    rw [parse_of_complete hraw hcomplete, withKind_eq]
  · rintro ⟨why, h⟩
    rw [h] at houtcome
    cases houtcome with
    | malformed hnone => exact hnone
  · generalize parse raw = result at houtcome ⊢
    cases houtcome with
    | malformed => exact ⟨_, rfl⟩
    | incomplete hraw => exact absurd ⟨_, hraw⟩ h
    | context hraw => exact absurd ⟨_, hraw⟩ h
  · rw [h] at houtcome
    cases houtcome with
    | incomplete hraw hlacks => exact ⟨_, hraw, hlacks⟩
  · rintro ⟨d, hraw, hlacks⟩
    exact parse_of_lacks hraw hlacks
  · rw [h] at houtcome
    cases houtcome with
    | malformed => exact .inl ⟨_, rfl⟩
    | incomplete => exact .inr ⟨_, rfl⟩

def kindless : RuntimeContext where
  version := some 1
  channel := "gmail"
  account := "work"
  config := [("inbox", .string "/tmp/in"), ("limits", .array [.int 500, .null])]
  credential := some ⟨"", "s3cret", some "google/work", none, none⟩

theorem context_of_text_kindless :
    parse (record.codec.write kindless) = .ok kindless.withKind ∧
      Integral (.object kindless.withKind.config) ∧
      depth (record.codec.encode kindless.withKind) ≤ maxDepth ∧
      parse (record.codec.write kindless.withKind) = .ok kindless.withKind := by
  have hsorted : Sorted (.object kindless.config) := by
    have hlimits : Sorted (.array [.int 500, .null]) := .array (by simpa using ⟨.number _, .null⟩)
    exact .object (by decide +kernel) (by simpa [kindless] using ⟨.string _, hlimits⟩)
  have hwhole : Integral (.object kindless.config) := by
    have hlimits : Integral (.array [.int 500, .null]) :=
      .array (by simpa using ⟨.integer (by decide), .null⟩)
    exact .object (by simpa [kindless] using ⟨.string _, hlimits⟩)
  have hsound : kindless.Sound := ⟨by rintro _ ⟨⟩; decide, hsorted⟩
  have hraw : Denotes (record.codec.write kindless) kindless :=
    denotes_iff.mp (faithful.read_write hsound hwhole (by decide +kernel))
  have hcomplete : kindless.Complete := ⟨by decide, by decide, by rintro _ ⟨⟩; decide⟩
  have hspec := context_of_text (record.codec.write kindless)
  have hparse := (hspec.1 kindless.withKind).mpr ⟨_, hraw, hcomplete, withKind_eq _⟩
  have hdepth : depth (record.codec.encode kindless.withKind) ≤ maxDepth := by decide +kernel
  exact ⟨hparse, hwhole, hdepth, hspec.2.2.2.2 _ hparse hwhole hdepth⟩

end RuntimeContext

end ChannelAdapter
