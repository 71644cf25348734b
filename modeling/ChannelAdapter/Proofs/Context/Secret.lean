import ChannelAdapter.Proofs.Context
import ChannelAdapter.Proofs.Json.Hole
/-!
What a context tells of the value of its credential: nothing. Two texts that differ in that value alone
are refused for the same reason, or read as contexts that differ in that value alone, which logs do not
show.
-/

namespace ChannelAdapter

open Json

namespace Credential

/-- The nodes that credentials with any value are read of: the value is an entry of an object, or the
second element of an array. -/
inductive Holds : (String → Node) → Prop
  | object (before after : List (String × Node)) :
      Holds fun s => .object (before ++ ("value", .string s) :: after)
  | array (kind : Node) (rest : List Node) : Holds fun s => .array (kind :: .string s :: rest)

/-- Credentials that differ in their values alone. -/
def Differ (s t : String) (x y : Credential) : Prop :=
  ∃ z : Credential, x = { z with value := s } ∧ y = { z with value := t }

variable {s t : String}

def secret : Json.Field Credential :=
  .defaulted "value" .string (·.value) fun v r => { r with value := v }

theorem alike_secret (x : Credential) :
    Alike (Differ s t) (secret.decode (.string s) x) (secret.decode (.string t) x) :=
  .ok ⟨x, rfl, rfl⟩

theorem alike_others {f : Json.Field Credential} (hf : f ∈ record.fields) (hname : f.name ≠ "value")
    (n : Node) (x y : Credential) (h : Differ s t x y) :
    Alike (Differ s t) (f.decode n x) (f.decode n y) := by
  obtain ⟨z, rfl, rfl⟩ := h
  simp only [record, List.mem_cons, List.not_mem_nil, or_false] at hf
  rcases hf with rfl | rfl | rfl | rfl | rfl
  · exact .map_of_eq _ fun v => ⟨{ z with kind := v }, rfl, rfl⟩
  · exact absurd rfl hname
  · exact .map_of_eq _ fun v => ⟨{ z with reference := v }, rfl, rfl⟩
  · exact .map_of_eq _ fun v => ⟨{ z with service := v }, rfl, rfl⟩
  · exact .map_of_eq _ fun v => ⟨{ z with account := v }, rfl, rfl⟩

theorem Holds.alike {tree : String → Node} (h : Holds tree) (s t : String) :
    Alike (Differ s t) (record.decode (tree s)) (record.decode (tree t)) := by
  cases h with
  | object before after =>
      exact Record.alike_decode_object alike_secret rfl (fun _ => alike_others) before after
  | array kind rest =>
      have hsplit : record.fields = record.fields.take 1 ++ secret :: record.fields.drop 2 := rfl
      refine Record.alike_decode_array alike_secret hsplit (fun g hg => ?_) [kind] rest rfl
      have hnames : ∀ g ∈ record.fields.drop 2, g.name ≠ "value" := by decide
      exact alike_others (List.mem_of_mem_drop hg) (hnames g hg)

theorem Holds.isUsable_iff {tree : String → Node} (h : Holds tree) (s t : String) :
    (tree s).isUsable ↔ (tree t).isUsable := by
  have hstring (s : String) : (Node.string s).isUsable = true := rfl
  cases h with
  | object =>
      simp only [Node.isUsable_object, List.forall_mem_append, List.forall_mem_cons, hstring]
  | array => simp only [Node.isUsable_array, List.forall_mem_cons, hstring]

end Credential

namespace RuntimeContext

inductive Holds : (String → Node) → Prop
  | object {secret : String → Node} (h : Credential.Holds secret)
      (before after : List (String × Node)) :
      Holds fun s => .object (before ++ ("credential", secret s) :: after)
  | array {secret : String → Node} (h : Credential.Holds secret)
      (version channel account config : Node) (rest : List Node) :
      Holds fun s => .array (version :: channel :: account :: config :: secret s :: rest)

def Differ (s t : String) (c d : RuntimeContext) : Prop :=
  ∃ (e : RuntimeContext) (x : Credential), c = { e with credential := some { x with value := s } } ∧
    d = { e with credential := some { x with value := t } }

variable {s t : String}

def secret : Json.Field RuntimeContext :=
  .optional "credential" Credential.record.codec (·.credential) fun v r =>
    { r with credential := v }

theorem alike_secret {tree : String → Node} (h : Credential.Holds tree) (c : RuntimeContext) :
    Alike (Differ s t) (secret.decode (tree s) c) (secret.decode (tree t) c) := by
  have hread (s : String) : secret.decode (tree s) c =
      (Credential.record.decode (tree s)).map fun x => { c with credential := some x } := by
    have hvalue : Credential.record.codec.option.decode (tree s) =
        (Credential.record.decode (tree s)).map some := by
      cases h <;> rfl
    change (Credential.record.codec.option.decode (tree s)).map _ = _
    rw [hvalue]
    cases Credential.record.decode (tree s) <;> rfl
  rw [hread, hread]
  refine (h.alike s t).map ?_
  rintro _ _ ⟨x, rfl, rfl⟩
  exact ⟨c, x, rfl, rfl⟩

theorem alike_others {f : Json.Field RuntimeContext} (hf : f ∈ record.fields)
    (hname : f.name ≠ "credential") (n : Node) (c d : RuntimeContext) (h : Differ s t c d) :
    Alike (Differ s t) (f.decode n c) (f.decode n d) := by
  obtain ⟨e, x, rfl, rfl⟩ := h
  simp only [record, List.mem_cons, List.not_mem_nil, or_false] at hf
  rcases hf with rfl | rfl | rfl | rfl | rfl
  · exact .map_of_eq _ fun v => ⟨{ e with version := v }, x, rfl, rfl⟩
  · exact .map_of_eq _ fun v => ⟨{ e with channel := v }, x, rfl, rfl⟩
  · exact .map_of_eq _ fun v => ⟨{ e with account := v }, x, rfl, rfl⟩
  · exact .map_of_eq _ fun v => ⟨{ e with config := v }, x, rfl, rfl⟩
  · exact absurd rfl hname

theorem Holds.alike {tree : String → Node} (h : Holds tree) (s t : String) :
    Alike (Differ s t) (record.decode (tree s)) (record.decode (tree t)) := by
  cases h with
  | object h before after =>
      exact Record.alike_decode_object (alike_secret h) rfl (fun _ => alike_others) before after
  | array h version channel account config rest =>
      have hsplit : record.fields = record.fields.take 4 ++ secret :: [] := rfl
      exact Record.alike_decode_array (alike_secret h) hsplit (List.forall_mem_nil _)
        [version, channel, account, config] rest rfl

theorem Holds.isUsable_iff {tree : String → Node} (h : Holds tree) (s t : String) :
    (tree s).isUsable ↔ (tree t).isUsable := by
  cases h with
  | object h =>
      simp only [Node.isUsable_object, List.forall_mem_append, List.forall_mem_cons,
        h.isUsable_iff s t]
  | array h => simp only [Node.isUsable_array, List.forall_mem_cons, h.isUsable_iff s t]

theorem Differ.emptyField?_eq {c d : RuntimeContext} (h : Differ s t c d) (hs : s ≠ "")
    (ht : t ≠ "") : c.emptyField? = d.emptyField? := by
  obtain ⟨e, x, rfl, rfl⟩ := h
  simp [emptyField?, hs, ht]

theorem Differ.withKind {c d : RuntimeContext} (h : Differ s t c d) :
    Differ s t c.withKind d.withKind := by
  obtain ⟨e, x, rfl, rfl⟩ := h
  refine ⟨e, if x.kind = "" then { x with kind := "token" } else x, ?_, ?_⟩ <;>
    rw [withKind_eq] <;> by_cases hkind : x.kind = "" <;> simp [hkind]

theorem Differ.describe_eq {c d : RuntimeContext} (h : Differ s t c d) :
    c.describe = d.describe := by
  obtain ⟨e, x, rfl, rfl⟩ := h
  rfl

theorem Holds.alike_read {tree : String → Node} (h : Holds tree) {raw other : String}
    (hraw : Node.parse? raw.toList = some (tree s))
    (hother : Node.parse? other.toList = some (tree t)) :
    Alike (Differ s t) (record.codec.read raw) (record.codec.read other) := by
  have hread : Alike (Differ s t) (record.codec.decode (tree s)) (record.codec.decode (tree t)) :=
    h.alike s t
  simp only [Codec.read, hraw, hother, h.isUsable_iff s t]
  generalize record.codec.decode (tree s) = x, record.codec.decode (tree t) = y at hread
  cases hread with
  | error p => exact .error _
  | ok h => exact .ok h

theorem Holds.alike_parse {tree : String → Node} (h : Holds tree) (hs : s ≠ "") (ht : t ≠ "")
    {raw other : String} (hraw : Node.parse? raw.toList = some (tree s))
    (hother : Node.parse? other.toList = some (tree t)) :
    Alike (Differ s t) (parse raw) (parse other) := by
  have hread := h.alike_read hraw hother
  rw [parse, parse]
  generalize record.codec.read raw = x, record.codec.read other = y at hread
  cases hread with
  | error why => exact .error _
  | @ok c d h =>
      dsimp only
      rw [h.emptyField?_eq hs ht]
      cases d.emptyField? with
      | some field => exact .error _
      | none => exact .ok h.withKind

/-- Of texts that differ in the value of the credential alone, neither an error nor a log tells which of
them has been read. -/
theorem value_of_credential_hidden {tree : String → Node} (htree : Holds tree) {s t : String}
    (hs : s ≠ "") (ht : t ≠ "") {raw other : String}
    (hraw : Node.parse? raw.toList = some (tree s))
    (hother : Node.parse? other.toList = some (tree t)) :
    (∃ e, parse raw = .error e ∧ parse other = .error e) ∨
      ∃ c d, parse raw = .ok c ∧ parse other = .ok d ∧ Differ s t c d ∧
        c.describe = d.describe := by
  have halike := htree.alike_parse hs ht hraw hother
  generalize parse raw = x, parse other = y at halike
  cases halike with
  | error e => exact .inl ⟨e, rfl, rfl⟩
  | @ok c d h => exact .inr ⟨c, d, rfl, rfl, h, h.describe_eq⟩

/-- A context whose credential is an array, behind a field of the wrong type. -/
def mistyped (s : String) : Json :=
  .object [("channel", .string "gmail"), ("version", .bool true),
    ("credential", .array [.string "token", .string s])]

theorem value_of_credential_hidden_mistyped :
    "hunter2" ≠ "" ∧ "s3cret" ≠ "" ∧
      ((∃ e, parse (mistyped "hunter2").text = .error e ∧
          parse (mistyped "s3cret").text = .error e) ∨
        ∃ c d, parse (mistyped "hunter2").text = .ok c ∧ parse (mistyped "s3cret").text = .ok d ∧
          Differ "hunter2" "s3cret" c d ∧ c.describe = d.describe) := by
  have hholds : Holds fun s => .ofValue (mistyped s) :=
    .object (.array (.string "token") [])
      [("channel", .string "gmail"), ("version", .bool true)] []
  have hparse (s : String) :
      Node.parse? (mistyped s).text.toList = some (.ofValue (mistyped s)) := by
    have hcredential : Integral (.array [.string "token", .string s]) :=
      .array (by simpa using ⟨.string _, .string _⟩)
    have hwhole : Integral (mistyped s) :=
      .object (by simpa using ⟨.string _, .bool _, hcredential⟩)
    exact hwhole.parse?_text (by simp [mistyped, depth, fieldDepth, elementDepth, maxDepth])
  have hhidden := value_of_credential_hidden hholds (by decide) (by decide) (hparse "hunter2")
    (hparse "s3cret")
  exact ⟨by decide, by decide, hhidden⟩

end RuntimeContext

end ChannelAdapter
