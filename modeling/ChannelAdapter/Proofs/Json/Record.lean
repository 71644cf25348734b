import ChannelAdapter.Json.Record
import ChannelAdapter.Proofs.Json.Codec
/-!
Records and unions that are faithful. A record is read field by field in the order in which it has
been written; what is not written of it is what it begins with.
-/

namespace ChannelAdapter.Json

open Codec (Faithful)

variable {R : Type} {P I : R → Prop}

/-! Fields. -/

/-- What has been written of a field takes `acc a`, which is what has been read of `a` before, to
`next a`. A field of which nothing has been written is not needed. -/
def Field.Restores (f : Field R) (a : R) (acc next : R → R) : Prop :=
  match f.encode a with
  | some v => f.decode (.ofValue v) (acc a) = .ok (next a)
  | none => f.isRequired = false ∧ acc a = next a

structure Field.Step (P I : R → Prop) (f : Field R) (acc next : R → R) : Prop where
  sound : ∀ n a b, P a → f.decode n a = .ok b → P b
  restores : ∀ a, P a → f.Restores a acc next
  integral : ∀ a, P a → I a → ∀ v, f.encode a = some v → Integral v

/-- Fields that take what has been read of a record to the whole record. -/
inductive Layout (P I : R → Prop) : (R → R) → List (Field R) → Prop
  | done {acc : R → R} (h : ∀ a, acc a = a) : Layout P I acc []
  | field {acc next : R → R} {f : Field R} {fs : List (Field R)} (step : f.Step P I acc next)
      (rest : Layout P I next fs) : Layout P I acc (f :: fs)

namespace Field.Step

variable {α : Type} {c : Codec α} {Q J : α → Prop} {name : String} {acc : R → R}

section
variable {get : R → α} {set : α → R → R}

theorem of_faithful {f : Field R} (hc : Faithful c Q J)
    (hdecode : ∀ n a, f.decode n a = (c.decode n).map (set · a))
    (hencode : ∀ a, f.encode a = some (c.encode (get a)) ∨
      f.encode a = none ∧ f.isRequired = false ∧ acc a = set (get a) (acc a))
    (hget : ∀ a, P a → Q (get a)) (hset : ∀ v a, Q v → P a → P (set v a))
    (hwhole : ∀ a, I a → J (get a)) : f.Step P I acc fun a => set (get a) (acc a) where
  sound n a b ha h := by
    rw [hdecode] at h
    obtain ⟨v, hv, rfl⟩ := exists_of_map_eq_ok h
    exact hset v a (hc.sound n v hv) ha
  restores a ha := by
    rw [Restores]
    rcases hencode a with h | ⟨h, hoptional, hacc⟩ <;> rw [h]
    · dsimp only
      rw [hdecode, hc.decode_encode _ (hget a ha)]
      rfl
    · exact ⟨hoptional, hacc⟩
  integral a ha hi v hv := by
    rcases hencode a with h | ⟨h, -, -⟩ <;> rw [h] at hv <;> cases hv
    exact hc.integral _ (hget a ha) (hwhole a hi)

theorem required (hc : Faithful c Q J) (hget : ∀ a, P a → Q (get a))
    (hset : ∀ v a, Q v → P a → P (set v a)) (hwhole : ∀ a, I a → J (get a)) :
    (Field.required name c get set).Step P I acc fun a => set (get a) (acc a) :=
  of_faithful hc (fun _ _ => rfl) (fun _ => .inl rfl) hget hset hwhole

theorem defaulted (hc : Faithful c Q J) (hget : ∀ a, P a → Q (get a))
    (hset : ∀ v a, Q v → P a → P (set v a)) (hwhole : ∀ a, I a → J (get a)) :
    (Field.defaulted name c get set).Step P I acc fun a => set (get a) (acc a) :=
  of_faithful hc (fun _ _ => rfl) (fun _ => .inl rfl) hget hset hwhole

theorem omitted {omits : α → Bool} (hc : Faithful c Q J)
    (homits : ∀ v a, omits v → acc a = set v (acc a)) (hget : ∀ a, P a → Q (get a))
    (hset : ∀ v a, Q v → P a → P (set v a)) (hwhole : ∀ a, I a → J (get a)) :
    (Field.omitted name c omits get set).Step P I acc fun a => set (get a) (acc a) := by
  refine of_faithful hc (fun _ _ => rfl) (fun a => ?_) hget hset hwhole
  cases homit : omits (get a) with
  | true => exact .inr ⟨if_pos homit, rfl, homits (get a) a homit⟩
  | false => exact .inl (if_neg (by simp [homit]))

end

theorem optional {get : R → Option α} {set : Option α → R → R} (hc : Faithful c Q J)
    (hnull : ∀ v, c.encode v ≠ .null) (hnone : ∀ a, acc a = set none (acc a))
    (hget : ∀ a, P a → ∀ v ∈ get a, Q v)
    (hset : ∀ o a, (∀ v ∈ o, Q v) → P a → P (set o a)) (hwhole : ∀ a, I a → ∀ v ∈ get a, J v) :
    (Field.optional name c get set).Step P I acc fun a => set (get a) (acc a) := by
  refine omitted (hc.option hnull) (fun o a ho => ?_) hget hset hwhole
  rw [Option.isNone_iff_eq_none.mp ho]
  exact hnone a

/-! Nothing need be known of what a free field holds. -/

theorem required_free {get : R → α} {set : α → R → R}
    (hc : Faithful c (fun _ => True) fun _ => True) (hset : ∀ v a, P a → P (set v a)) :
    (Field.required name c get set).Step P I acc fun a => set (get a) (acc a) :=
  required hc (fun _ _ => trivial) (fun v a _ => hset v a) fun _ _ => trivial

theorem defaulted_free {get : R → α} {set : α → R → R}
    (hc : Faithful c (fun _ => True) fun _ => True) (hset : ∀ v a, P a → P (set v a)) :
    (Field.defaulted name c get set).Step P I acc fun a => set (get a) (acc a) :=
  defaulted hc (fun _ _ => trivial) (fun v a _ => hset v a) fun _ _ => trivial

theorem optional_string {get : R → Option String} {set : Option String → R → R}
    (hnone : ∀ a, acc a = set none (acc a)) (hset : ∀ o a, P a → P (set o a)) :
    (Field.optional name .string get set).Step P I acc fun a => set (get a) (acc a) :=
  optional .string (fun _ => nofun) hnone (fun _ _ _ _ => trivial) (fun o a _ => hset o a)
    fun _ _ _ _ => trivial

end Field.Step

/-! Records. -/

namespace Record

variable {r : Record R}

theorem sound_decodeFields (hfields : ∀ f ∈ r.fields, ∀ n a b, P a → f.decode n a = .ok b → P b)
    {seen : List String} {ns : List (String × Node)} {a b : R} (ha : P a)
    (h : r.decodeFields seen a ns = .ok b) : P b := by
  induction ns generalizing seen a with
  | nil =>
      rw [decodeFields] at h
      split at h
      · cases h
      · cases h
        exact ha
  | cons field ns ih =>
      rw [decodeFields] at h
      split at h
      · exact ih ha h
      · next f hf =>
          split at h
          · cases h
          · split at h
            · next c hc =>
                exact ih (hfields f (List.mem_of_find?_eq_some hf) field.2 a c ha hc) h
            · cases h

theorem sound_decodeElements {fs : List (Field R)}
    (hfields : ∀ f ∈ fs, ∀ n a b, P a → f.decode n a = .ok b → P b) {seen : Nat} {ns : List Node}
    {a b : R} (ha : P a) (h : r.decodeElements seen a fs ns = .ok b) : P b := by
  induction fs generalizing seen ns a with
  | nil =>
      cases ns with
      | nil =>
          cases h
          exact ha
      | cons n ns => cases h
  | cons f fs ih =>
      obtain ⟨hf, hfs⟩ := List.forall_mem_cons.mp hfields
      cases ns with
      | nil =>
          rw [decodeElements] at h
          split at h
          · cases h
          · exact ih hfs ha h
      | cons n ns =>
          rw [decodeElements] at h
          split at h
          · next c hc => exact ih hfs (hf n a c ha hc) h
          · cases h

theorem sound_decode (hblank : P r.blank)
    (hfields : ∀ f ∈ r.fields, ∀ n a b, P a → f.decode n a = .ok b → P b) (n : Node) (a : R)
    (h : r.decode n = .ok a) : P a := by
  unfold decode at h
  split at h
  · exact sound_decodeFields hfields hblank h
  · exact sound_decodeElements hfields hblank h
  · cases h

/-- The names of those of some fields that have been read, which are all that are required. -/
structure Seen (before : List (Field R)) (seen : List String) : Prop where
  subset : seen ⊆ before.map Field.name
  required : ∀ f ∈ before, f.isRequired → f.name ∈ seen

theorem Seen.skip {before : List (Field R)} {seen : List String} (h : Seen before seen)
    {f : Field R} (hf : f.isRequired = false) : Seen (before ++ [f]) seen where
  subset := List.Subset.trans h.subset (List.map_subset _ (List.subset_append_left _ _))
  required g hg hrequired := by
    rcases List.mem_append.mp hg with hg | hg
    · exact h.required g hg hrequired
    · rw [List.mem_singleton.mp hg, hf] at hrequired
      cases hrequired

theorem Seen.take {before : List (Field R)} {seen : List String} (h : Seen before seen)
    (f : Field R) : Seen (before ++ [f]) (f.name :: seen) where
  subset := by
    refine List.cons_subset.mpr ⟨by simp, ?_⟩
    exact List.Subset.trans h.subset (List.map_subset _ (List.subset_append_left _ _))
  required g hg hrequired := by
    rcases List.mem_append.mp hg with hg | hg
    · exact .tail _ (h.required g hg hrequired)
    · rw [List.mem_singleton.mp hg]
      exact List.mem_cons_self

theorem decodeFields_of_layout (hnames : (r.fields.map Field.name).Nodup) {acc : R → R}
    {fs : List (Field R)} (hlayout : Layout P I acc fs) (before : List (Field R))
    (hsplit : r.fields = before ++ fs) {seen : List String} (hseen : Seen before seen) {a : R}
    (ha : P a) :
    r.decodeFields seen (acc a)
        ((fs.filterMap fun f => (f.encode a).map (f.name, ·)).map (Prod.map id Node.ofValue)) =
      .ok a := by
  induction hlayout generalizing before seen with
  | @done acc h =>
      have hnone : r.fields.find? (fun f => f.isRequired && !seen.contains f.name) = none := by
        rw [hsplit, List.append_nil, List.find?_eq_none]
        intro f hf
        simpa using hseen.required f hf
      rw [List.filterMap_nil, List.map_nil, decodeFields, hnone, h a]
  | @field acc next f fs step rest ih =>
      have hnext : r.fields = (before ++ [f]) ++ fs := by rw [hsplit, List.append_cons]
      have hstep := step.restores a ha
      rw [Field.Restores] at hstep
      cases hwritten : f.encode a with
      | none =>
          rw [hwritten] at hstep
          obtain ⟨hoptional, hacc⟩ := hstep
          rw [List.filterMap_cons_none (by rw [hwritten]; rfl), hacc]
          exact ih (before ++ [f]) hnext (hseen.skip hoptional)
      | some v =>
          rw [hwritten] at hstep
          have hfind : r.fields.find? (·.name == f.name) = some f :=
            find?_name hnames (by simp [hsplit])
          have hnew : f.name ∉ seen := by
            intro hmem
            rw [hnext, List.append_assoc, List.map_append] at hnames
            exact (List.nodup_append.mp hnames).2.2 _ (hseen.subset hmem) _ List.mem_cons_self rfl
          rw [List.filterMap_cons_some (by rw [hwritten]; rfl), List.map_cons, Prod.map,
            decodeFields]
          simp only [id, hfind, hstep]
          rw [if_neg (by simpa using hnew)]
          exact ih (before ++ [f]) hnext (hseen.take f)

theorem name_mem_of_mem_encodeFields {field : String × Json} {a : R}
    (h : field ∈ r.encodeFields a) : field.1 ∈ r.fields.map Field.name := by
  obtain ⟨f, hf, hfield⟩ := List.mem_filterMap.mp h
  obtain ⟨v, -, rfl⟩ := Option.map_eq_some_iff.mp hfield
  exact List.mem_map_of_mem hf

theorem faithful (hnames : (r.fields.map Field.name).Nodup) (hblank : P r.blank)
    (hlayout : Layout P I (fun _ => r.blank) r.fields) : Faithful r.codec P I where
  sound := by
    have hfields {acc : R → R} {fs : List (Field R)} (h : Layout P I acc fs) :
        ∀ f ∈ fs, ∀ n a b, P a → f.decode n a = .ok b → P b := by
      induction h with
      | done _ => exact List.forall_mem_nil _
      | field step _ ih => exact List.forall_mem_cons.mpr ⟨step.sound, ih⟩
    exact sound_decode hblank (hfields hlayout)
  decode_encode a ha := by
    have hread := decodeFields_of_layout hnames hlayout [] rfl
      ⟨List.nil_subset _, List.forall_mem_nil _⟩ ha
    simp only [codec, Node.ofValue_object]
    exact hread
  integral a ha hi := by
    have hfields {acc : R → R} {fs : List (Field R)} (h : Layout P I acc fs) :
        ∀ f ∈ fs, ∀ v, f.encode a = some v → Integral v := by
      induction h with
      | done _ => exact List.forall_mem_nil _
      | field step _ ih => exact List.forall_mem_cons.mpr ⟨step.integral a ha hi, ih⟩
    refine .object fun field hfield => ?_
    obtain ⟨f, hf, hwritten⟩ := List.mem_filterMap.mp hfield
    obtain ⟨v, hv, rfl⟩ := Option.map_eq_some_iff.mp hwritten
    exact hfields hlayout f hf v hv

end Record

/-! Unions. -/

theorem Case.sound_decode {β : Type} {Q J : β → Prop} {name : String} {r : Record β} {make : β → R}
    {view : R → Option β} (hr : Faithful r.codec Q J) (hmake : ∀ b, Q b → P (make b)) (n : Node)
    (a : R) (h : (Case.of name r make view).decode n = .ok a) : P a := by
  obtain ⟨b, hb, rfl⟩ := exists_of_map_eq_ok h
  exact hmake b (hr.sound n b hb)

namespace Union

variable {u : Union R} {c : Case R}

/-- What a union writes of a value is what one of its cases writes of it, behind the tag. -/
structure Writes (u : Union R) (I : R → Prop) (c : Case R) (a : R)
    (fields : List (String × Json)) : Prop where
  mem : c ∈ u.cases
  encode : u.encode a = .object ((tag, .string c.name) :: fields)
  untagged : ∀ field ∈ fields, field.1 ≠ tag
  decode : c.decode (.ofValue (.object fields)) = .ok a
  integral : I a → Integral (.object fields)

theorem Writes.of {β : Type} {Q J : β → Prop} {name : String} {r : Record β} {make : β → R}
    {view : R → Option β} (hr : Faithful r.codec Q J) (htag : tag ∉ r.fields.map Field.name)
    {b : β} (hb : Q b) (hwhole : I (make b) → J b) (hmem : Case.of name r make view ∈ u.cases)
    (hencode : u.encode (make b) = .object ((tag, .string name) :: r.encodeFields b)) :
    u.Writes I (.of name r make view) (make b) (r.encodeFields b) where
  mem := hmem
  encode := hencode
  untagged _ hfield heq := htag (heq ▸ Record.name_mem_of_mem_encodeFields hfield)
  decode := congrArg (·.map make) (hr.decode_encode b hb)
  integral hi := hr.integral b hb (hwhole hi)

theorem case_name (hnames : (u.cases.map Case.name).Nodup) (hc : c ∈ u.cases) :
    u.case (.string c.name) = .ok c := by
  rw [case, find?_name hnames hc]

theorem mem_of_case {n : Node} (h : u.case n = .ok c) : c ∈ u.cases := by
  unfold case at h
  split at h
  · split at h
    · next d hd =>
        cases h
        exact List.mem_of_find?_eq_some hd
    · cases h
  · cases h

theorem taggedCase_of_untagged {ns : List (String × Node)} (h : ∀ n ∈ ns, n.1 ≠ tag) :
    u.taggedCase (some c) ns = .ok c := by
  induction ns with
  | nil => rfl
  | cons n ns ih =>
      obtain ⟨hn, hns⟩ := List.forall_mem_cons.mp h
      rw [taggedCase, if_neg (by simpa using hn)]
      exact ih hns

theorem mem_of_taggedCase {found : Option (Case R)} (hfound : ∀ d ∈ found, d ∈ u.cases)
    {ns : List (String × Node)} (h : u.taggedCase found ns = .ok c) : c ∈ u.cases := by
  induction ns generalizing found with
  | nil =>
      cases found with
      | none => cases h
      | some d =>
          cases h
          exact hfound c rfl
  | cons n ns ih =>
      unfold taggedCase at h
      split at h
      · split at h
        · cases h
        · split at h
          · next d hd =>
              refine ih (fun e he => ?_) h
              cases he
              exact mem_of_case hd
          · cases h
      · exact ih hfound h

theorem sound_decode (hcases : ∀ c ∈ u.cases, ∀ n a, c.decode n = .ok a → P a) (n : Node) (a : R)
    (h : u.decode n = .ok a) : P a := by
  have hinside {c : Case R} (hc : c ∈ u.cases) {n : Node}
      (h : (c.decode n).mapError Problem.inside = .ok a) : P a := by
    cases hread : c.decode n with
    | error p => rw [hread] at h; cases h
    | ok b =>
        rw [hread] at h
        cases h
        exact hcases c hc n a hread
  unfold decode at h
  split at h
  · cases h
  · split at h
    · split at h
      · next c hc => exact hinside (mem_of_taggedCase (fun d hd => by cases hd) hc) h
      · cases h
    · cases h
    · split at h
      · next c hc => exact hinside (mem_of_case hc) h
      · cases h
    · cases h

theorem decode_encode_of_writes (hnames : (u.cases.map Case.name).Nodup) {a : R}
    {fields : List (String × Json)} (h : u.Writes I c a fields) :
    u.decode (.ofValue (u.encode a)) = .ok a := by
  have hnode : Node.ofValue (u.encode a) =
      .object ((tag, .string c.name) :: fields.map (Prod.map id Node.ofValue)) := by
    rw [h.encode, Node.ofValue_object]
    rfl
  have huntagged : ∀ n ∈ fields.map (Prod.map id Node.ofValue), n.1 ≠ tag := by
    intro n hn
    obtain ⟨field, hfield, rfl⟩ := List.mem_map.mp hn
    exact h.untagged field hfield
  have htagged : u.taggedCase none
      ((tag, .string c.name) :: fields.map (Prod.map id Node.ofValue)) = .ok c := by
    rw [taggedCase, if_pos (by simp), case_name hnames h.mem]
    exact taggedCase_of_untagged huntagged
  have hothers : ((tag, Node.string c.name) :: fields.map (Prod.map id Node.ofValue)).filter
      (·.1 != tag) = fields.map (Prod.map id Node.ofValue) := by
    rw [List.filter_cons_of_neg (by simp)]
    exact List.filter_eq_self.mpr fun n hn => by simpa using huntagged n hn
  have husable := Node.isUsable_ofValue (u.encode a)
  have hread := h.decode
  rw [Node.ofValue_object] at hread
  rw [hnode] at husable ⊢
  simp only [decode, husable, htagged, hothers, hread]
  rfl

theorem faithful (hnames : (u.cases.map Case.name).Nodup)
    (hsound : ∀ c ∈ u.cases, ∀ n a, c.decode n = .ok a → P a)
    (hwrites : ∀ a, P a → ∃ c fields, u.Writes I c a fields) : Faithful u.codec P I where
  sound := sound_decode hsound
  decode_encode a ha := by
    obtain ⟨c, fields, hc⟩ := hwrites a ha
    exact decode_encode_of_writes hnames hc
  integral a ha hi := by
    obtain ⟨c, fields, hc⟩ := hwrites a ha
    cases hc.integral hi with
    | object h =>
        change Integral (u.encode a)
        rw [hc.encode]
        exact .object (List.forall_mem_cons.mpr ⟨.string _, h⟩)

end Union

end ChannelAdapter.Json
