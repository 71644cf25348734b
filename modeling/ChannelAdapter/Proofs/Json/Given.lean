import ChannelAdapter.Proofs.Json.Rearranged
import Mathlib.Data.List.Nodup
/-!
What is given of a record. A record is read from what a node gives of its fields, no matter in which
form and order it gives it.
-/

namespace ChannelAdapter.Json

/-- What a node gives of the fields that have some names: an object gives the values of those that are
among its keys, none of which is repeated, and an array the first ones in order. -/
inductive Gives (names : List String) : Node → List (Option Node) → Prop
  | object {fields : List (String × Node)}
      (hkeys : ((fields.filter (·.1 ∈ names)).map Prod.fst).Nodup) :
      Gives names (.object fields) (names.map (fields.lookup ·))
  | array {ns : List Node} (h : ns.length ≤ names.length) :
      Gives names (.array ns) (ns.map some ++ List.replicate (names.length - ns.length) none)

/-- What is read of a value that need not be given. -/
inductive OrElse {α : Type} (P : Node → α → Prop) (default : α) : Option Node → α → Prop
  | missing : OrElse P default none default
  | given {n : Node} {a : α} (h : P n a) : OrElse P default (some n) a

inductive Nullable {α : Type} (P : Node → α → Prop) : Node → Option α → Prop
  | null : Nullable P .null none
  | value {n : Node} {a : α} (h : P n a) : Nullable P n (some a)

inductive IsString : Node → String → Prop
  | string (s : String) : IsString (.string s) s

inductive IsNatural (hi : Nat) : Node → Nat → Prop
  | number {k : Nat} (h : k ≤ hi) : IsNatural hi (.number (.integer k)) k

/-! Codecs. -/

namespace Codec

variable {n : Node}

theorem string_decode_iff {s : String} : Codec.string.decode n = .ok s ↔ IsString n s := by
  constructor
  · intro h
    cases n with
    | string =>
        cases h
        exact .string s
    | null | bool | number | array | object | unusable => cases h
  · rintro ⟨⟩
    rfl

theorem natural_decode_iff {expected : String} {hi k : Nat} :
    (natural expected hi).decode n = .ok k ↔ IsNatural hi n k := by
  constructor
  · intro h
    obtain ⟨i, hread, rfl⟩ := exists_of_map_eq_ok h
    simp only [integer] at hread
    split at hread
    · split at hread
      · next i' hrange =>
          cases hread
          obtain ⟨k, rfl⟩ := Int.eq_ofNat_of_zero_le hrange.1
          exact .number (Int.ofNat_le.mp hrange.2)
      · cases hread
    · cases hread
  · rintro ⟨h⟩
    have hrange : (0 : Int) ≤ k ∧ (k : Int) ≤ hi := by omega
    simp [natural, integer, hrange, Except.map]

theorem option_decode_iff {α : Type} {c : Codec α} {P : Node → α → Prop}
    (hc : ∀ {n a}, c.decode n = .ok a ↔ P n a) (hnull : ∀ a, ¬P .null a) {o : Option α} :
    c.option.decode n = .ok o ↔ Nullable P n o := by
  simp only [option]
  split
  · constructor
    · rintro ⟨⟩
      exact .null
    · rintro (_ | h)
      · rfl
      · exact absurd h (hnull _)
  · next hne =>
      rw [map_eq_ok_iff]
      constructor
      · rintro ⟨a, ha, rfl⟩
        exact .value (hc.mp ha)
      · rintro (_ | h)
        · exact absurd rfl hne
        · exact ⟨_, hc.mpr h, rfl⟩

end Codec

/-! Fields. -/

variable {R : Type}

inductive Field.Reads (f : Field R) : Option Node → R → R → Prop
  | missing {a : R} (h : f.isRequired = false) : f.Reads none a a
  | given {n : Node} {a b : R} (h : f.decode n a = .ok b) : f.Reads (some n) a b

/-- What fields make of a record, each of them of what is given of it. -/
inductive Fills : List (Field R) → List (Option Node) → R → R → Prop
  | done {a : R} : Fills [] [] a a
  | field {f : Field R} {fs : List (Field R)} {o : Option Node} {os : List (Option Node)}
      {a b c : R} (h : f.Reads o a b) (rest : Fills fs os b c) : Fills (f :: fs) (o :: os) a c

section
variable {f : Field R} {fs : List (Field R)} {n : Node} {os : List (Option Node)} {a b c : R}

@[simp]
theorem fills_nil_iff : Fills [] [] a b ↔ a = b := by
  constructor
  · rintro ⟨⟩
    rfl
  · rintro rfl
    exact .done

@[simp]
theorem fills_none_iff : Fills (f :: fs) (none :: os) a b ↔
    f.isRequired = false ∧ Fills fs os a b := by
  constructor
  · rintro ⟨⟩
    next hreads hrest =>
      cases hreads with
      | missing h => exact ⟨h, hrest⟩
  · exact fun ⟨h, hrest⟩ => .field (.missing h) hrest

@[simp]
theorem fills_some_iff : Fills (f :: fs) (some n :: os) a c ↔
    ∃ b, f.decode n a = .ok b ∧ Fills fs os b c := by
  constructor
  · rintro ⟨⟩
    next hreads hrest =>
      cases hreads with
      | given h => exact ⟨_, h, hrest⟩
  · exact fun ⟨_, h, hrest⟩ => .field (.given h) hrest

end

theorem fills_value_iff {α : Type} {name : String} {encode : R → Option Json} {c : Codec α}
    {set : α → R → R} {P : Node → α → Prop} {default : α} {fs : List (Field R)}
    {os : List (Option Node)} {a b : R} (hc : ∀ {n v}, c.decode n = .ok v ↔ P n v)
    (hset : set default a = a) :
    Fills (⟨name, encode, fun n a => (c.decode n).map (set · a), false⟩ :: fs) os a b ↔
      ∃ o rest v, os = o :: rest ∧ OrElse P default o v ∧ Fills fs rest (set v a) b := by
  constructor
  · rintro ⟨⟩
    next hreads hrest =>
      cases hreads with
      | missing => exact ⟨_, _, default, rfl, .missing, hset.symm ▸ hrest⟩
      | given hread =>
          obtain ⟨v, hv, rfl⟩ := exists_of_map_eq_ok hread
          exact ⟨_, _, v, rfl, .given (hc.mp hv), hrest⟩
  · rintro ⟨_, _, v, rfl, hv, hrest⟩
    cases hv with
    | missing => exact .field (.missing rfl) (hset ▸ hrest)
    | given h => exact .field (.given (map_eq_ok_iff.mpr ⟨v, hc.mpr h, rfl⟩)) hrest

/-! Records. -/

theorem lookup_eq_some_iff {names : List String} {name : String} (hname : name ∈ names)
    {fields : List (String × Node)}
    (hkeys : ((fields.filter (·.1 ∈ names)).map Prod.fst).Nodup) {n : Node} :
    fields.lookup name = some n ↔ (name, n) ∈ fields := by
  induction fields with
  | nil => simp
  | cons field fields ih =>
      obtain ⟨key, m⟩ := field
      by_cases hkey : name = key
      · subst hkey
        rw [List.filter_cons_of_pos (by simpa using hname)] at hkeys
        have hnew : (name, n) ∉ fields := fun hmem => (List.nodup_cons.mp hkeys).1 <|
          List.mem_map.mpr ⟨_, List.mem_filter.mpr ⟨hmem, by simpa using hname⟩, rfl⟩
        rw [List.lookup_cons_self]
        simp [hnew, eq_comm]
      · have hrest := (((List.sublist_cons_self (key, m) fields).filter _).map _).nodup hkeys
        rw [List.lookup_cons, beq_false_of_ne hkey]
        simpa [hkey] using ih hrest

namespace Record

variable {r : Record R} {seen : List String} {fields : List (String × Node)} {a b c : R}

theorem find?_isSome_iff {key : String} :
    (r.fields.find? (·.name == key)).isSome ↔ key ∈ r.fields.map Field.name := by
  rw [List.find?_isSome, List.mem_map]
  exact exists_congr fun f => and_congr_right fun _ => beq_iff_eq

theorem decodeFields_known : r.decodeFields seen a fields =
    r.decodeFields seen a (fields.filter (·.1 ∈ r.fields.map Field.name)) := by
  induction fields generalizing seen a with
  | nil => rfl
  | cons field fields ih =>
      cases hf : r.fields.find? (·.name == field.1) with
      | none =>
          have hunknown : field.1 ∉ r.fields.map Field.name := by
            simp [← find?_isSome_iff, hf]
          rw [List.filter_cons_of_neg (by simpa using hunknown), decodeFields, hf]
          exact ih
      | some f =>
          have hknown : field.1 ∈ r.fields.map Field.name := by
            simp [← find?_isSome_iff, hf]
          rw [List.filter_cons_of_pos (by simpa using hknown), decodeFields, decodeFields, hf]
          dsimp only
          split
          · rfl
          · cases f.decode field.2 a with
            | error => rfl
            | ok b => exact ih

theorem new_of_decodeFields (hknown : ∀ field ∈ fields, field.1 ∈ r.fields.map Field.name)
    (h : r.decodeFields seen a fields = .ok b) :
    (fields.map Prod.fst).Nodup ∧ ∀ key ∈ fields.map Prod.fst, key ∉ seen := by
  induction fields generalizing seen a with
  | nil => exact ⟨.nil, List.forall_mem_nil _⟩
  | cons field fields ih =>
      obtain ⟨hfield, hfields⟩ := List.forall_mem_cons.mp hknown
      obtain ⟨seen', c, htakes, hrest⟩ := decodeFields_cons.mp h
      cases htakes with
      | unknown hnone =>
          rw [← find?_isSome_iff, hnone] at hfield
          cases hfield
      | known _ hnew _ =>
          obtain ⟨hnodup, hothers⟩ := ih hfields hrest
          refine ⟨List.nodup_cons.mpr ⟨fun hmem => hothers _ hmem List.mem_cons_self, hnodup⟩, ?_⟩
          refine List.forall_mem_cons.mpr ⟨hnew, fun key hkey => ?_⟩
          exact List.not_mem_of_not_mem_cons (hothers key hkey)

theorem required_of_decodeFields (h : r.decodeFields seen a fields = .ok b) {f : Field R}
    (hf : f ∈ r.fields) (hrequired : f.isRequired) :
    f.name ∈ seen ∨ f.name ∈ fields.map Prod.fst := by
  induction fields generalizing seen a with
  | nil =>
      rw [decodeFields] at h
      split at h
      · cases h
      · next hnone =>
          rw [List.find?_eq_none] at hnone
          exact .inl (by simpa [hrequired] using hnone f hf)
  | cons field fields ih =>
      obtain ⟨seen', c, htakes, hrest⟩ := decodeFields_cons.mp h
      rw [List.map_cons, List.mem_cons]
      rcases ih hrest with hseen | hmem
      · cases htakes with
        | unknown => exact .inl hseen
        | known =>
            rcases List.mem_cons.mp hseen with heq | hseen
            · exact .inr (.inl heq)
            · exact .inl hseen
      · exact .inr (.inr hmem)

theorem decodeFields_known_cons (hnames : (r.fields.map Field.name).Nodup) {f : Field R}
    (hf : f ∈ r.fields) (hnew : f.name ∉ seen) {n : Node} :
    r.decodeFields seen a ((f.name, n) :: fields) = .ok c ↔
      ∃ b, f.decode n a = .ok b ∧ r.decodeFields (f.name :: seen) b fields = .ok c := by
  have hfind : r.fields.find? (·.name == f.name) = some f := find?_name hnames hf
  rw [decodeFields_cons]
  constructor
  · rintro ⟨seen', b, htakes, hrest⟩
    cases htakes with
    | unknown hnone => cases hfind.symm.trans hnone
    | known hg _ hread =>
        cases hfind.symm.trans hg
        exact ⟨b, hread, hrest⟩
  · exact fun ⟨b, hread, hrest⟩ => ⟨_, b, .known hfind hnew hread, hrest⟩

theorem decodeFields_iff_fills (hnames : (r.fields.map Field.name).Nodup)
    (value : String → Option Node) {fs : List (Field R)} (before : List (Field R))
    (hsplit : r.fields = before ++ fs) (hseen : Seen before seen) :
    r.decodeFields seen a (fs.filterMap fun f => (value f.name).map (f.name, ·)) = .ok b ↔
      Fills fs (fs.map (value ·.name)) a b := by
  induction fs generalizing before seen a with
  | nil =>
      have hnone : r.fields.find? (fun f => f.isRequired && !seen.contains f.name) = none := by
        rw [hsplit, List.append_nil, List.find?_eq_none]
        intro f hf
        simpa using hseen.required f hf
      rw [List.filterMap_nil, decodeFields, hnone]
      simp
  | cons f fs ih =>
      have hf : f ∈ r.fields := by simp [hsplit]
      have hnext : r.fields = (before ++ [f]) ++ fs := by rw [hsplit, List.append_cons]
      obtain ⟨-, hrest, hapart⟩ := List.nodup_append.mp (List.map_append ▸ hsplit ▸ hnames)
      have hnew : f.name ∉ seen := fun hmem =>
        hapart _ (hseen.subset hmem) _ List.mem_cons_self rfl
      have hlater : f.name ∉ fs.map Field.name := (List.nodup_cons.mp hrest).1
      rw [List.map_cons]
      cases hvalue : value f.name with
      | some n =>
          rw [List.filterMap_cons_some (by rw [hvalue]; rfl), fills_some_iff,
            decodeFields_known_cons hnames hf hnew]
          exact exists_congr fun c =>
            and_congr_right fun _ => ih (before ++ [f]) hnext (hseen.take f)
      | none =>
          rw [List.filterMap_cons_none (by rw [hvalue]; rfl), fills_none_iff]
          cases hrequired : f.isRequired with
          | false => simpa using ih (before ++ [f]) hnext (hseen.skip hrequired)
          | true =>
              refine iff_of_false (fun h => ?_) (by simp)
              rcases required_of_decodeFields h hf hrequired with hmem | hmem
              · exact hnew hmem
              · obtain ⟨field, hfield, heq⟩ := List.mem_map.mp hmem
                obtain ⟨g, hg, hgiven⟩ := List.mem_filterMap.mp hfield
                obtain ⟨n, -, rfl⟩ := Option.map_eq_some_iff.mp hgiven
                exact hlater (heq ▸ List.mem_map_of_mem hg)

theorem decodeElements_iff_fills {seen : Nat} {fs : List (Field R)} {ns : List Node} :
    r.decodeElements seen a fs ns = .ok b ↔ ns.length ≤ fs.length ∧
      Fills fs (ns.map some ++ List.replicate (fs.length - ns.length) none) a b := by
  induction fs generalizing seen ns a with
  | nil => cases ns <;> simp [decodeElements]
  | cons f fs ih =>
      cases ns with
      | nil =>
          rw [decodeElements]
          cases hrequired : f.isRequired with
          | true => simp [List.replicate_succ, hrequired]
          | false => simp [List.replicate_succ, hrequired, ih]
      | cons n ns =>
          rw [decodeElements]
          cases hread : f.decode n a <;> simp [ih, hread]

theorem perm_given (hnames : (r.fields.map Field.name).Nodup)
    (hkeys : ((fields.filter (·.1 ∈ r.fields.map Field.name)).map Prod.fst).Nodup) :
    (fields.filter (·.1 ∈ r.fields.map Field.name)).Perm
      (r.fields.filterMap fun f => (fields.lookup f.name).map (f.name, ·)) := by
  have hordered : (r.fields.filterMap fun f => (fields.lookup f.name).map (f.name, ·)).Nodup := by
    refine (List.pairwise_map.mp hnames).filterMap _ fun f g hne field hf other hg heq => ?_
    obtain ⟨n, -, rfl⟩ := Option.map_eq_some_iff.mp hf
    obtain ⟨m, -, rfl⟩ := Option.map_eq_some_iff.mp hg
    exact hne (congrArg Prod.fst heq)
  refine (List.perm_ext_iff_of_nodup (.of_map _ hkeys) hordered).mpr fun field => ?_
  rw [List.mem_filter, List.mem_filterMap, decide_eq_true_iff]
  constructor
  · rintro ⟨hfield, hknown⟩
    obtain ⟨f, hf, hname⟩ := List.mem_map.mp hknown
    have hvalue : fields.lookup f.name = some field.2 :=
      (lookup_eq_some_iff (hname ▸ hknown) hkeys).mpr (hname ▸ hfield)
    exact ⟨f, hf, by rw [hvalue, hname]; rfl⟩
  · rintro ⟨f, hf, hgiven⟩
    obtain ⟨n, hvalue, rfl⟩ := Option.map_eq_some_iff.mp hgiven
    have hknown : f.name ∈ r.fields.map Field.name := List.mem_map_of_mem hf
    exact ⟨(lookup_eq_some_iff hknown hkeys).mp hvalue, hknown⟩

/-- A record is read from what is given of its fields. -/
theorem decode_eq_ok_iff (hnames : (r.fields.map Field.name).Nodup)
    (hcommutes : r.fields.Pairwise Field.Commutes) {n : Node} :
    r.decode n = .ok a ↔
      ∃ os, Gives (r.fields.map Field.name) n os ∧ Fills r.fields os r.blank a := by
  cases n with
  | null | bool | number | string | unusable => exact iff_of_false nofun nofun
  | array ns =>
      rw [decode, decodeElements_iff_fills, ← List.length_map (Field.name (R := R))]
      constructor
      · exact fun ⟨hlength, hfills⟩ => ⟨_, .array hlength, hfills⟩
      · rintro ⟨_, ⟨⟩, hfills⟩
        next hlength => exact ⟨hlength, hfills⟩
  | object fields =>
      have hread (hkeys : ((fields.filter (·.1 ∈ r.fields.map Field.name)).map Prod.fst).Nodup) :
          r.decode (.object fields) = .ok a ↔
            Fills r.fields ((r.fields.map Field.name).map (fields.lookup ·)) r.blank a := by
        have hperm := perm_given hnames hkeys
        have hordered := (hperm.map Prod.fst).nodup_iff.mp hkeys
        rw [decode, decodeFields_known, List.map_map]
        refine Iff.trans ⟨decodeFields_of_perm hcommutes hperm hkeys,
          decodeFields_of_perm hcommutes hperm.symm hordered⟩ ?_
        exact decodeFields_iff_fills hnames (fields.lookup ·) [] rfl
          ⟨List.nil_subset _, List.forall_mem_nil _⟩
      constructor
      · intro h
        have hfields := h
        rw [decode, decodeFields_known] at hfields
        have hknown : ∀ field ∈ fields.filter (·.1 ∈ r.fields.map Field.name),
            field.1 ∈ r.fields.map Field.name := fun field hfield => by
          simpa using (List.mem_filter.mp hfield).2
        have hkeys := (new_of_decodeFields hknown hfields).1
        exact ⟨_, .object hkeys, (hread hkeys).mp h⟩
      · rintro ⟨_, ⟨⟩, hfills⟩
        next hkeys => exact (hread hkeys).mpr hfills

end Record

end ChannelAdapter.Json
