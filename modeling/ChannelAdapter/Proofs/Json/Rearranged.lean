import ChannelAdapter.Proofs.Json.Record
import Mathlib.Data.List.Forall2
import Mathlib.Data.List.Pairwise
/-!
Objects with the same fields in another order. While no key is repeated, the order of fields makes no
difference to what records and unions read, so they read of a text what they read of its value.
-/

namespace ChannelAdapter.Json

/-- The same keys in the same order, with values that are related. -/
inductive Fieldwise {α β : Type} (P : α → β → Prop) : List (String × α) → List (String × β) → Prop
  | nil : Fieldwise P [] []
  | cons {key : String} {a : α} {b : β} {fields : List (String × α)}
      {others : List (String × β)} (h : P a b) (rest : Fieldwise P fields others) :
      Fieldwise P ((key, a) :: fields) ((key, b) :: others)

namespace Fieldwise

variable {α β γ : Type} {P : α → γ → Prop} {fields : List (String × α)}
  {others : List (String × γ)}

theorem keys_eq (h : Fieldwise P fields others) :
    fields.map Prod.fst = others.map Prod.fst := by
  induction h with
  | nil => rfl
  | cons _ _ ih => rw [List.map_cons, List.map_cons, ih]

theorem map_right {f : β → γ} {others : List (String × β)}
    (h : Fieldwise (fun a b => P a (f b)) fields others) :
    Fieldwise P fields (others.map (Prod.map id f)) := by
  induction h with
  | nil => exact .nil
  | cons h _ ih => exact .cons h ih

theorem filter (h : Fieldwise P fields others) (keep : String → Bool) :
    Fieldwise P (fields.filter fun field => keep field.1)
      (others.filter fun field => keep field.1) := by
  induction h with
  | nil => exact .nil
  | @cons key a b fields others hab _ ih =>
      rw [List.filter_cons, List.filter_cons]
      split
      · exact .cons hab ih
      · exact ih

theorem exists_iff (h : Fieldwise P fields others) {key : String} {Q : α → Prop} {S : γ → Prop}
    (hiff : ∀ a b, P a b → (Q a ↔ S b)) :
    (∃ a, (key, a) ∈ fields ∧ Q a) ↔ ∃ b, (key, b) ∈ others ∧ S b := by
  induction h with
  | nil => simp
  | cons hab _ ih =>
      simp only [List.mem_cons, Prod.mk.injEq, or_and_right, exists_or, ih, and_assoc,
        exists_and_left, exists_eq_left, hiff _ _ hab]

end Fieldwise

namespace Node

inductive Unrepeated : Node → Prop
  | null : Unrepeated .null
  | bool (b : Bool) : Unrepeated (.bool b)
  | number (n : Number) : Unrepeated (.number n)
  | string (s : String) : Unrepeated (.string s)
  | array {ns : List Node} (h : ∀ n ∈ ns, Unrepeated n) : Unrepeated (.array ns)
  | object {fields : List (String × Node)} (hkeys : (fields.map Prod.fst).Nodup)
      (h : ∀ field ∈ fields, Unrepeated field.2) : Unrepeated (.object fields)
  | unusable : Unrepeated .unusable

/-- The same node, but for the order of fields in objects without repeated keys. -/
inductive Rearranged : Node → Node → Prop
  | same (n : Node) : Rearranged n n
  | array {ns ms : List Node} (h : List.Forall₂ Rearranged ns ms) :
      Rearranged (.array ns) (.array ms)
  | object {fields others ordered : List (String × Node)} (hkeys : (fields.map Prod.fst).Nodup)
      (h : Fieldwise Rearranged fields others) (hperm : others.Perm ordered) :
      Rearranged (.object fields) (.object ordered)

end Node

open Node (Rearranged)

/-! Values. -/

theorem insert_perm {key : String} {value : Json} {fields : List (String × Json)}
    (h : key ∉ fields.map Prod.fst) :
    (insert key value fields).Perm ((key, value) :: fields) := by
  induction fields with
  | nil => exact .refl _
  | cons field fields ih =>
      obtain ⟨hne, hfields⟩ := not_or.mp (List.mem_cons.not.mp h)
      rw [insert]
      split
      · exact .refl _
      · exact ((ih hfields).cons field).trans (.swap _ _ _)

namespace Node

variable {P : Node → Json → Prop}

theorem forall₂_of_values? {ns : List Node} (h : ∀ n ∈ ns, ∀ v, n.value? = some v → P n v)
    {done xs : List Json} (hxs : values? done ns = some xs) :
    ∃ ys, xs = done.reverse ++ ys ∧ List.Forall₂ P ns ys := by
  induction ns generalizing done with
  | nil =>
      cases hxs
      exact ⟨[], (List.append_nil _).symm, .nil⟩
  | cons n ns ih =>
      obtain ⟨hn, hns⟩ := List.forall_mem_cons.mp h
      rw [values?] at hxs
      split at hxs
      · next v hv =>
          obtain ⟨ys, rfl, hys⟩ := ih hns hxs
          exact ⟨v :: ys, by rw [List.reverse_cons, List.append_assoc]; rfl, .cons (hn v hv) hys⟩
      · cases hxs

theorem fieldwise_of_fieldValues? {ns : List (String × Node)}
    (h : ∀ n ∈ ns, ∀ v, n.2.value? = some v → P n.2 v) {done fields : List (String × Json)}
    (hkeys : (done.map Prod.fst ++ ns.map Prod.fst).Nodup)
    (hfields : fieldValues? done ns = some fields) :
    ∃ gs, Fieldwise P ns gs ∧ (done ++ gs).Perm fields := by
  induction ns generalizing done with
  | nil =>
      cases hfields
      exact ⟨[], .nil, by rw [List.append_nil]⟩
  | cons n ns ih =>
      obtain ⟨hn, hns⟩ := List.forall_mem_cons.mp h
      rw [fieldValues?] at hfields
      split at hfields
      · next v hv =>
          rw [List.map_cons] at hkeys
          have hnew : n.1 ∉ done.map Prod.fst := fun hmem =>
            (List.nodup_append.mp hkeys).2.2 _ hmem _ List.mem_cons_self rfl
          have hinsert := @insert_perm n.1 v done hnew
          have hkeys' : ((Json.insert n.1 v done).map Prod.fst ++ ns.map Prod.fst).Nodup := by
            refine ((hinsert.map Prod.fst).append_right _).nodup_iff.mpr ?_
            exact List.perm_middle.nodup_iff.mp hkeys
          obtain ⟨gs, hgs, hperm⟩ := ih hns hkeys' hfields
          refine ⟨(n.1, v) :: gs, .cons (hn v hv) hgs, .trans ?_ hperm⟩
          exact List.perm_middle.trans (hinsert.append_right gs).symm
      · cases hfields

theorem rearranged_ofValue {n : Node} (hn : n.Unrepeated) {v : Json} (hv : n.value? = some v) :
    Rearranged n (ofValue v) := by
  induction n generalizing v with
  | null | bool | number | string =>
      cases hv
      exact .same _
  | array ns ih =>
      obtain ⟨xs, hxs, rfl⟩ := Option.map_eq_some_iff.mp hv
      cases hn with
      | array hns =>
          obtain ⟨ys, rfl, hys⟩ := forall₂_of_values? (fun n hn v => ih n hn (hns n hn)) hxs
          rw [ofValue_array]
          exact .array (List.forall₂_map_right_iff.mpr hys)
  | object ns ih =>
      obtain ⟨fields, hfields, rfl⟩ := Option.map_eq_some_iff.mp hv
      cases hn with
      | object hkeys hns =>
          obtain ⟨gs, hgs, hperm⟩ :=
            @fieldwise_of_fieldValues? (fun n v => Rearranged n (ofValue v)) ns
              (fun n hn _ => ih n hn (hns n hn)) [] fields hkeys hfields
          rw [ofValue_object]
          exact .object hkeys hgs.map_right (hperm.map _)
  | unusable => cases hv

end Node

theorem find?_eq_some_iff {key : String} {v : Json} {fields : List (String × Json)}
    (hkeys : (fields.map Prod.fst).Nodup) : find? key fields = some v ↔ (key, v) ∈ fields := by
  rw [find?, List.lookup_eq_some_iff]
  constructor
  · rintro ⟨before, after, rfl, -⟩
    exact List.mem_append_right _ List.mem_cons_self
  · intro hmem
    obtain ⟨before, after, rfl⟩ := List.append_of_mem hmem
    refine ⟨before, after, rfl, fun field hfield => bne_iff_ne.mpr fun heq => ?_⟩
    rw [List.map_append] at hkeys
    exact (List.nodup_append.mp hkeys).2.2 _ (List.mem_map_of_mem hfield) _ List.mem_cons_self
      heq.symm

theorem Node.value?_eq_string_iff {n : Node} {v : Json} (hv : n.value? = some v) {s : String} :
    n = .string s ↔ v = .string s := by
  cases n with
  | null | bool | number | string =>
      cases hv
      simp
  | array | object =>
      obtain ⟨_, -, rfl⟩ := Option.map_eq_some_iff.mp hv
      exact ⟨nofun, nofun⟩
  | unusable => cases hv

theorem Node.string_mem_iff {ns : List (String × Node)} (hkeys : (ns.map Prod.fst).Nodup)
    {fields : List (String × Json)} (hvalue : (Node.object ns).value? = some (.object fields))
    {key s : String} : (key, .string s) ∈ ns ↔ (key, .string s) ∈ fields := by
  obtain ⟨_, hfields, heq⟩ := Option.map_eq_some_iff.mp hvalue
  cases heq
  obtain ⟨gs, hgs, hperm⟩ := @fieldwise_of_fieldValues? (fun n v => n.value? = some v) ns
    (fun _ _ _ hv => hv) [] fields hkeys hfields
  have hiff : (∃ n, (key, n) ∈ ns ∧ n = .string s) ↔ ∃ v, (key, v) ∈ gs ∧ v = .string s :=
    hgs.exists_iff fun n v hv => value?_eq_string_iff hv
  simp only [exists_eq_right] at hiff
  exact hiff.trans hperm.mem_iff

/-! Readers to which the order of fields makes no difference. -/

section
variable {α β : Type}

theorem map_eq_ok_iff {ε : Type} {f : α → β} {x : Except ε α} {b : β} :
    x.map f = .ok b ↔ ∃ a, x = .ok a ∧ f a = b := by
  refine ⟨exists_of_map_eq_ok, ?_⟩
  rintro ⟨a, rfl, rfl⟩
  rfl

theorem mapError_eq_ok_iff {ε δ : Type} {f : ε → δ} {x : Except ε α} {a : α} :
    x.mapError f = .ok a ↔ x = .ok a := by
  cases x <;> simp [Except.mapError]

def Orderless (decode : Node → Except Problem α) : Prop :=
  ∀ ⦃n m : Node⦄, Rearranged n m → ∀ a, decode n = .ok a ↔ decode m = .ok a

namespace Orderless

variable {decode : Node → Except Problem α}

theorem of_simple (harray : ∀ ns a, decode (.array ns) ≠ .ok a)
    (hobject : ∀ fields a, decode (.object fields) ≠ .ok a) : Orderless decode := by
  intro n m h a
  cases h with
  | same => rfl
  | array => exact iff_of_false (harray _ a) (harray _ a)
  | object => exact iff_of_false (hobject _ a) (hobject _ a)

@[simp]
theorem string : Orderless Codec.string.decode :=
  of_simple (fun _ _ => nofun) fun _ _ => nofun

@[simp]
theorem bool : Orderless Codec.bool.decode :=
  of_simple (fun _ _ => nofun) fun _ _ => nofun

@[simp]
theorem map (h : Orderless decode) (f : α → β) : Orderless fun n => (decode n).map f := by
  intro n m hnm b
  simp only [map_eq_ok_iff, h hnm]

@[simp]
theorem option {c : Codec α} (h : Orderless c.decode) : Orderless c.option.decode := by
  intro n m hnm a
  cases hnm with
  | same => rfl
  | array hms => exact h.map some (.array hms) a
  | object hkeys hfields hperm => exact h.map some (.object hkeys hfields hperm) a

end Orderless

end

/-! Fields. -/

variable {R : Type}

/-- It makes no difference which of two fields is read first. -/
def Field.Commutes (f g : Field R) : Prop :=
  ∀ n m a c, (∃ b, f.decode n a = .ok b ∧ g.decode m b = .ok c) ↔
    ∃ b, g.decode m a = .ok b ∧ f.decode n b = .ok c

instance : Std.Symm (@Field.Commutes R) where
  symm _ _ h n m a c := (h m n a c).symm

@[simp]
theorem Field.Commutes.of_set {α β : Type} {name name' : String}
    {encode encode' : R → Option Json} {isRequired isRequired' : Bool} {c : Codec α} {d : Codec β}
    {set : α → R → R} {set' : β → R → R}
    (hset : ∀ v w a, set' w (set v a) = set v (set' w a)) :
    Field.Commutes ⟨name, encode, fun n a => (c.decode n).map (set · a), isRequired⟩
      ⟨name', encode', fun n a => (d.decode n).map (set' · a), isRequired'⟩ := by
  intro n m a b
  simp only [map_eq_ok_iff]
  constructor
  · rintro ⟨_, ⟨v, hv, rfl⟩, w, hw, rfl⟩
    exact ⟨_, ⟨w, hw, rfl⟩, v, hv, (hset v w a).symm⟩
  · rintro ⟨_, ⟨w, hw, rfl⟩, v, hv, rfl⟩
    exact ⟨_, ⟨v, hv, rfl⟩, w, hw, hset v w a⟩

/-! Records. -/

namespace Record

variable {r : Record R} {seen seen' seen₁ seen₂ : List String} {a b c : R}

structure Independent (r : Record R) : Prop where
  orderless : ∀ f ∈ r.fields, ∀ a, Orderless (f.decode · a)
  commutes : r.fields.Pairwise Field.Commutes

/-- A field that is given takes the names of the fields before, and what has been read of a record, to
those after it. -/
inductive Takes (r : Record R) (field : String × Node) :
    List String → R → List String → R → Prop
  | unknown {seen : List String} {a : R} (h : r.fields.find? (·.name == field.1) = none) :
      Takes r field seen a seen a
  | known {seen : List String} {a b : R} {f : Field R}
      (h : r.fields.find? (·.name == field.1) = some f) (hnew : field.1 ∉ seen)
      (hread : f.decode field.2 a = .ok b) : Takes r field seen a (field.1 :: seen) b

theorem decodeFields_cons {field : String × Node} {fields : List (String × Node)} :
    r.decodeFields seen a (field :: fields) = .ok c ↔
      ∃ seen' b, r.Takes field seen a seen' b ∧ r.decodeFields seen' b fields = .ok c := by
  rw [decodeFields]
  constructor
  · intro h
    split at h
    · next hnone => exact ⟨seen, a, .unknown hnone, h⟩
    · next f hf =>
        split at h
        · cases h
        · next hnew =>
            split at h
            · next b hb => exact ⟨_, b, .known hf (by simpa using hnew) hb, h⟩
            · cases h
  · rintro ⟨seen', b, htakes, hrest⟩
    cases htakes with
    | unknown hnone => simpa only [hnone] using hrest
    | known hf hnew hread =>
        simp only [hf, hread]
        rwa [if_neg (by simpa using hnew)]

theorem decodeFields_perm (h : seen.Perm seen') (fields : List (String × Node)) :
    r.decodeFields seen a fields = r.decodeFields seen' a fields := by
  have hcontains (name : String) : seen.contains name = seen'.contains name := h.contains_eq
  induction fields generalizing seen seen' a with
  | nil => simp only [decodeFields, hcontains]
  | cons field fields ih =>
      simp only [decodeFields, hcontains]
      split
      · exact ih h hcontains
      · next f _ =>
          cases f.decode field.2 a with
          | error => rfl
          | ok b =>
              dsimp only
              rw [ih (h.cons field.1) fun _ => (h.cons field.1).contains_eq]

theorem Takes.swap (hcommutes : r.fields.Pairwise Field.Commutes) {x y : String × Node}
    (hne : x.1 ≠ y.1) (hx : r.Takes x seen a seen₁ b) (hy : r.Takes y seen₁ b seen₂ c) :
    ∃ seen' b' seen₃, r.Takes y seen a seen' b' ∧ r.Takes x seen' b' seen₃ c ∧
      seen₂.Perm seen₃ := by
  cases hx with
  | unknown hnone => exact ⟨_, _, _, hy, .unknown hnone, .refl _⟩
  | @known _ f hf hxnew hxread =>
      cases hy with
      | unknown hnone => exact ⟨_, _, _, .unknown hnone, .known hf hxnew hxread, .refl _⟩
      | @known _ g hg hynew hyread =>
          have hfname : f.name = x.1 := by simpa using List.find?_some hf
          have hgname : g.name = y.1 := by simpa using List.find?_some hg
          have hfg : f ≠ g := fun heq => hne (hfname.symm.trans (heq ▸ hgname))
          have hcommute : f.Commutes g := hcommutes.forall (List.mem_of_find?_eq_some hf)
            (List.mem_of_find?_eq_some hg) hfg
          obtain ⟨b', hy', hx'⟩ := (hcommute x.2 y.2 a c).mp ⟨b, hxread, hyread⟩
          refine ⟨_, b', _, .known hg (List.not_mem_of_not_mem_cons hynew) hy',
            .known hf ?_ hx', .swap _ _ _⟩
          exact List.not_mem_cons_of_ne_of_not_mem hne hxnew

theorem decodeFields_of_perm (hcommutes : r.fields.Pairwise Field.Commutes)
    {fields others : List (String × Node)} (hperm : fields.Perm others)
    (hkeys : (fields.map Prod.fst).Nodup) (h : r.decodeFields seen a fields = .ok c) :
    r.decodeFields seen a others = .ok c := by
  induction hperm generalizing seen a with
  | nil => exact h
  | cons field hperm ih =>
      obtain ⟨seen', b, htakes, hrest⟩ := decodeFields_cons.mp h
      exact decodeFields_cons.mpr ⟨seen', b, htakes, ih (List.nodup_cons.mp hkeys).2 hrest⟩
  | swap x y fields =>
      have hne : y.1 ≠ x.1 := fun heq =>
        (List.nodup_cons.mp hkeys).1 (heq ▸ List.mem_cons_self)
      obtain ⟨seen₁, b, hy, hnext⟩ := decodeFields_cons.mp h
      obtain ⟨seen₂, c, hx, hrest⟩ := decodeFields_cons.mp hnext
      obtain ⟨seen', b', seen₃, hx', hy', hseen⟩ := hy.swap hcommutes hne hx
      rw [decodeFields_perm hseen] at hrest
      exact decodeFields_cons.mpr ⟨seen', b', hx', decodeFields_cons.mpr ⟨seen₃, c, hy', hrest⟩⟩
  | trans hperm _ ih ih' => exact ih' ((hperm.map Prod.fst).nodup_iff.mp hkeys) (ih hkeys h)

theorem Independent.decodeFields (h : r.Independent) {fields others : List (String × Node)}
    (hsame : Fieldwise Rearranged fields others) :
    r.decodeFields seen a fields = .ok c ↔ r.decodeFields seen a others = .ok c := by
  induction hsame generalizing seen a with
  | nil => rfl
  | @cons key n m fields others hnm _ ih =>
      have htakes (seen' : List String) (b : R) :
          r.Takes (key, n) seen a seen' b ↔ r.Takes (key, m) seen a seen' b := by
        constructor <;> rintro (hnone | ⟨hf, hnew, hread⟩)
        · exact .unknown hnone
        · exact .known hf hnew ((h.orderless _ (List.mem_of_find?_eq_some hf) a hnm b).mp hread)
        · exact .unknown hnone
        · exact .known hf hnew ((h.orderless _ (List.mem_of_find?_eq_some hf) a hnm b).mpr hread)
      simp only [decodeFields_cons, htakes, ih]

theorem decodeElements_rearranged {fs : List (Field R)}
    (h : ∀ f ∈ fs, ∀ a, Orderless (f.decode · a)) {ns ms : List Node}
    (hsame : List.Forall₂ Rearranged ns ms) {seen : Nat} :
    r.decodeElements seen a fs ns = .ok c ↔ r.decodeElements seen a fs ms = .ok c := by
  induction fs generalizing ns ms seen a with
  | nil =>
      cases hsame with
      | nil => rfl
      | cons => simp [decodeElements]
  | cons f fs ih =>
      obtain ⟨hf, hfs⟩ := List.forall_mem_cons.mp h
      cases hsame with
      | nil => rfl
      | @cons n m ns ms hnm hrest =>
          have hread (b : R) : f.decode n a = .ok b ↔ f.decode m a = .ok b := hf a hnm b
          rw [decodeElements, decodeElements]
          cases hn : f.decode n a with
          | ok b =>
              rw [(hread b).mp hn]
              exact ih hfs hrest
          | error p =>
              cases hm : f.decode m a with
              | ok b => cases hn.symm.trans ((hread b).mpr hm)
              | error p' => simp

theorem Independent.decode (h : r.Independent) : Orderless r.decode := by
  intro n m hnm a
  cases hnm with
  | same => rfl
  | array hms => exact decodeElements_rearranged h.orderless hms
  | object hkeys hsame hperm =>
      have hothers := hsame.keys_eq ▸ hkeys
      have hordered := (hperm.map Prod.fst).nodup_iff.mp hothers
      refine (h.decodeFields hsame).trans ⟨?_, ?_⟩
      · exact decodeFields_of_perm h.commutes hperm hothers
      · exact decodeFields_of_perm h.commutes hperm.symm hordered

end Record

/-! Unions. -/

namespace Union

variable {u : Union R} {c : Case R} {fields : List (String × Node)}

theorem orderless_case : Orderless u.case :=
  .of_simple (fun _ _ => nofun) fun _ _ => nofun

theorem taggedCase_iff (hkeys : (fields.map Prod.fst).Nodup) :
    u.taggedCase none fields = .ok c ↔ ∃ n, (tag, n) ∈ fields ∧ u.case n = .ok c := by
  induction fields with
  | nil => exact ⟨nofun, fun h => nomatch h⟩
  | cons field fields ih =>
      obtain ⟨key, n⟩ := field
      obtain ⟨hkey, hrest⟩ := List.nodup_cons.mp hkeys
      by_cases htag : key = tag
      · have huntagged : ∀ field ∈ fields, field.1 ≠ tag := by
          intro field hfield heq
          have hmem : field.1 ∈ fields.map Prod.fst := List.mem_map_of_mem hfield
          exact hkey (htag.trans heq.symm ▸ hmem)
        have hread : u.taggedCase none ((key, n) :: fields) = u.case n := by
          rw [taggedCase, if_pos (beq_iff_eq.mpr htag)]
          cases u.case n with
          | ok c => exact taggedCase_of_untagged huntagged
          | error p => rfl
        rw [hread]
        constructor
        · exact fun h => ⟨n, htag ▸ List.mem_cons_self, h⟩
        · rintro ⟨m, hm, h⟩
          rcases List.mem_cons.mp hm with heq | hm
          · cases heq
            exact h
          · exact absurd rfl (huntagged _ hm)
      · rw [taggedCase, if_neg (by simpa using htag), ih hrest]
        simp [Ne.symm htag]

theorem isUsable_of_decode {n : Node} {a : R} (h : u.decode n = .ok a) : n.isUsable := by
  unfold decode at h
  split at h
  · cases h
  · next husable => simpa using husable

theorem decode_object (husable : (Node.object fields).isUsable)
    (hkeys : (fields.map Prod.fst).Nodup) {a : R} :
    u.decode (.object fields) = .ok a ↔ ∃ n, (tag, n) ∈ fields ∧
      ∃ c, u.case n = .ok c ∧ c.decode (.object (fields.filter (·.1 != tag))) = .ok a := by
  have htagged (c : Case R) := @taggedCase_iff R u c fields hkeys
  rw [decode, if_neg (by simp [husable])]
  cases hread : u.taggedCase none fields with
  | ok c =>
      dsimp only
      rw [mapError_eq_ok_iff]
      obtain ⟨n, hn, hcase⟩ := (htagged c).mp hread
      constructor
      · exact fun h => ⟨n, hn, c, hcase, h⟩
      · rintro ⟨m, hm, d, hd, h⟩
        cases hread.symm.trans ((htagged d).mpr ⟨m, hm, hd⟩)
        exact h
  | error p =>
      constructor
      · intro h
        cases h
      · rintro ⟨n, hn, c, hc, -⟩
        cases hread.symm.trans ((htagged c).mpr ⟨n, hn, hc⟩)

theorem decode_array {n : Node} {ns : List Node} (husable : (Node.array (n :: ns)).isUsable)
    {a : R} : u.decode (.array (n :: ns)) = .ok a ↔
      ∃ c, u.case n = .ok c ∧ c.decode (.array ns) = .ok a := by
  rw [decode, if_neg (by simp [husable])]
  cases u.case n with
  | ok c => simp [mapError_eq_ok_iff]
  | error p => simp

/-- The order of fields makes no difference to what is usable. -/
theorem decode_rearranged (hcases : ∀ c ∈ u.cases, Orderless c.decode) {n m : Node}
    (h : Rearranged n m) (hn : n.isUsable) (hm : m.isUsable) {a : R} :
    u.decode n = .ok a ↔ u.decode m = .ok a := by
  cases h with
  | same => rfl
  | array hsame =>
      cases hsame with
      | nil => rfl
      | cons hnm hrest =>
          rw [decode_array hn, decode_array hm]
          refine exists_congr fun c => ?_
          rw [orderless_case hnm]
          exact and_congr_right fun hc => hcases c (mem_of_case hc) (.array hrest) a
  | @object fields others ordered hkeys hsame hperm =>
      have hothers := hsame.keys_eq ▸ hkeys
      have hordered := (hperm.map Prod.fst).nodup_iff.mp hothers
      have hrest : Rearranged (.object (fields.filter (·.1 != tag)))
          (.object (ordered.filter (·.1 != tag))) :=
        .object ((List.filter_sublist.map Prod.fst).nodup hkeys) (hsame.filter (· != tag))
          (hperm.filter _)
      rw [decode_object hn hkeys, decode_object hm hordered]
      simp only [← hperm.mem_iff]
      refine hsame.exists_iff fun n m hnm => exists_congr fun c => ?_
      rw [orderless_case hnm]
      exact and_congr_right fun hc => hcases c (mem_of_case hc) hrest a

end Union

end ChannelAdapter.Json
