import ChannelAdapter.Json.Record
/-!
Nodes that differ in one field. Reading a record of them gives the same problem, or two records that
are alike as long as that field makes them so and the other fields keep them so.
-/

namespace ChannelAdapter.Json

/-- Two results with the same error, or with values that are related. -/
inductive Alike {ε α : Type} (P : α → α → Prop) : Except ε α → Except ε α → Prop
  | error (e : ε) : Alike P (.error e) (.error e)
  | ok {a b : α} (h : P a b) : Alike P (.ok a) (.ok b)

namespace Alike

variable {ε α β : Type} {P : α → α → Prop} {Q : β → β → Prop}

theorem map {f g : α → β} {x y : Except ε α} (h : Alike P x y)
    (hmap : ∀ a b, P a b → Q (f a) (g b)) : Alike Q (x.map f) (y.map g) := by
  cases h with
  | error e => exact .error e
  | ok h => exact .ok (hmap _ _ h)

theorem map_of_eq {f g : α → β} (x : Except ε α) (hmap : ∀ a, Q (f a) (g a)) :
    Alike Q (x.map f) (x.map g) := by
  cases x with
  | error e => exact .error e
  | ok a => exact .ok (hmap a)

end Alike

namespace Node

theorem isSome_values? {done : List Json} {ns : List Node} :
    (values? done ns).isSome ↔ ∀ n ∈ ns, n.isUsable := by
  induction ns generalizing done with
  | nil => simp [values?]
  | cons n ns ih =>
      rw [values?, List.forall_mem_cons, isUsable]
      cases n.value? <;> simp [ih]

theorem isSome_fieldValues? {done : List (String × Json)} {fields : List (String × Node)} :
    (fieldValues? done fields).isSome ↔ ∀ field ∈ fields, field.2.isUsable := by
  induction fields generalizing done with
  | nil => simp [fieldValues?]
  | cons field fields ih =>
      rw [fieldValues?, List.forall_mem_cons, isUsable]
      cases field.2.value? <;> simp [ih]

@[simp]
theorem isUsable_array {ns : List Node} : (Node.array ns).isUsable ↔ ∀ n ∈ ns, n.isUsable := by
  rw [isUsable, value?, Option.isSome_map, isSome_values?]

@[simp]
theorem isUsable_object {fields : List (String × Node)} :
    (Node.object fields).isUsable ↔ ∀ field ∈ fields, field.2.isUsable := by
  rw [isUsable, value?, Option.isSome_map, isSome_fieldValues?]

end Node

/-! Records. -/

namespace Record

variable {R : Type} {r : Record R} {P : R → R → Prop}

theorem alike_decodeFields {seen : List String} {a b : R} (h : P a b)
    (hfields : ∀ f ∈ r.fields, f.name ∉ seen → ∀ n a b, P a b →
      Alike P (f.decode n a) (f.decode n b)) (fields : List (String × Node)) :
    Alike P (r.decodeFields seen a fields) (r.decodeFields seen b fields) := by
  induction fields generalizing seen a b with
  | nil =>
      rw [decodeFields, decodeFields]
      split
      · exact .error _
      · exact .ok h
  | cons field fields ih =>
      rw [decodeFields, decodeFields]
      split
      · exact ih h hfields
      · next f hf =>
          have hname : f.name = field.1 := by simpa using List.find?_some hf
          split
          · exact .error _
          · next hnew =>
              have hread := hfields f (List.mem_of_find?_eq_some hf)
                (by simpa [hname] using hnew) field.2 a b h
              generalize f.decode field.2 a = x, f.decode field.2 b = y at hread
              cases hread with
              | error e => exact .error e
              | ok h =>
                  exact ih h fun g hg hgnew => hfields g hg (List.not_mem_of_not_mem_cons hgnew)

theorem alike_decodeFields_append {before rest others : List (String × Node)}
    (h : ∀ seen a, Alike P (r.decodeFields seen a rest) (r.decodeFields seen a others))
    (seen : List String) (a : R) :
    Alike P (r.decodeFields seen a (before ++ rest))
      (r.decodeFields seen a (before ++ others)) := by
  induction before generalizing seen a with
  | nil => exact h seen a
  | cons field before ih =>
      rw [List.cons_append, List.cons_append, decodeFields, decodeFields]
      split
      · exact ih seen a
      · next f _ =>
          split
          · exact .error _
          · cases f.decode field.2 a with
            | error e => exact .error e
            | ok b => exact ih _ b

theorem alike_decodeElements {fs : List (Field R)} {seen : Nat} {a b : R} (h : P a b)
    (hfields : ∀ f ∈ fs, ∀ n a b, P a b → Alike P (f.decode n a) (f.decode n b))
    (ns : List Node) :
    Alike P (r.decodeElements seen a fs ns) (r.decodeElements seen b fs ns) := by
  induction fs generalizing seen a b ns with
  | nil =>
      cases ns with
      | nil => exact .ok h
      | cons n ns => exact .error _
  | cons f fs ih =>
      obtain ⟨hf, hfs⟩ := List.forall_mem_cons.mp hfields
      cases ns with
      | nil =>
          rw [decodeElements, decodeElements]
          split
          · exact .error _
          · exact ih h hfs []
      | cons n ns =>
          have hread := hf n a b h
          rw [decodeElements, decodeElements]
          generalize f.decode n a = x, f.decode n b = y at hread
          cases hread with
          | error e => exact .error e
          | ok h => exact ih h hfs ns

section
variable {f : Field R} {n m : Node} (hhole : ∀ a, Alike P (f.decode n a) (f.decode m a))

include hhole

theorem alike_decode_object (hf : r.fields.find? (·.name == f.name) = some f)
    (hothers : ∀ g ∈ r.fields, g.name ≠ f.name → ∀ n a b, P a b →
      Alike P (g.decode n a) (g.decode n b)) (before after : List (String × Node)) :
    Alike P (r.decode (.object (before ++ (f.name, n) :: after)))
      (r.decode (.object (before ++ (f.name, m) :: after))) := by
  refine alike_decodeFields_append (fun seen a => ?_) [] r.blank
  rw [decodeFields, decodeFields, hf]
  dsimp only
  split
  · exact .error _
  · have hread := hhole a
    generalize f.decode n a = x, f.decode m a = y at hread
    cases hread with
    | error e => exact .error e
    | ok h =>
        refine alike_decodeFields h (fun g hg hnew => hothers g hg ?_) after
        exact List.ne_of_not_mem_cons hnew

theorem alike_decodeElements_append {fs gs : List (Field R)}
    (hothers : ∀ g ∈ gs, ∀ n a b, P a b → Alike P (g.decode n a) (g.decode n b))
    {before : List Node} (hlength : before.length = fs.length) (after : List Node) (seen : Nat)
    (a : R) :
    Alike P (r.decodeElements seen a (fs ++ f :: gs) (before ++ n :: after))
      (r.decodeElements seen a (fs ++ f :: gs) (before ++ m :: after)) := by
  induction fs generalizing before seen a with
  | nil =>
      have hread := hhole a
      rw [List.eq_nil_of_length_eq_zero hlength, List.nil_append, List.nil_append, List.nil_append,
        decodeElements, decodeElements]
      generalize f.decode n a = x, f.decode m a = y at hread
      cases hread with
      | error e => exact .error e
      | ok h => exact alike_decodeElements h hothers after
  | cons g fs ih =>
      obtain ⟨k, before, rfl⟩ := List.exists_cons_of_length_eq_add_one hlength
      rw [List.cons_append, List.cons_append, List.cons_append, decodeElements, decodeElements]
      cases g.decode k a with
      | error e => exact .error e
      | ok b => exact ih (by simpa using hlength) _ b

theorem alike_decode_array {fs gs : List (Field R)} (hsplit : r.fields = fs ++ f :: gs)
    (hothers : ∀ g ∈ gs, ∀ n a b, P a b → Alike P (g.decode n a) (g.decode n b))
    (before after : List Node) (hlength : before.length = fs.length) :
    Alike P (r.decode (.array (before ++ n :: after)))
      (r.decode (.array (before ++ m :: after))) := by
  rw [decode, decode, hsplit]
  exact alike_decodeElements_append hhole hothers hlength after 0 r.blank

end

end Record

end ChannelAdapter.Json
