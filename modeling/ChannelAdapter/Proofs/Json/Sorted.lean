import ChannelAdapter.Proofs.Json.Node
/-!
The values of nodes. The keys of a value that has been read are sorted, and a value with sorted keys
is that of its node.
-/

namespace ChannelAdapter.Json

/-- The keys of all objects in a value are sorted, and none is repeated. -/
inductive Sorted : Json → Prop
  | null : Sorted .null
  | bool (b : Bool) : Sorted (.bool b)
  | number (n : Number) : Sorted (.number n)
  | string (s : String) : Sorted (.string s)
  | array {xs : List Json} (h : ∀ x ∈ xs, Sorted x) : Sorted (.array xs)
  | object {fields : List (String × Json)} (hkeys : fields.Pairwise fun a b => a.1 < b.1)
      (h : ∀ field ∈ fields, Sorted field.2) : Sorted (.object fields)

/-! Insertion. -/

section
variable {key : String} {value : Json} {fields : List (String × Json)}

theorem insert_of_lt (h : ∀ field ∈ fields, field.1 < key) :
    insert key value fields = fields ++ [(key, value)] := by
  induction fields with
  | nil => rfl
  | cons field fields ih =>
      obtain ⟨hlt, hfields⟩ := List.forall_mem_cons.mp h
      have hne : key ≠ field.1 := fun heq => String.lt_irrefl key (heq ▸ hlt)
      rw [insert, if_neg (String.lt_asymm hlt), if_neg hne, ih hfields]
      rfl

theorem mem_insert {field : String × Json} (h : field ∈ insert key value fields) :
    field = (key, value) ∨ field ∈ fields := by
  induction fields with
  | nil => exact .inl (List.mem_singleton.mp h)
  | cons first fields ih =>
      rw [insert] at h
      split at h
      · exact List.mem_cons.mp h
      · split at h
        · exact (List.mem_cons.mp h).imp_right (.tail first)
        · rcases List.mem_cons.mp h with rfl | h
          · exact .inr List.mem_cons_self
          · exact (ih h).imp_right (.tail first)

theorem pairwise_insert (h : fields.Pairwise fun a b => a.1 < b.1) :
    (insert key value fields).Pairwise fun a b => a.1 < b.1 := by
  induction fields with
  | nil => exact List.pairwise_singleton _ _
  | cons first fields ih =>
      obtain ⟨hfirst, hfields⟩ := List.pairwise_cons.mp h
      rw [insert]
      split
      · next hlt =>
          refine .cons (fun field hfield => ?_) h
          rcases List.mem_cons.mp hfield with rfl | hfield
          · exact hlt
          · exact String.lt_trans hlt (hfirst field hfield)
      · next hge =>
          split
          · next heq => exact .cons (heq ▸ hfirst) hfields
          · next hne =>
              refine .cons (fun field hfield => ?_) (ih hfields)
              rcases mem_insert hfield with rfl | hfield
              · exact Std.lt_of_le_of_ne hge (Ne.symm hne)
              · exact hfirst field hfield

theorem Sorted.insert (hv : Sorted value) (h : Sorted (.object fields)) :
    Sorted (.object (insert key value fields)) := by
  cases h with
  | object hkeys hfields =>
      refine .object (pairwise_insert hkeys) fun field hfield => ?_
      rcases mem_insert hfield with rfl | hmem
      · exact hv
      · exact hfields field hmem

end

/-! Values. -/

namespace Node

@[induction_eliminator]
theorem induction {motive : Node → Prop} (null : motive .null) (bool : ∀ b, motive (.bool b))
    (number : ∀ n, motive (.number n)) (string : ∀ s, motive (.string s))
    (array : ∀ ns, (∀ n ∈ ns, motive n) → motive (.array ns))
    (object : ∀ fields, (∀ field ∈ fields, motive field.2) → motive (.object fields))
    (unusable : motive .unusable) (n : Node) : motive n := by
  refine @Node.rec motive (fun ns => ∀ n ∈ ns, motive n)
    (fun fields => ∀ field ∈ fields, motive field.2) (fun field => motive field.2)
    null bool number string array object unusable ?_ ?_ ?_ ?_ ?_ n
  · exact List.forall_mem_nil _
  · exact fun _ _ hn hns => List.forall_mem_cons.mpr ⟨hn, hns⟩
  · exact List.forall_mem_nil _
  · exact fun _ _ hfield hfields => List.forall_mem_cons.mpr ⟨hfield, hfields⟩
  · exact fun _ _ hn => hn

/-! What is read has sorted keys. -/

theorem sorted_of_values? {ns : List Node} (h : ∀ n ∈ ns, ∀ v, n.value? = some v → Sorted v)
    {done xs : List Json} (hdone : ∀ x ∈ done, Sorted x) (hxs : values? done ns = some xs) :
    ∀ x ∈ xs, Sorted x := by
  induction ns generalizing done with
  | nil =>
      cases hxs
      exact fun x hx => hdone x (List.mem_reverse.mp hx)
  | cons n ns ih =>
      obtain ⟨hn, hns⟩ := List.forall_mem_cons.mp h
      rw [values?] at hxs
      split at hxs
      · next v hv => exact ih hns (List.forall_mem_cons.mpr ⟨hn v hv, hdone⟩) hxs
      · cases hxs

theorem sorted_of_fieldValues? {ns : List (String × Node)}
    (h : ∀ n ∈ ns, ∀ v, n.2.value? = some v → Sorted v) {done fields : List (String × Json)}
    (hdone : Sorted (.object done)) (hfields : fieldValues? done ns = some fields) :
    Sorted (.object fields) := by
  induction ns generalizing done with
  | nil =>
      cases hfields
      exact hdone
  | cons n ns ih =>
      obtain ⟨hn, hns⟩ := List.forall_mem_cons.mp h
      rw [fieldValues?] at hfields
      split at hfields
      · next v hv => exact ih hns ((hn v hv).insert hdone) hfields
      · cases hfields

theorem sorted_of_value? {n : Node} {v : Json} (h : n.value? = some v) : Sorted v := by
  induction n generalizing v with
  | null => cases h; exact .null
  | bool b => cases h; exact .bool b
  | number n => cases h; exact .number n
  | string s => cases h; exact .string s
  | array ns ih =>
      obtain ⟨xs, hxs, rfl⟩ := Option.map_eq_some_iff.mp h
      exact .array (sorted_of_values? (fun n hn _ => ih n hn) (List.forall_mem_nil _) hxs)
  | object ns ih =>
      obtain ⟨fields, hfields, rfl⟩ := Option.map_eq_some_iff.mp h
      exact sorted_of_fieldValues? (fun n hn _ => ih n hn) (.object .nil (List.forall_mem_nil _))
        hfields
  | unusable => cases h

/-! Nodes of values have values. -/

theorem values?_ofValue {xs : List Json} (done : List Json)
    (h : ∀ x ∈ xs, (ofValue x).value? = some x) :
    values? done (xs.map ofValue) = some (done.reverse ++ xs) := by
  induction xs generalizing done with
  | nil => rw [List.map_nil, values?, List.append_nil]
  | cons x xs ih =>
      obtain ⟨hx, hxs⟩ := List.forall_mem_cons.mp h
      rw [List.map_cons, values?, hx]
      dsimp only
      rw [ih _ hxs, List.reverse_cons, List.append_assoc]
      rfl

theorem fieldValues?_ofValue {fields : List (String × Json)} (done : List (String × Json))
    (hkeys : (done ++ fields).Pairwise fun a b => a.1 < b.1)
    (h : ∀ field ∈ fields, (ofValue field.2).value? = some field.2) :
    fieldValues? done (fields.map (Prod.map id ofValue)) = some (done ++ fields) := by
  induction fields generalizing done with
  | nil => rw [List.map_nil, fieldValues?, List.append_nil]
  | cons field fields ih =>
      obtain ⟨hfield, hfields⟩ := List.forall_mem_cons.mp h
      have hlt : ∀ g ∈ done, g.1 < field.1 := fun g hg =>
        (List.pairwise_append.mp hkeys).2.2 g hg field List.mem_cons_self
      rw [List.append_cons] at hkeys ⊢
      rw [← ih _ hkeys hfields, List.map_cons, Prod.map, fieldValues?, hfield]
      dsimp only [id]
      rw [insert_of_lt hlt]

theorem value?_ofValue {v : Json} (h : Sorted v) : (ofValue v).value? = some v := by
  induction h with
  | null => rfl
  | bool b => rfl
  | number n => rfl
  | string s => rfl
  | array h ih => rw [ofValue_array, value?, values?_ofValue [] ih]; rfl
  | object hkeys h ih =>
      rw [ofValue_object, value?, fieldValues?_ofValue [] hkeys ih]
      rfl

theorem isUsable_ofValue (v : Json) : (ofValue v).isUsable := by
  rw [isUsable]
  induction v with
  | array xs ih =>
      have hvalues (done : List Json) : (values? done (xs.map ofValue)).isSome := by
        induction xs generalizing done with
        | nil => rfl
        | cons x xs ihs =>
            obtain ⟨v, hv⟩ := Option.isSome_iff_exists.mp (ih x List.mem_cons_self)
            rw [List.map_cons, values?, hv]
            exact ihs (fun y hy => ih y (.tail x hy)) _
      rw [ofValue_array, value?, Option.isSome_map]
      exact hvalues []
  | object fields ih =>
      have hvalues (done : List (String × Json)) :
          (fieldValues? done (fields.map (Prod.map id ofValue))).isSome := by
        induction fields generalizing done with
        | nil => rfl
        | cons field fields ihs =>
            obtain ⟨v, hv⟩ := Option.isSome_iff_exists.mp (ih field List.mem_cons_self)
            rw [List.map_cons, Prod.map, fieldValues?, hv]
            exact ihs (fun g hg => ih g (.tail field hg)) _
      rw [ofValue_object, value?, Option.isSome_map]
      exact hvalues []
  | _ => rfl

end Node

end ChannelAdapter.Json
