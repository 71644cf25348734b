import ChannelAdapter.Json.Node
import ChannelAdapter.Proofs.Json.Token
/-!
How written texts are read. The tokens of a value are read as that value on top of whatever is being
read, as long as its containers are not nested too deep.
-/

namespace ChannelAdapter.Json

/-! Nodes of values. -/

namespace Node

theorem ofValues_eq (done : List Node) (xs : List Json) :
    ofValues done xs = done.reverse ++ xs.map ofValue := by
  induction xs generalizing done with
  | nil => rw [ofValues, List.map_nil, List.append_nil]
  | cons x xs ih => rw [ofValues, ih, List.reverse_cons, List.append_assoc]; rfl

theorem ofFields_eq (done : List (String × Node)) (fields : List (String × Json)) :
    ofFields done fields = done.reverse ++ fields.map (Prod.map id ofValue) := by
  induction fields generalizing done with
  | nil => rw [ofFields, List.map_nil, List.append_nil]
  | cons field fields ih => rw [ofFields, ih, List.reverse_cons, List.append_assoc]; rfl

@[simp] theorem ofValue_array (xs : List Json) : ofValue (.array xs) = .array (xs.map ofValue) := by
  rw [ofValue, ofValues_eq]
  rfl

@[simp] theorem ofValue_object (fields : List (String × Json)) :
    ofValue (.object fields) = .object (fields.map (Prod.map id ofValue)) := by
  rw [ofValue, ofFields_eq]
  rfl

theorem ofValue_ne_null {v : Json} (h : v ≠ .null) : ofValue v ≠ .null := by
  cases v with
  | null => exact absurd rfl h
  | _ => simp [ofValue]

end Node

/-! Depth. -/

mutual

def depth : Json → Nat
  | .array xs => elementDepth xs + 1
  | .object fields => fieldDepth fields + 1
  | _ => 0

def elementDepth : List Json → Nat
  | [] => 0
  | x :: xs => max (depth x) (elementDepth xs)

def fieldDepth : List (String × Json) → Nat
  | [] => 0
  | (_, v) :: fields => max (depth v) (fieldDepth fields)

end

theorem depth_le_elementDepth {x : Json} {xs : List Json} (h : x ∈ xs) :
    depth x ≤ elementDepth xs := by
  induction h with
  | head xs => exact Nat.le_max_left _ _
  | tail y _ ih => exact Nat.le_trans ih (Nat.le_max_right _ _)

theorem depth_le_fieldDepth {field : String × Json} {fields : List (String × Json)}
    (h : field ∈ fields) : depth field.2 ≤ fieldDepth fields := by
  induction h with
  | head fields => exact Nat.le_max_left _ _
  | tail other _ ih => exact Nat.le_trans ih (Nat.le_max_right _ _)

/-! Reading. -/

/-- In the containers that are being read, the tokens of a value are read as its node. -/
def ReadsIn (stack : List Frame) (v : Json) : Prop :=
  ∀ ts, Reading.run (.value stack) (tokens v ++ ts) =
    Reading.run (place (Node.ofValue v) stack) ts

theorem run_element (stack : List Frame) (v : Json) (ts : List Token) :
    Reading.run (.element stack) (tokens v ++ ts) =
      Reading.run (.value stack) (tokens v ++ ts) := by
  cases v <;> rfl

section
variable {d : Nat} (hd : d ≤ maxDepth) (stack : List Frame) (ts : List Token)
include hd

theorem run_elements {xs : List Json} (ns : List Node)
    (h : ∀ x ∈ xs, ∀ ns, ReadsIn (.array d ns :: stack) x) :
    Reading.run (.separator (.array d ns :: stack))
        (elementTokens false xs ++ .closeArray :: ts) =
      Reading.run (place (.array (ns.reverse ++ xs.map Node.ofValue)) stack) ts := by
  induction xs generalizing ns with
  | nil =>
      change Reading.run (place (close d (.array ns.reverse)) stack) ts = _
      rw [close, if_pos hd, List.map_nil, List.append_nil]
  | cons x xs ih =>
      obtain ⟨hx, hxs⟩ := List.forall_mem_cons.mp h
      change Reading.run (.value (.array d ns :: stack))
        ((tokens x ++ elementTokens false xs) ++ .closeArray :: ts) = _
      rw [List.append_assoc, hx]
      refine (ih (Node.ofValue x :: ns) hxs).trans ?_
      rw [List.reverse_cons, List.append_assoc]
      rfl

theorem run_array {xs : List Json} (h : ∀ x ∈ xs, ∀ ns, ReadsIn (.array d ns :: stack) x) :
    Reading.run (.element (.array d [] :: stack)) (elementTokens true xs ++ .closeArray :: ts) =
      Reading.run (place (.array (xs.map Node.ofValue)) stack) ts := by
  cases xs with
  | nil =>
      change Reading.run (place (close d (.array [])) stack) ts = _
      rw [close, if_pos hd]
      rfl
  | cons x xs =>
      obtain ⟨hx, hxs⟩ := List.forall_mem_cons.mp h
      change Reading.run (.element (.array d [] :: stack))
        ((tokens x ++ elementTokens false xs) ++ .closeArray :: ts) = _
      rw [List.append_assoc, run_element, hx]
      exact run_elements hd stack ts [Node.ofValue x] hxs

theorem run_fields {fields : List (String × Json)} (ns : List (String × Node))
    (h : ∀ field ∈ fields, ∀ ns, ReadsIn (.member d true ns field.1 :: stack) field.2) :
    Reading.run (.separator (.object d true ns :: stack))
        (fieldTokens false fields ++ .closeObject :: ts) =
      Reading.run (place (.object (ns.reverse ++ fields.map (Prod.map id Node.ofValue))) stack)
        ts := by
  induction fields generalizing ns with
  | nil =>
      change Reading.run (place (close d (.object ns.reverse)) stack) ts = _
      rw [close, if_pos hd, List.map_nil, List.append_nil]
  | cons field fields ih =>
      obtain ⟨hv, hfields⟩ := List.forall_mem_cons.mp h
      change Reading.run (.value (.member d true ns field.1 :: stack))
        ((tokens field.2 ++ fieldTokens false fields) ++ .closeObject :: ts) = _
      rw [List.append_assoc, hv]
      refine (ih ((field.1, Node.ofValue field.2) :: ns) hfields).trans ?_
      rw [List.reverse_cons, List.append_assoc]
      rfl

theorem run_object {fields : List (String × Json)}
    (h : ∀ field ∈ fields, ∀ ns, ReadsIn (.member d true ns field.1 :: stack) field.2) :
    Reading.run (.member (.object d true [] :: stack))
        (fieldTokens true fields ++ .closeObject :: ts) =
      Reading.run (place (.object (fields.map (Prod.map id Node.ofValue))) stack) ts := by
  cases fields with
  | nil =>
      change Reading.run (place (close d (.object [])) stack) ts = _
      rw [close, if_pos hd]
      rfl
  | cons field fields =>
      obtain ⟨hv, hfields⟩ := List.forall_mem_cons.mp h
      change Reading.run (.value (.member d true [] field.1 :: stack))
        ((tokens field.2 ++ fieldTokens false fields) ++ .closeObject :: ts) = _
      rw [List.append_assoc, hv]
      exact run_fields hd stack ts [(field.1, Node.ofValue field.2)] hfields

end

theorem readsIn (v : Json) (stack : List Frame) (h : innerDepth stack + depth v ≤ maxDepth + 1) :
    ReadsIn stack v := by
  induction v generalizing stack with
  | null => exact fun _ => rfl
  | bool b => exact fun _ => rfl
  | number n => exact fun _ => rfl
  | string s => exact fun _ => rfl
  | array xs ih =>
      rw [depth] at h
      have hd : innerDepth stack ≤ maxDepth := by omega
      have hreads (x : Json) (hx : x ∈ xs) (ns : List Node) :
          ReadsIn (.array (innerDepth stack) ns :: stack) x := by
        have hle := depth_le_elementDepth hx
        exact ih x hx _ (by rw [innerDepth, Frame.depth]; omega)
      intro ts
      rw [Node.ofValue_array, tokens, List.cons_append, List.append_assoc]
      exact run_array hd stack ts hreads
  | object fields ih =>
      rw [depth] at h
      have hd : innerDepth stack ≤ maxDepth := by omega
      have hreads (field : String × Json) (hfield : field ∈ fields) (ns : List (String × Node)) :
          ReadsIn (.member (innerDepth stack) true ns field.1 :: stack) field.2 := by
        have hle := depth_le_fieldDepth hfield
        exact ih field hfield _ (by rw [innerDepth, Frame.depth]; omega)
      intro ts
      rw [Node.ofValue_object, tokens, List.cons_append, List.append_assoc]
      exact run_object hd stack ts hreads

theorem Integral.parse?_text {v : Json} (h : Integral v) (hdepth : depth v ≤ maxDepth) :
    Node.parse? v.text.toList = some (Node.ofValue v) := by
  have hrun := readsIn v [] (by rw [innerDepth]; omega) []
  rw [List.append_nil] at hrun
  rw [Node.parse?, h.tokens?_text]
  exact hrun

end ChannelAdapter.Json
