import ChannelAdapter.Json.Codec
import ChannelAdapter.Proofs.Json.Sorted
/-!
Codecs that are faithful: what they write of a value is read as that value again.
-/

namespace ChannelAdapter.Json

theorem find?_name {α : Type} {name : α → String} {all : List α} (hnames : (all.map name).Nodup)
    {a : α} (ha : a ∈ all) : all.find? (name · == name a) = some a := by
  induction all with
  | nil => exact absurd ha List.not_mem_nil
  | cons b all ih =>
      obtain ⟨hb, hall⟩ := List.nodup_cons.mp hnames
      rcases List.mem_cons.mp ha with rfl | ha
      · rw [List.find?_cons_of_pos (by simp)]
      · have hne : name b ≠ name a := fun heq => hb (heq ▸ List.mem_map_of_mem ha)
        rw [List.find?_cons_of_neg (by simpa using hne)]
        exact ih hall ha

theorem exists_of_map_eq_ok {ε α β : Type} {f : α → β} {x : Except ε α} {b : β}
    (h : x.map f = .ok b) : ∃ a, x = .ok a ∧ f a = b := by
  cases x with
  | error e => cases h
  | ok a => exact ⟨a, rfl, Except.ok.inj h⟩

def IsI64 (n : Int) : Prop :=
  -0x8000000000000000 ≤ n ∧ n ≤ 0x7FFFFFFFFFFFFFFF

def IsU64 (n : Nat) : Prop :=
  n ≤ 0xFFFFFFFFFFFFFFFF

instance (n : Int) : Decidable (IsI64 n) :=
  inferInstanceAs (Decidable (_ ∧ _))

instance (n : Nat) : Decidable (IsU64 n) :=
  inferInstanceAs (Decidable (_ ≤ _))

namespace Codec

/-- The values that a codec reads are sound, and a sound value is what is read once it has been
written. The numbers that are written of it are integers if those are that it is free to hold. -/
structure Faithful {α : Type} (c : Codec α) (Sound Whole : α → Prop) : Prop where
  sound : ∀ n a, c.decode n = .ok a → Sound a
  decode_encode : ∀ a, Sound a → c.decode (.ofValue (c.encode a)) = .ok a
  integral : ∀ a, Sound a → Whole a → Integral (c.encode a)

namespace Faithful

theorem string : Faithful Codec.string (fun _ => True) fun _ => True :=
  ⟨fun _ _ _ => trivial, fun _ _ => rfl, fun s _ _ => .string s⟩

theorem bool : Faithful Codec.bool (fun _ => True) fun _ => True :=
  ⟨fun _ _ _ => trivial, fun _ _ => rfl, fun b _ _ => .bool b⟩

theorem integer (expected : String) {lo hi : Int} (hlo : -0x8000000000000000 ≤ lo)
    (hhi : hi ≤ 0xFFFFFFFFFFFFFFFF) :
    Faithful (Codec.integer expected lo hi) (fun n => lo ≤ n ∧ n ≤ hi) fun _ => True where
  sound n a h := by
    simp only [Codec.integer] at h
    split at h
    · split at h
      · next hrange =>
          cases h
          exact hrange
      · cases h
    · cases h
  decode_encode a h := if_pos h
  integral a h _ := .integer ⟨Int.le_trans hlo h.1, Int.le_trans h.2 hhi⟩

theorem natural (expected : String) {hi : Nat} (hhi : hi ≤ 0xFFFFFFFFFFFFFFFF) :
    Faithful (Codec.natural expected hi) (· ≤ hi) fun _ => True := by
  have hinteger : Faithful (Codec.integer expected 0 hi) (fun n => 0 ≤ n ∧ n ≤ hi) fun _ => True :=
    integer expected (by decide) (by omega)
  have hrange {n : Nat} (h : n ≤ hi) : (0 : Int) ≤ n ∧ (n : Int) ≤ hi := by omega
  constructor
  case sound =>
    intro n a h
    obtain ⟨i, hi, rfl⟩ := exists_of_map_eq_ok h
    have := hinteger.sound n i hi
    omega
  case decode_encode =>
    exact fun a h => congrArg (·.map Int.toNat) (hinteger.decode_encode a (hrange h))
  case integral =>
    exact fun a h _ => hinteger.integral a (hrange h) trivial

theorem i64 : Faithful Codec.i64 IsI64 fun _ => True :=
  integer "i64" (by decide) (by decide)

theorem u64 : Faithful Codec.u64 IsU64 fun _ => True :=
  natural "u64" (by decide)

theorem usize : Faithful Codec.usize IsU64 fun _ => True :=
  natural "usize" (by decide)

variable {α : Type} {c : Codec α} {P I : α → Prop}

theorem list (h : Faithful c P I) :
    Faithful c.list (fun xs => ∀ x ∈ xs, P x) fun xs => ∀ x ∈ xs, I x where
  sound n xs hread := by
    have hall {done : List α} {ns : List Node} (hdone : ∀ x ∈ done, P x)
        (hread : decodeAll c.decode done ns = .ok xs) : ∀ x ∈ xs, P x := by
      induction ns generalizing done with
      | nil =>
          cases hread
          exact fun x hx => hdone x (List.mem_reverse.mp hx)
      | cons n ns ih =>
          rw [decodeAll] at hread
          split at hread
          · next a ha => exact ih (List.forall_mem_cons.mpr ⟨h.sound n a ha, hdone⟩) hread
          · cases hread
    simp only [Codec.list] at hread
    split at hread
    · exact hall (List.forall_mem_nil _) hread
    · cases hread
  decode_encode xs hxs := by
    have hall (done : List α) :
        decodeAll c.decode done ((xs.map c.encode).map Node.ofValue) =
          .ok (done.reverse ++ xs) := by
      induction xs generalizing done with
      | nil => rw [List.map_nil, List.map_nil, decodeAll, List.append_nil]
      | cons x xs ih =>
          obtain ⟨hx, hxs⟩ := List.forall_mem_cons.mp hxs
          rw [List.map_cons, List.map_cons, decodeAll, h.decode_encode x hx]
          dsimp only
          rw [ih hxs, List.reverse_cons, List.append_assoc]
          rfl
    simp only [Codec.list, Node.ofValue_array]
    exact hall []
  integral xs hxs hwhole := by
    refine .array fun v hv => ?_
    obtain ⟨x, hx, rfl⟩ := List.mem_map.mp hv
    exact h.integral x (hxs x hx) (hwhole x hx)

theorem map : Faithful Codec.map (fun fields => Sorted (.object fields))
    fun fields => Integral (.object fields) where
  sound n fields hread := by
    simp only [Codec.map] at hread
    split at hread
    · next ns =>
        split at hread
        · next fields' hfields =>
            cases hread
            have hvalue : (Node.object ns).value? = some (.object fields) :=
              congrArg (Option.map Json.object) hfields
            exact Node.sorted_of_value? hvalue
        · cases hread
    · cases hread
  decode_encode fields h := by
    have hvalue := Node.value?_ofValue h
    rw [Node.ofValue_object, Node.value?] at hvalue
    obtain ⟨fields', hfields, heq⟩ := Option.map_eq_some_iff.mp hvalue
    cases heq
    simp [Codec.map, hfields]
  integral _ _ hwhole := hwhole

/-- Null stands for nothing, so it must not be written of a value. -/
theorem option (h : Faithful c P I) (hnull : ∀ a, c.encode a ≠ .null) :
    Faithful c.option (fun o => ∀ a ∈ o, P a) fun o => ∀ a ∈ o, I a where
  sound n o hread := by
    simp only [Codec.option] at hread
    split at hread
    · cases hread
      exact fun _ => nofun
    · obtain ⟨a, ha, rfl⟩ := exists_of_map_eq_ok hread
      intro b hb
      cases hb
      exact h.sound n a ha
  decode_encode o ho := by
    cases o with
    | none => rfl
    | some a =>
        simp only [Codec.option]
        split
        · next hnode => exact absurd hnode (Node.ofValue_ne_null (hnull a))
        · rw [h.decode_encode a (ho a rfl)]
          rfl
  integral o ho hwhole := by
    cases o with
    | none => exact .null
    | some a => exact h.integral a (ho a rfl) (hwhole a rfl)

theorem names {all : List α} {name : α → String} (hnames : (all.map name).Nodup)
    (hall : ∀ a, a ∈ all) : Faithful (Codec.names all name) (fun _ => True) fun _ => True where
  sound _ _ _ := trivial
  decode_encode a _ := by
    simp [Codec.names, Codec.names.ofName, Node.ofValue, find?_name hnames (hall a)]
  integral a _ _ := .string (name a)

/-! Texts. -/

theorem sound_read (h : Faithful c P I) {text : String} {a : α} (hread : c.read text = .ok a) :
    P a := by
  rw [Codec.read] at hread
  split at hread
  · cases hread
  · next n hn =>
      split at hread
      · next b hb =>
          cases hread
          exact h.sound n a hb
      · cases hread

theorem read_write (h : Faithful c P I) {a : α} (ha : P a) (hwhole : I a)
    (hdepth : depth (c.encode a) ≤ maxDepth) : c.read (c.write a) = .ok a := by
  rw [Codec.read, Codec.write, (h.integral a ha hwhole).parse?_text hdepth]
  dsimp only
  rw [h.decode_encode a ha]

end Faithful

theorem read_eq_ok_iff {α : Type} {c : Codec α} {text : String} {n : Node}
    (h : Node.parse? text.toList = some n) {a : α} :
    c.read text = .ok a ↔ c.decode n = .ok a := by
  rw [Codec.read, h]
  dsimp only
  cases c.decode n <;> simp

end Codec

end ChannelAdapter.Json
