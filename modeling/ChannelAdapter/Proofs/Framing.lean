import ChannelAdapter.Output
import ChannelAdapter.Proofs.Input
import ChannelAdapter.Proofs.Json.Written
/-!
Framing: what has been written record by record is read line by line. A text has no control in it,
so its line ends where the writer has ended it, and keeps its last character.
-/

namespace ChannelAdapter

/-! Bytes of texts. -/

def utf8 (text : String) : List UInt8 :=
  text.toUTF8.data.toList

theorem utf8_eq (text : String) : utf8 text = text.toList.flatMap String.utf8EncodeChar := by
  rw [utf8, String.toUTF8, ← String.utf8Encode_toList, List.utf8Encode, List.data_toByteArray]

theorem length_utf8 (text : String) : (utf8 text).length = text.utf8ByteSize := by
  rw [utf8, Array.length_toList]
  rfl

theorem utf8_append (a b : String) : utf8 (a ++ b) = utf8 a ++ utf8 b := by
  simp only [utf8_eq, String.toList_append, List.flatMap_append]

theorem le_of_mem_utf8EncodeChar {c : Char} (hc : 0x20 ≤ c.toNat) {b : UInt8}
    (hb : b ∈ String.utf8EncodeChar c) : 0x20 ≤ b.toNat := by
  have hval : c.val.toNat = c.toNat := rfl
  rw [String.utf8EncodeChar.eq_1, hval] at hb
  have hsmall (n : Nat) (hlow : 0x20 ≤ n) (hhigh : n < 256) : 0x20 ≤ (UInt8.ofNat n).toNat := by
    rwa [UInt8.toNat_ofNat_of_lt' hhigh]
  repeat' split at hb
  all_goals
    simp only [List.mem_cons, List.not_mem_nil, or_false] at hb
    rcases hb with rfl | rfl | rfl | rfl
    all_goals exact hsmall _ (by omega) (by omega)

theorem le_of_mem_utf8 {text : String} (h : Json.NoControls text.toList) {b : UInt8}
    (hb : b ∈ utf8 text) : 0x20 ≤ b.toNat := by
  rw [utf8_eq] at hb
  obtain ⟨c, hc, hb⟩ := List.mem_flatMap.mp hb
  exact le_of_mem_utf8EncodeChar (h c hc) hb

namespace Input

theorem chomp_utf8 {text : String} (h : Json.NoControls text.toList) :
    chomp (utf8 text) = utf8 text := by
  refine if_neg fun hlast => ?_
  have hlow := le_of_mem_utf8 h (List.mem_of_getLast? hlast)
  exact absurd hlow (by decide)

theorem newline_not_mem_utf8 {text : String} (h : Json.NoControls text.toList) :
    newline ∉ utf8 text :=
  fun hmem => absurd (le_of_mem_utf8 h hmem) (by decide)

theorem rawLines_append_newline {raw : List UInt8} (h : newline ∉ raw) (rest : List UInt8) :
    rawLines (raw ++ newline :: rest) = raw :: rawLines rest := by
  rw [rawLines, split_append_newline h, rawLines]
  rfl

theorem rawLines_flatMap {α : Type*} {body : α → List UInt8} {xs : List α}
    (h : ∀ x ∈ xs, newline ∉ body x) :
    rawLines (xs.flatMap fun x => body x ++ [newline]) = xs.map body := by
  induction xs with
  | nil => rfl
  | cons x xs ih =>
      obtain ⟨hx, hxs⟩ := List.forall_mem_cons.mp h
      rw [List.flatMap_cons, List.append_assoc, List.singleton_append,
        rawLines_append_newline hx, ih hxs, List.map_cons]

end Input

namespace Output

/-! Writing. -/

/-- An output that takes all that it is given, and holds the bytes. -/
abbrev Sink := StateM (List UInt8)

instance : MonadOutput Sink where
  put text := do
    modify (· ++ utf8 text)
    return .ok ()

/-- A record, and how it is written. -/
structure Item where
  {Value : Type}
  codec : Json.Codec Value
  value : Value

namespace Item

def json (r : Item) : Json :=
  r.codec.encode r.value

def write (r : Item) : Sink (Except Error Unit) :=
  Output.write r.codec r.value

end Item

theorem utf8_line (v : Json) : utf8 (line v) = utf8 v.text ++ [Input.newline] := by
  rw [line, utf8_append]
  rfl

theorem run_write (r : Item) (bytes : List UInt8) :
    r.write.run bytes = pure (.ok (), bytes ++ utf8 (line r.json)) :=
  rfl

theorem run_writes (items : List Item) (bytes : List UInt8) :
    (items.mapM Item.write).run bytes =
      pure (items.map fun _ => .ok (), bytes ++ items.flatMap fun r => utf8 (line r.json)) := by
  induction items generalizing bytes with
  | nil => simp
  | cons r items ih => simp [List.mapM_cons, run_write, ih]

/-- Records come back line by line as they have been written, whoever has written them: a writer has
nothing of its own but its output. -/
theorem lines_of_written (max : Nat) (items : List Item) :
    ∃ bytes, (items.mapM Item.write).run [] = (items.map fun _ => .ok (), bytes) ∧
      (∀ r ∈ items, ∃ body, utf8 (line r.json) = body ++ [Input.newline] ∧ Input.newline ∉ body) ∧
      ∀ pieces : List (List UInt8), pieces.flatten = bytes →
        Input.lines max ⟨pieces, .closed⟩ = items.map fun r =>
          if max < r.json.text.utf8ByteSize then .overlong else .text (utf8 r.json.text) := by
  have hbody (v : Json) : Input.newline ∉ utf8 v.text :=
    Input.newline_not_mem_utf8 v.noControls_text
  have hlines : Input.rawLines (items.flatMap fun r => utf8 r.json.text ++ [Input.newline]) =
      items.map fun r => utf8 r.json.text :=
    Input.rawLines_flatMap fun (r : Item) _ => hbody r.json
  refine ⟨_, run_writes items [], fun r _ => ⟨_, utf8_line r.json, hbody r.json⟩, ?_⟩
  intro pieces hpieces
  rw [Input.lines_closed, hpieces, List.nil_append]
  simp only [utf8_line]
  rw [hlines, List.map_map]
  refine List.map_congr_left fun r _ => ?_
  rw [Function.comp_apply, Input.lineOf, length_utf8, Input.chomp_utf8 r.json.noControls_text]

theorem lines_of_written_cut_inside :
    ((["", "\r\n"].map (Item.mk .string)).mapM Item.write).run [] =
        ([.ok (), .ok ()], [34, 34, 10, 34, 92, 114, 92, 110, 34, 10]) ∧
      Input.lines 4 ⟨[[34], [34, 10, 34, 92, 114], [92, 110, 34, 10]], .closed⟩ =
        [.text [34, 34], .overlong] := by
  obtain ⟨bytes, hrun, -, hlines⟩ := lines_of_written 4 (["", "\r\n"].map (Item.mk .string))
  have hbytes : [34, 34, 10, 34, 92, 114, 92, 110, 34, 10] = bytes :=
    Eq.trans (by decide +kernel) (congrArg Prod.snd hrun)
  subst hbytes
  refine ⟨hrun, (hlines _ rfl).trans ?_⟩
  decide +kernel

end Output

end ChannelAdapter
