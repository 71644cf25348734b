import ChannelAdapter.Proofs.Json.Rearranged
import ChannelAdapter.Stream.Dispatch
/-!
Lines that are read as stream events. A line goes through its value, where fields have another order,
and the name of its type is looked up before an event is read of the value; what comes out is what
the codec of events reads of the text itself.
-/

namespace ChannelAdapter

open Json

/-! The order of fields makes no difference to what an event holds. -/

theorem DeliveryTarget.independent : record.Independent where
  orderless := by simp [record, Field.defaulted, Field.optional, Field.omitted]
  commutes := by simp [record, Field.defaulted, Field.optional, Field.omitted]

namespace Stream

theorem Start.independent : record.Independent where
  orderless := by
    have htarget : Orderless DeliveryTarget.record.codec.decode :=
      DeliveryTarget.independent.decode
    simp [record, Field.optional, Field.omitted, htarget]
  commutes := by simp [record, Field.optional, Field.omitted]

theorem Delta.independent : record.Independent where
  orderless := by simp [record, Field.defaulted]
  commutes := List.pairwise_singleton _ _

theorem Tool.independent : record.Independent where
  orderless := by simp [record, Field.defaulted, Field.optional, Field.omitted]
  commutes := by simp [record, Field.defaulted, Field.optional, Field.omitted]

theorem Finish.independent : record.Independent where
  orderless := by simp [record, Field.defaulted, Field.optional, Field.omitted]
  commutes := by simp [record, Field.defaulted, Field.optional, Field.omitted]

theorem Failure.independent : record.Independent where
  orderless := by simp [record, Field.defaulted]
  commutes := by simp [record, Field.defaulted]

namespace Event

namespace Kind

theorem orderless_case (kind : Kind) : Orderless kind.case.decode := by
  cases kind with
  | start => exact Start.independent.decode.map _
  | token => exact Delta.independent.decode.map _
  | tool => exact Tool.independent.decode.map _
  | reasoning => exact Delta.independent.decode.map _
  | finish => exact Finish.independent.decode.map _
  | failure => exact Failure.independent.decode.map _

theorem name_case (kind : Kind) : kind.case.name = kind.name := by
  cases kind <;> rfl

theorem kind_of_decode {kind : Kind} {n : Node} {e : Event} (h : kind.case.decode n = .ok e) :
    e.kind = kind := by
  cases kind <;> obtain ⟨_, _, rfl⟩ := exists_of_map_eq_ok h <;> rfl

theorem name_of_ofName? {s : String} {kind : Kind} (h : ofName? s = some kind) :
    kind.name = s := by
  simpa using List.find?_some h

end Kind

theorem orderless_cases : ∀ c ∈ union.cases, Orderless c.decode := by
  intro c hc
  obtain ⟨kind, -, rfl⟩ := List.mem_map.mp hc
  exact kind.orderless_case

theorem kind_of_case {n : Node} {c : Case Event} (h : union.case n = .ok c) :
    ∃ kind : Kind, c = kind.case ∧ n = .string kind.name := by
  obtain ⟨kind, -, rfl⟩ := List.mem_map.mp (Union.mem_of_case h)
  refine ⟨kind, rfl, ?_⟩
  unfold Union.case at h
  split at h
  · next s =>
      split at h
      · next c hc =>
          cases h
          have hname : kind.case.name = s := by simpa using List.find?_some hc
          rw [← hname, kind.name_case]
      · cases h
  · cases h

theorem tag_of_decode {fields : List (String × Node)} (hkeys : (fields.map Prod.fst).Nodup)
    {e : Event} (h : union.decode (.object fields) = .ok e) :
    (Union.tag, .string e.kind.name) ∈ fields := by
  have husable := Union.isUsable_of_decode h
  obtain ⟨n, hn, c, hcase, hread⟩ := (Union.decode_object husable hkeys).mp h
  obtain ⟨kind, rfl, rfl⟩ := kind_of_case hcase
  rwa [Kind.kind_of_decode hread]

/-! Lines. -/

section
variable {bytes : List UInt8} {fields : List (String × Json)}

theorem readLine_named (hvalue : ofBytes? bytes = some (.object fields)) {kind : Kind}
    (htag : find? Union.tag fields = some (.string kind.name)) (e : Event) :
    readLine bytes = .ok (some e) ↔ union.decode (.ofValue (.object fields)) = .ok e := by
  simp only [readLine, hvalue, htag, Kind.ofName?_name]
  cases union.decode (.ofValue (.object fields)) <;> simp

theorem readLine_unnamed (hvalue : ofBytes? bytes = some (.object fields))
    (htag : ∀ kind : Kind, find? Union.tag fields ≠ some (.string kind.name)) :
    readLine bytes = .ok none := by
  simp only [readLine, hvalue]
  split
  · next s hs =>
      cases hkind : Kind.ofName? s with
      | none => rfl
      | some kind => exact absurd (Kind.name_of_ofName? hkind ▸ hs) (htag kind)
  · rfl

end

section
variable {bytes : List UInt8} {text : String} {n : Node}

theorem ofBytes?_eq (htext : String.fromUTF8? ⟨bytes.toArray⟩ = some text)
    (hparse : Node.parse? text.toList = some n) : ofBytes? bytes = n.value? := by
  simp [ofBytes?, htext, hparse]

theorem find?_tag_iff {ns : List (String × Node)} (hn : (Node.object ns).Unrepeated)
    {fields : List (String × Json)} (hvalue : (Node.object ns).value? = some (.object fields))
    {s : String} : find? Union.tag fields = some (.string s) ↔ (Union.tag, .string s) ∈ ns := by
  have hkeys : (fields.map Prod.fst).Nodup := by
    cases Node.sorted_of_value? hvalue with
    | object hkeys _ => exact List.pairwise_map.mpr (hkeys.imp fun h => (String.ne_of_lt h))
  cases hn with
  | object hnkeys _ => rw [find?_eq_some_iff hkeys, Node.string_mem_iff hnkeys hvalue]

theorem readLine_eq_ok_iff (htext : String.fromUTF8? ⟨bytes.toArray⟩ = some text)
    (hparse : Node.parse? text.toList = some n) (hn : n.Unrepeated)
    (harray : ∀ ns, n ≠ .array ns) (e : Event) :
    readLine bytes = .ok (some e) ↔ union.codec.read text = .ok e := by
  have hbytes := ofBytes?_eq htext hparse
  rw [Codec.read_eq_ok_iff hparse]
  change _ ↔ union.decode n = .ok e
  cases hvalue : n.value? with
  | none =>
      rw [hvalue] at hbytes
      simp [readLine, hbytes, Union.decode, Node.isUsable, hvalue]
  | some v =>
      rw [hvalue] at hbytes
      have husable : n.isUsable := by simp [Node.isUsable, hvalue]
      cases n with
      | null | bool | number | string =>
          cases hvalue
          simp [readLine, hbytes, Union.decode, husable]
      | array ns => exact absurd rfl (harray ns)
      | unusable => cases hvalue
      | object ns =>
          obtain ⟨fields, -, rfl⟩ := Option.map_eq_some_iff.mp hvalue
          have hrearranged := Node.rearranged_ofValue hn hvalue
          have hdecode := Union.decode_rearranged orderless_cases hrearranged husable
            (Node.isUsable_ofValue _) (a := e)
          by_cases hnamed : ∃ kind : Kind, (Union.tag, .string kind.name) ∈ ns
          · obtain ⟨kind, hkind⟩ := hnamed
            rw [readLine_named hbytes ((find?_tag_iff hn hvalue).mpr hkind), hdecode]
          · have hunnamed := readLine_unnamed hbytes fun kind hkind =>
              hnamed ⟨kind, (find?_tag_iff hn hvalue).mp hkind⟩
            rw [hunnamed]
            cases hn with
            | object hkeys _ =>
                refine iff_of_false (by simp) fun h => ?_
                exact hnamed ⟨e.kind, tag_of_decode hkeys h⟩

/-- An object without repeated keys is read as an event if and only if the codec of events reads its
text, and then both read the same event, whose kind is the one that the type names. If the object has
a value and its type is not the name of a kind (there is none, or it is no text, or another one),
then no event is read, which is no error, while the codec fails. -/
theorem readings_agree {fields : List (String × Node)}
    (htext : String.fromUTF8? ⟨bytes.toArray⟩ = some text)
    (hobject : Node.parse? text.toList = some (.object fields))
    (hunrepeated : (Node.object fields).Unrepeated) :
    (∀ e, readLine bytes = .ok (some e) ↔ union.codec.read text = .ok e) ∧
      (∀ e, readLine bytes = .ok (some e) → (Union.tag, .string e.kind.name) ∈ fields) ∧
      ((Node.object fields).isUsable →
        (∀ kind : Kind, (Union.tag, .string kind.name) ∉ fields) →
          readLine bytes = .ok none ∧ ∃ error, union.codec.read text = .error error) := by
  have hagree := readLine_eq_ok_iff htext hobject hunrepeated fun _ => nofun
  have hkind (e : Event) (h : readLine bytes = .ok (some e)) :
      (Union.tag, .string e.kind.name) ∈ fields := by
    rw [hagree, Codec.read_eq_ok_iff hobject] at h
    cases hunrepeated with
    | object hkeys _ => exact tag_of_decode hkeys h
  refine ⟨hagree, hkind, fun husable hunnamed => ⟨?_, ?_⟩⟩
  · obtain ⟨v, hv⟩ := Option.isSome_iff_exists.mp husable
    obtain ⟨values, -, rfl⟩ := Option.map_eq_some_iff.mp hv
    apply readLine_unnamed ((ofBytes?_eq htext hobject).trans hv)
    intro kind hkind
    exact hunnamed kind ((find?_tag_iff hunrepeated hv).mp hkind)
  · cases hread : union.codec.read text with
    | error error => exact ⟨error, rfl⟩
    | ok e => exact absurd (hkind e ((hagree e).mpr hread)) (hunnamed e.kind)

end

theorem ofLine?_eq_some_iff {bytes : List UInt8} {e : Event} :
    ofLine? bytes = some e ↔ readLine bytes = .ok (some e) := by
  rw [ofLine?]
  cases readLine bytes with
  | error => exact ⟨nofun, nofun⟩
  | ok read => simp [Except.toOption]

/-- The target stands before the type, and its keys are not sorted. -/
def aimed : List (String × Json) :=
  [("target", .object [("to", .string "me"), ("platform", .string "irc")]),
    ("type", .string "stream_start")]

/-- An event of a kind that there is not. -/
def strange : List (String × Json) :=
  [("type", .string "rain"), ("text", .string "a")]

def lineOf (fields : List (String × Json)) : List UInt8 :=
  (Json.object fields).text.toUTF8.toList

theorem readings_agree_aimed :
    readLine (lineOf aimed) = .ok (some (.start ⟨none, none, some ⟨"irc", "", "me", none, none⟩⟩)) ∧
      union.codec.read (Json.object aimed).text =
        .ok (.start ⟨none, none, some ⟨"irc", "", "me", none, none⟩⟩) ∧
      readLine (lineOf strange) = .ok none := by
  have htarget : Integral (.object [("to", .string "me"), ("platform", .string "irc")]) :=
    .object (by simpa using ⟨.string _, .string _⟩)
  have haimed : Integral (.object aimed) :=
    .object (by simpa [aimed] using ⟨htarget, .string _⟩)
  have hstrange : Integral (.object strange) :=
    .object (by simpa [strange] using ⟨.string _, .string _⟩)
  have hobject {fields : List (String × Json)} (h : Integral (.object fields))
      (hdepth : depth (.object fields) ≤ maxDepth) :
      Node.parse? (Json.object fields).text.toList =
        some (.object (fields.map (Prod.map id Node.ofValue))) := by
    rw [h.parse?_text hdepth, Node.ofValue_object]
  have hplace : (Node.ofValue
      (.object [("to", .string "me"), ("platform", .string "irc")])).Unrepeated := by
    rw [Node.ofValue_object]
    exact .object (by decide +kernel) (by simpa [Node.ofValue] using ⟨.string _, .string _⟩)
  obtain ⟨hagree, -, -⟩ := @readings_agree (lineOf aimed) _ _ (by decide +kernel)
    (hobject haimed (by decide +kernel))
    (.object (by decide +kernel) (List.forall_mem_cons.mpr ⟨hplace, by simpa using .string _⟩))
  obtain ⟨-, -, hunnamed⟩ := @readings_agree (lineOf strange) _ _ (by decide +kernel)
    (hobject hstrange (by decide +kernel))
    (.object (by decide +kernel) (by simpa [strange] using ⟨.string _, .string _⟩))
  have hread := ofLine?_eq_some_iff.mp
    (show ofLine? (lineOf aimed) = some (.start ⟨none, none, some ⟨"irc", "", "me", none, none⟩⟩) by
      decide +kernel)
  refine ⟨hread, (hagree _).mp hread, (hunnamed (by decide +kernel) fun kind => ?_).1⟩
  cases kind <;> simp [strange, Union.tag, Node.ofValue, Kind.name]

end Event

end Stream

end ChannelAdapter
