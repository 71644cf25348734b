import ChannelAdapter.Json.Token
import ChannelAdapter.Json.Value
/-!
How values are written. A value has its tokens, and its text is that of its tokens without anything
between them; every character of it can be printed on a line.
-/

namespace ChannelAdapter

@[induction_eliminator]
theorem Json.induction {motive : Json → Prop} (null : motive .null) (bool : ∀ b, motive (.bool b))
    (number : ∀ n, motive (.number n)) (string : ∀ s, motive (.string s))
    (array : ∀ xs, (∀ x ∈ xs, motive x) → motive (.array xs))
    (object : ∀ fields, (∀ field ∈ fields, motive field.2) → motive (.object fields)) (v : Json) :
    motive v := by
  refine @Json.rec motive (fun xs => ∀ x ∈ xs, motive x)
    (fun fields => ∀ field ∈ fields, motive field.2) (fun field => motive field.2)
    null bool number string array object ?_ ?_ ?_ ?_ ?_ v
  · exact List.forall_mem_nil _
  · exact fun _ _ hx hxs => List.forall_mem_cons.mpr ⟨hx, hxs⟩
  · exact List.forall_mem_nil _
  · exact fun _ _ hfield hfields => List.forall_mem_cons.mpr ⟨hfield, hfields⟩
  · exact fun _ _ hv => hv

namespace Json

/-! Tokens of values. -/

def separator (first : Bool) : List Token :=
  if first then [] else [.comma]

mutual

def tokens : Json → List Token
  | .null => [.null]
  | .bool b => [.bool b]
  | .number n => [.number (some n)]
  | .string s => [.string (some s)]
  | .array xs => .openArray :: (elementTokens true xs ++ [.closeArray])
  | .object fields => .openObject :: (fieldTokens true fields ++ [.closeObject])

def elementTokens (first : Bool) : List Json → List Token
  | [] => []
  | x :: xs => separator first ++ (tokens x ++ elementTokens false xs)

def fieldTokens (first : Bool) : List (String × Json) → List Token
  | [] => []
  | (k, v) :: fields =>
      separator first ++ .string (some k) :: .colon :: (tokens v ++ fieldTokens false fields)

end

def quoted (s : String) : List Char :=
  '"' :: (s.toList.flatMap escape ++ ['"'])

def Token.text : Token → List Char
  | .openArray => ['[']
  | .closeArray => [']']
  | .openObject => ['\x7b']
  | .closeObject => ['\x7d']
  | .comma => [',']
  | .colon => [':']
  | .null => "null".toList
  | .bool true => "true".toList
  | .bool false => "false".toList
  | .number n => (n.map Number.text).getD []
  | .string s => (s.map quoted).getD []

def spell (ts : List Token) : List Char :=
  ts.flatMap Token.text

@[simp] theorem spell_nil : spell [] = [] := rfl

@[simp] theorem spell_cons (t : Token) (ts : List Token) : spell (t :: ts) = t.text ++ spell ts :=
  rfl

@[simp] theorem spell_append (ts us : List Token) : spell (ts ++ us) = spell ts ++ spell us :=
  List.flatMap_append

theorem writeString_eq (done : List Char) (s : String) :
    writeString done s = (quoted s).reverse ++ done := by
  have hgo (cs done : List Char) :
      cs.foldl (fun done c => (escape c).reverse ++ done) done =
        (cs.flatMap escape).reverse ++ done := by
    induction cs generalizing done with
    | nil => rfl
    | cons c cs ih => simp [ih]
  simp [writeString, hgo, quoted]

theorem spell_separator (first : Bool) (done : List Char) :
    (spell (separator first)).reverse ++ done = if first then done else ',' :: done := by
  cases first <;> rfl

theorem write_eq (done : List Char) (v : Json) :
    write done v = (spell (tokens v)).reverse ++ done := by
  induction v generalizing done with
  | null => rfl
  | bool b => cases b <;> rfl
  | number n => simp [write, tokens, Token.text]
  | string s => simp [write, tokens, Token.text, writeString_eq]
  | array xs ih =>
      have helements (first : Bool) (done : List Char) :
          writeElements done first xs = (spell (elementTokens first xs)).reverse ++ done := by
        induction xs generalizing first done with
        | nil => rfl
        | cons x xs ihs =>
            rw [writeElements, ih x List.mem_cons_self, ihs fun y hy => ih y (.tail x hy),
              ← spell_separator, elementTokens]
            simp
      simp [write, tokens, Token.text, helements]
  | object fields ih =>
      have hfields (first : Bool) (done : List Char) :
          writeFields done first fields = (spell (fieldTokens first fields)).reverse ++ done := by
        induction fields generalizing first done with
        | nil => rfl
        | cons field fields ihs =>
            rw [writeFields, ih field List.mem_cons_self, ihs fun g hg => ih g (.tail field hg),
              ← spell_separator, writeString_eq, fieldTokens]
            simp [Token.text]
      simp [write, tokens, Token.text, hfields]

theorem toList_text (v : Json) : v.text.toList = spell (tokens v) := by
  rw [text, write_eq, List.append_nil, List.reverse_reverse, String.toList_ofList]

/-! Controls, none of which a text contains. -/

def NoControls (cs : List Char) : Prop :=
  ∀ c ∈ cs, 0x20 ≤ c.toNat

@[simp] theorem noControls_nil : NoControls [] := List.forall_mem_nil _

@[simp] theorem noControls_cons {c : Char} {cs : List Char} :
    NoControls (c :: cs) ↔ 0x20 ≤ c.toNat ∧ NoControls cs :=
  List.forall_mem_cons

@[simp] theorem noControls_append {cs ds : List Char} :
    NoControls (cs ++ ds) ↔ NoControls cs ∧ NoControls ds :=
  List.forall_mem_append

theorem noControls_of_isDigit {cs : List Char} (h : ∀ c ∈ cs, c.isDigit) : NoControls cs := by
  intro c hc
  have hdigit := h c hc
  simp only [Char.isDigit, Bool.and_eq_true, decide_eq_true_eq] at hdigit
  exact Nat.le_trans (by decide) (UInt32.le_iff_toNat_le.mp hdigit.1)

theorem noControls_toDigits (n : Nat) : NoControls (Nat.toDigits 10 n) :=
  noControls_of_isDigit fun _ => Nat.isDigit_of_mem_toDigits (by decide) (by decide)

theorem noControls_writeFloat (style : Decimal.Style) (x : Float) :
    NoControls (style.writeFloat x) := by
  have hpart {cs ds : List Char} (h : NoControls ds) (hsub : cs ⊆ ds) : NoControls cs :=
    fun c hc => h c (hsub hc)
  have hdecimal (d : Decimal.Scaled) : NoControls (style.write d) := by
    have hdigits (n : Nat) : NoControls (Decimal.digitChars n) := noControls_toDigits n
    have hzeros (n : Nat) : NoControls (List.replicate n '0') :=
      fun c hc => List.eq_of_mem_replicate hc ▸ by decide
    have htake (n : Nat) := hpart (hdigits d.digits) (List.take_subset n _)
    have hdrop (n : Nat) := hpart (hdigits d.digits) (List.drop_subset n _)
    have htail := hpart (hdigits d.digits) (List.tail_sublist _).subset
    rw [Decimal.Style.write]
    split
    · split
      · simp [hdigits, hzeros]
      · split
        · simp [htake, hdrop]
        · simp [hdigits, hzeros]
    · split <;> split <;> simp [htake, htail, hdigits]
  rw [Decimal.Style.writeFloat, noControls_append]
  constructor
  · split <;> simp
  · split
    · simp
    · exact hdecimal _

theorem Number.text_integer (n : Int) :
    (integer n).text = (if n < 0 then ['-'] else []) ++ Nat.toDigits 10 n.natAbs := by
  rw [text]
  cases n with
  | ofNat n => exact Nat.toList_repr
  | negSucc n =>
      change ("-" ++ Nat.repr (n + 1)).toList = _
      rw [String.toList_append, Nat.toList_repr, if_pos (Int.negSucc_lt_zero n)]
      rfl

theorem Number.noControls_text (n : Number) : NoControls n.text := by
  cases n with
  | integer n =>
      rw [text_integer, noControls_append]
      constructor
      · split <;> simp
      · exact noControls_toDigits _
  | float x => exact noControls_writeFloat style x

theorem noControls_hexDigit {n : Nat} (h : n < 16) : 0x20 ≤ (hexDigit n).toNat := by
  decide +revert

theorem noControls_escape (c : Char) : NoControls (escape c) := by
  unfold escape
  by_cases hcontrol : c.toNat < 0x20
  · have hhigh := noControls_hexDigit (n := c.toNat / 16) (by omega)
    have hlow := noControls_hexDigit (n := c.toNat % 16) (by omega)
    repeat' split
    all_goals simp [hhigh, hlow]
  · rw [if_neg hcontrol]
    have hplain := Nat.le_of_not_lt hcontrol
    repeat' split
    all_goals simp [hplain]

theorem noControls_quoted (s : String) : NoControls (quoted s) := by
  have hbody : NoControls (s.toList.flatMap escape) := by
    intro c hc
    obtain ⟨d, -, hd⟩ := List.mem_flatMap.mp hc
    exact noControls_escape d c hd
  simp [quoted, hbody]

theorem Token.noControls_text (t : Token) : NoControls t.text := by
  cases t with
  | bool b => cases b <;> simp [text]
  | number n =>
      cases n with
      | none => exact noControls_nil
      | some n => exact n.noControls_text
  | string s =>
      cases s with
      | none => exact noControls_nil
      | some s => exact noControls_quoted s
  | _ => simp [text]

theorem noControls_text (v : Json) : NoControls v.text.toList := by
  rw [toList_text]
  intro c hc
  obtain ⟨t, -, ht⟩ := List.mem_flatMap.mp hc
  exact t.noControls_text c ht

end Json

end ChannelAdapter
