import ChannelAdapter.Proofs.Json.Number
/-!
How written texts are split. Each token of a text is found again, and what the text says is nothing
but its tokens, as long as the numbers in it are integers.
-/

namespace ChannelAdapter.Json

/-- The only numbers in a value are integers that fit into 64 bits. -/
inductive Integral : Json → Prop
  | null : Integral .null
  | bool (b : Bool) : Integral (.bool b)
  | integer {n : Int} (h : Fits n) : Integral (.number (.integer n))
  | string (s : String) : Integral (.string s)
  | array {xs : List Json} (h : ∀ x ∈ xs, Integral x) : Integral (.array xs)
  | object {fields : List (String × Json)} (h : ∀ field ∈ fields, Integral field.2) :
      Integral (.object fields)

/-! Strings. -/

theorem hexValue?_hexDigit {n : Nat} (h : n < 16) : hexValue? (hexDigit n) = some n := by
  decide +revert

theorem codePoint?_control {c : Char} (hc : c.toNat < 0x20) (rest : List Char) :
    codePoint? ('0' :: '0' :: hexDigit (c.toNat / 16) :: hexDigit (c.toNat % 16) :: rest) =
      some (some c, rest) := by
  have hhigh : hexValue? (hexDigit (c.toNat / 16)) = some (c.toNat / 16) :=
    hexValue?_hexDigit (by omega)
  have hlow : hexValue? (hexDigit (c.toNat % 16)) = some (c.toNat % 16) :=
    hexValue?_hexDigit (by omega)
  have hzero : hexValue? '0' = some 0 := by decide
  have hunit : codeUnit? '0' '0' (hexDigit (c.toNat / 16)) (hexDigit (c.toNat % 16)) =
      some c.toNat := by
    simp [codeUnit?, hhigh, hlow, hzero]
    omega
  have hlead : ¬ (0xD800 ≤ c.toNat ∧ c.toNat ≤ 0xDBFF) := by omega
  have htrail : ¬ (0xDC00 ≤ c.toNat ∧ c.toNat ≤ 0xDFFF) := by omega
  simp [codePoint?, hunit, hlead, htrail]

section
variable (done : List Char) (c : Char) (rest : List Char)

theorem lexString_short {e : Char} (hu : e ≠ 'u') (h : unescape? e = some c) :
    lexString (some done) ('\\' :: e :: rest) = lexString (some (c :: done)) rest := by
  rw [lexString]
  · simp [h]
  · exact hu

theorem lexString_control (h : c.toNat < 0x20) :
    lexString (some done)
        ('\\' :: 'u' :: '0' :: '0' :: hexDigit (c.toNat / 16) :: hexDigit (c.toNat % 16) :: rest) =
      lexString (some (c :: done)) rest := by
  rw [lexString]
  split
  · next hnone => simp [codePoint?_control h] at hnone
  · next hsome =>
      rw [codePoint?_control h] at hsome
      cases hsome
      rfl

theorem lexString_plain (hquote : c ≠ '"') (hslash : c ≠ '\\') (h : 0x20 ≤ c.toNat) :
    lexString (some done) (c :: rest) = lexString (some (c :: done)) rest := by
  rw [lexString]
  · simp [hslash, Nat.not_lt.mpr h]
  · exact hquote
  · exact fun _ hc _ => hslash hc
  · exact fun _ _ hc _ => hslash hc

theorem lexString_escape :
    lexString (some done) (escape c ++ rest) = lexString (some (c :: done)) rest := by
  unfold escape
  by_cases hshort : c = '"' ∨ c = '\\' ∨ c = '\x08' ∨ c = '\x0c' ∨ c = '\n' ∨ c = '\r' ∨ c = '\t'
  · rcases hshort with rfl | rfl | rfl | rfl | rfl | rfl | rfl
    all_goals exact lexString_short done _ rest (by decide) rfl
  · simp only [not_or] at hshort
    obtain ⟨hquote, hslash, h1, h2, h3, h4, h5⟩ := hshort
    rw [if_neg hquote, if_neg hslash, if_neg h1, if_neg h2, if_neg h3, if_neg h4, if_neg h5]
    by_cases hcontrol : c.toNat < 0x20
    · rw [if_pos hcontrol]
      exact lexString_control done c rest hcontrol
    · rw [if_neg hcontrol]
      exact lexString_plain done c rest hquote hslash (Nat.le_of_not_lt hcontrol)

end

theorem lexString_quoted (s : String) (rest : List Char) :
    lexString (some []) (s.toList.flatMap escape ++ '"' :: rest) = some (some s, rest) := by
  have hgo (done cs : List Char) :
      lexString (some done) (cs.flatMap escape ++ '"' :: rest) =
        some (some (String.ofList (done.reverse ++ cs)), rest) := by
    induction cs generalizing done with
    | nil => simp [lexString]
    | cons c cs ih => simp [lexString_escape, ih]
  rw [hgo, List.reverse_nil, List.nil_append, String.ofList_toList]

/-! Tokens. -/

/-- In front of a text, some tokens are found behind those that have been found before. -/
def Lexes (ts : List Token) (rest : List Char) : Prop :=
  ∀ done, tokens?.go done (spell ts ++ rest) = tokens?.go (ts.reverse ++ done) rest

theorem Lexes.nil (rest : List Char) : Lexes [] rest :=
  fun _ => rfl

theorem Lexes.append {ts us : List Token} {rest : List Char} (hts : Lexes ts (spell us ++ rest))
    (hus : Lexes us rest) : Lexes (ts ++ us) rest := by
  intro done
  rw [spell_append, List.append_assoc, hts, hus, List.reverse_append, List.append_assoc]

theorem Lexes.cons {t : Token} {ts : List Token} {rest : List Char}
    (ht : Lexes [t] (spell ts ++ rest)) (hts : Lexes ts rest) : Lexes (t :: ts) rest :=
  ht.append hts

theorem Lexes.of_lexToken? {t : Token} {c : Char} {cs rest : List Char} (hspace : isSpace c = false)
    (htext : t.text ++ rest = c :: cs) (h : lexToken? c cs = some (t, rest)) : Lexes [t] rest := by
  intro done
  rw [spell_cons, spell_nil, List.append_nil, htext, tokens?.go, if_neg (by simp [hspace])]
  split
  · next hnone =>
      rw [h] at hnone
      cases hnone
  · next hsome =>
      rw [h] at hsome
      cases hsome
      rfl

/-- Whether a token is read in one step, whatever follows it. -/
def Token.isMark : Token → Bool
  | .null | .bool _ | .number _ | .string _ => false
  | _ => true

theorem Lexes.mark {t : Token} (h : t.isMark) (rest : List Char) : Lexes [t] rest := by
  cases t with
  | null | bool _ | number _ | string _ => cases h
  | _ => exact .of_lexToken? rfl rfl rfl

theorem Lexes.separator (first : Bool) (rest : List Char) : Lexes (separator first) rest := by
  cases first with
  | true => exact .nil rest
  | false => exact .mark rfl rest

theorem Lexes.bool (b : Bool) (rest : List Char) : Lexes [.bool b] rest := by
  cases b with
  | true => exact .of_lexToken? rfl rfl rfl
  | false => exact .of_lexToken? rfl rfl rfl

theorem Lexes.string (s : String) (rest : List Char) : Lexes [.string (some s)] rest := by
  have htext : (Token.string (some s)).text ++ rest =
      '"' :: (s.toList.flatMap escape ++ '"' :: rest) := by
    simp [Token.text, quoted]
  refine .of_lexToken? rfl htext ?_
  simp [lexToken?, lexString_quoted]

theorem lexToken?_of_isDigit {c : Char} (h : c = '-' ∨ c.isDigit) (cs : List Char) :
    lexToken? c cs = (lexNumber? (c :: cs)).map fun (n, rest) => (.number n.number?, rest) := by
  unfold lexToken?
  split
  all_goals first | rfl | exact absurd h (by decide)

theorem exists_text_integer_eq_cons (n : Int) :
    ∃ c cs, (Number.integer n).text = c :: cs ∧ (c = '-' ∨ c.isDigit) := by
  rw [Number.text_integer]
  by_cases hneg : n < 0
  · rw [if_pos hneg]
    exact ⟨_, _, rfl, .inl rfl⟩
  · obtain ⟨d, ds, hdigits, hd⟩ := exists_toDigits_eq_cons n.natAbs
    rw [if_neg hneg, hdigits]
    exact ⟨d, ds, rfl, .inr hd⟩

theorem isSpace_of_isDigit {c : Char} (h : c = '-' ∨ c.isDigit) : isSpace c = false := by
  rw [isSpace]
  simp only [Bool.or_eq_false_iff, beq_eq_false_iff_ne]
  refine ⟨⟨⟨?_, ?_⟩, ?_⟩, ?_⟩
  all_goals
    rintro rfl
    exact absurd h (by decide)

theorem Lexes.integer {n : Int} (h : Fits n) {rest : List Char} (hrest : AfterValue rest) :
    Lexes [.number (some (.integer n))] rest := by
  obtain ⟨c, cs, htext, hc⟩ := exists_text_integer_eq_cons n
  have hread := lexNumber?_integer hrest n
  rw [htext, List.cons_append] at hread
  refine .of_lexToken? (isSpace_of_isDigit hc) (congrArg (· ++ rest) htext) ?_
  rw [lexToken?_of_isDigit hc]
  simp [hread, number?_integer h]

theorem AfterValue.elements (xs : List Json) {rest : List Char} (h : AfterValue rest) :
    AfterValue (spell (elementTokens false xs) ++ rest) := by
  cases xs with
  | nil => exact h
  | cons x xs => exact .comma _

theorem AfterValue.fields (fields : List (String × Json)) {rest : List Char} (h : AfterValue rest) :
    AfterValue (spell (fieldTokens false fields) ++ rest) := by
  cases fields with
  | nil => exact h
  | cons field fields => exact .comma _

theorem Integral.lexes {v : Json} (h : Integral v) {rest : List Char} (hrest : AfterValue rest) :
    Lexes (tokens v) rest := by
  induction h generalizing rest with
  | null => exact .of_lexToken? rfl rfl rfl
  | bool b => exact .bool b rest
  | integer h => exact .integer h hrest
  | string s => exact .string s rest
  | @array xs h ih =>
      have helements (first : Bool) {rest : List Char} (hrest : AfterValue rest) :
          Lexes (elementTokens first xs) rest := by
        clear h
        induction xs generalizing first with
        | nil => exact .nil rest
        | cons x xs ihs =>
            have hx := ih x List.mem_cons_self (hrest.elements xs)
            have hxs := ihs (fun y hy => ih y (.tail x hy)) false
            exact .append (.separator first _) (.append hx hxs)
      exact .cons (.mark rfl _) (.append (helements true (.closeArray rest)) (.mark rfl rest))
  | @object fields h ih =>
      have hfields (first : Bool) {rest : List Char} (hrest : AfterValue rest) :
          Lexes (fieldTokens first fields) rest := by
        clear h
        induction fields generalizing first with
        | nil => exact .nil rest
        | cons field fields ihs =>
            have hv := ih field List.mem_cons_self (hrest.fields fields)
            have hfields := ihs (fun g hg => ih g (.tail field hg)) false
            exact .append (.separator first _)
              (.cons (.string field.1 _) (.cons (.mark rfl _) (.append hv hfields)))
      exact .cons (.mark rfl _) (.append (hfields true (.closeObject rest)) (.mark rfl rest))

theorem Integral.tokens?_text {v : Json} (h : Integral v) :
    tokens? v.text.toList = some (tokens v) := by
  have hlexes := h.lexes .nil []
  rw [List.append_nil, List.append_nil] at hlexes
  rw [toList_text, tokens?, hlexes, tokens?.go, List.reverse_reverse]

end ChannelAdapter.Json
