import ChannelAdapter.Json.Number
/-!
Tokens of JSON texts. The grammar alone decides what a token is; a number beyond the range of
numbers and a string with half a surrogate pair are tokens without a value.
-/

namespace ChannelAdapter.Json

inductive Token
  | openArray | closeArray | openObject | closeObject | comma | colon
  | null
  | bool (b : Bool)
  | number (n : Option Number)
  | string (s : Option String)
  deriving Repr

def isSpace (c : Char) : Bool :=
  c == ' ' || c == '\n' || c == '\t' || c == '\r'

def hexValue? (c : Char) : Option Nat :=
  if '0' ≤ c ∧ c ≤ '9' then some (c.toNat - '0'.toNat)
  else if 'a' ≤ c ∧ c ≤ 'f' then some (c.toNat - 'a'.toNat + 10)
  else if 'A' ≤ c ∧ c ≤ 'F' then some (c.toNat - 'A'.toNat + 10)
  else none

def codeUnit? (a b c d : Char) : Option Nat := do
  return ((← hexValue? a) * 16 + (← hexValue? b)) * 256 + ((← hexValue? c) * 16 + (← hexValue? d))

def unescape? : Char → Option Char
  | '"' => some '"'
  | '\\' => some '\\'
  | '/' => some '/'
  | 'b' => some '\x08'
  | 'f' => some '\x0c'
  | 'n' => some '\n'
  | 'r' => some '\r'
  | 't' => some '\t'
  | _ => none

def trailing? : List Char → Option (Nat × List Char)
  | '\\' :: 'u' :: a :: b :: c :: d :: cs => do
      let n ← codeUnit? a b c d
      if 0xDC00 ≤ n ∧ n ≤ 0xDFFF then some (n, cs) else none
  | _ => none

/-- What stands behind the backslash and the `u` of an escape: its character, unless it is half a
surrogate pair, and the rest. -/
def codePoint? : List Char → Option (Option Char × List Char)
  | a :: b :: c :: d :: cs => do
      let n ← codeUnit? a b c d
      if 0xD800 ≤ n ∧ n ≤ 0xDBFF then
        match trailing? cs with
        | some (m, rest) =>
            some (some (Char.ofNat (0x10000 + (n - 0xD800) * 0x400 + (m - 0xDC00))), rest)
        | none => some (none, cs)
      else if 0xDC00 ≤ n ∧ n ≤ 0xDFFF then some (none, cs)
      else some (some (Char.ofNat n), cs)
  | _ => none

theorem length_trailing? {cs rest : List Char} {n : Nat} (h : trailing? cs = some (n, rest)) :
    rest.length < cs.length := by
  unfold trailing? at h
  split at h
  · simp only [Option.bind_eq_bind, Option.bind_eq_some_iff] at h
    obtain ⟨m, _, hm⟩ := h
    split at hm
    · cases hm; simp only [List.length_cons]; omega
    · cases hm
  · cases h

theorem length_codePoint? {cs rest : List Char} {c : Option Char}
    (h : codePoint? cs = some (c, rest)) : rest.length < cs.length := by
  unfold codePoint? at h
  split at h
  · simp only [Option.bind_eq_bind, Option.bind_eq_some_iff] at h
    obtain ⟨n, _, hn⟩ := h
    split at hn
    · split at hn
      · next ht => have := length_trailing? ht; cases hn; simp only [List.length_cons]; omega
      · cases hn; simp only [List.length_cons]; omega
    · split at hn <;> (cases hn; simp only [List.length_cons]; omega)
  · cases h

/-- A string after its opening quote, and the text after its closing one. `done` holds the
characters read so far, the last one first, or nothing once one of them was unusable. -/
def lexString (done : Option (List Char)) (cs : List Char) : Option (Option String × List Char) :=
  match cs with
  | [] => none
  | '"' :: rest => some (done.map fun done => String.ofList done.reverse, rest)
  | '\\' :: 'u' :: rest =>
      match h : codePoint? rest with
      | none => none
      | some (c, rest') =>
          have := length_codePoint? h
          lexString (done.bind fun done => c.map (· :: done)) rest'
  | '\\' :: c :: rest =>
      match unescape? c with
      | none => none
      | some c => lexString (done.map (c :: ·)) rest
  | c :: rest =>
      if c.toNat < 0x20 || c == '\\' then none else lexString (done.map (c :: ·)) rest
termination_by cs.length

theorem length_lexString {done : Option (List Char)} {cs rest : List Char} {s : Option String}
    (h : lexString done cs = some (s, rest)) : rest.length < cs.length := by
  fun_induction lexString done cs with
  | case1 => cases h
  | case2 => cases h; simp
  | case3 => cases h
  | case4 done rest' c rest'' hc hlt ih =>
      have := ih h
      have := length_codePoint? hc
      simp only [List.length_cons]; omega
  | case5 => cases h
  | case6 done c rest' _ _ _ ih => have := ih h; simp only [List.length_cons]; omega
  | case7 => cases h
  | case8 done c rest' _ _ _ _ ih => have := ih h; simp only [List.length_cons]; omega

def lexDigits? (cs : List Char) : Option (List Char × List Char) :=
  if (cs.takeWhile Char.isDigit).isEmpty then none
  else some (cs.takeWhile Char.isDigit, cs.dropWhile Char.isDigit)

theorem length_lexDigits? {cs ds rest : List Char} (h : lexDigits? cs = some (ds, rest)) :
    rest.length < cs.length := by
  unfold lexDigits? at h
  split at h
  · cases h
  · next hne =>
      cases h
      have hlen := congrArg List.length
        (List.takeWhile_append_dropWhile (p := Char.isDigit) (l := cs))
      have : 0 < (cs.takeWhile Char.isDigit).length :=
        List.length_pos_iff.mpr fun he => hne (by rw [he]; rfl)
      rw [List.length_append] at hlen
      omega

/-- The digits before the point. A leading zero stands alone. -/
def lexWhole? : List Char → Option (List Char × List Char)
  | '0' :: cs => some (['0'], cs)
  | cs => lexDigits? cs

theorem length_lexWhole? {cs ds rest : List Char} (h : lexWhole? cs = some (ds, rest)) :
    rest.length < cs.length := by
  unfold lexWhole? at h
  split at h
  · cases h; simp
  · exact length_lexDigits? h

def lexFraction? : List Char → Option (List Char × List Char)
  | '.' :: cs => lexDigits? cs
  | cs => some ([], cs)

theorem length_lexFraction? {cs ds rest : List Char} (h : lexFraction? cs = some (ds, rest)) :
    rest.length ≤ cs.length := by
  unfold lexFraction? at h
  split at h
  · have := length_lexDigits? h; simp only [List.length_cons]; omega
  · cases h; exact Nat.le_refl _

/-- A sign, true for minus, and the rest. -/
def lexSign : List Char → Bool × List Char
  | '-' :: cs => (true, cs)
  | '+' :: cs => (false, cs)
  | cs => (false, cs)

theorem length_lexSign (cs : List Char) : (lexSign cs).2.length ≤ cs.length := by
  unfold lexSign
  split <;> simp

def lexExponent? : List Char → Option (Option (Bool × List Char) × List Char)
  | [] => some (none, [])
  | c :: cs =>
      if c == 'e' || c == 'E' then
        (lexDigits? (lexSign cs).2).map fun (ds, rest) => (some ((lexSign cs).1, ds), rest)
      else some (none, c :: cs)

theorem length_lexExponent? {cs rest : List Char} {e : Option (Bool × List Char)}
    (h : lexExponent? cs = some (e, rest)) : rest.length ≤ cs.length := by
  unfold lexExponent? at h
  split at h
  · cases h; exact Nat.le_refl _
  · next c cs =>
      split at h
      · obtain ⟨⟨ds, r⟩, hds, hr⟩ := Option.map_eq_some_iff.mp h
        cases hr
        have := length_lexDigits? hds
        have := length_lexSign cs
        simp only [List.length_cons]; omega
      · cases h; exact Nat.le_refl _

def lexMagnitude? (negative : Bool) (cs : List Char) : Option (Numeral × List Char) := do
  let (whole, cs) ← lexWhole? cs
  let (fraction, cs) ← lexFraction? cs
  let (exponent, cs) ← lexExponent? cs
  return (⟨negative, whole, fraction, exponent⟩, cs)

theorem length_lexMagnitude? {negative : Bool} {cs rest : List Char} {n : Numeral}
    (h : lexMagnitude? negative cs = some (n, rest)) : rest.length < cs.length := by
  simp only [lexMagnitude?, Option.bind_eq_bind, Option.bind_eq_some_iff] at h
  obtain ⟨⟨ds, r₁⟩, h₁, ⟨fs, r₂⟩, h₂, ⟨e, r₃⟩, h₃, hn⟩ := h
  cases hn
  exact Nat.lt_of_le_of_lt (length_lexExponent? h₃)
    (Nat.lt_of_le_of_lt (length_lexFraction? h₂) (length_lexWhole? h₁))

def lexNumber? : List Char → Option (Numeral × List Char)
  | '-' :: cs => lexMagnitude? true cs
  | cs => lexMagnitude? false cs

theorem length_lexNumber? {cs rest : List Char} {n : Numeral} (h : lexNumber? cs = some (n, rest)) :
    rest.length < cs.length := by
  unfold lexNumber? at h
  split at h
  · have := length_lexMagnitude? h; simp only [List.length_cons]; omega
  · exact length_lexMagnitude? h

def lexToken? (c : Char) (cs : List Char) : Option (Token × List Char) :=
  match c, cs with
  | '[', _ => some (.openArray, cs)
  | ']', _ => some (.closeArray, cs)
  | '\x7b', _ => some (.openObject, cs)
  | '\x7d', _ => some (.closeObject, cs)
  | ',', _ => some (.comma, cs)
  | ':', _ => some (.colon, cs)
  | '"', _ => (lexString (some []) cs).map fun (s, rest) => (.string s, rest)
  | 'n', 'u' :: 'l' :: 'l' :: rest => some (.null, rest)
  | 't', 'r' :: 'u' :: 'e' :: rest => some (.bool true, rest)
  | 'f', 'a' :: 'l' :: 's' :: 'e' :: rest => some (.bool false, rest)
  | _, _ => (lexNumber? (c :: cs)).map fun (n, rest) => (.number n.number?, rest)

theorem length_lexToken? {c : Char} {cs rest : List Char} {t : Token}
    (h : lexToken? c cs = some (t, rest)) : rest.length ≤ cs.length := by
  unfold lexToken? at h
  split at h
  case h_7 =>
    obtain ⟨⟨s, r⟩, hs, hr⟩ := Option.map_eq_some_iff.mp h
    cases hr
    exact Nat.le_of_lt (length_lexString hs)
  case h_11 =>
    obtain ⟨⟨n, r⟩, hn, hr⟩ := Option.map_eq_some_iff.mp h
    cases hr
    have := length_lexNumber? hn
    simp only [List.length_cons] at this; omega
  all_goals cases h; simp +arith only [List.length_cons, Nat.le_refl]

def tokens? (cs : List Char) : Option (List Token) :=
  go [] cs
where
  go (done : List Token) (cs : List Char) : Option (List Token) :=
    match cs with
    | [] => some done.reverse
    | c :: cs =>
        if isSpace c then go done cs
        else
          match h : lexToken? c cs with
          | none => none
          | some (t, rest) =>
              have := length_lexToken? h
              go (t :: done) rest
  termination_by cs.length

end ChannelAdapter.Json
