import ChannelAdapter.Calendar.Parse
import ChannelAdapter.Proofs.Calendar
import Mathlib.Data.List.TakeWhile
/-!
The texts of dates. A date and a time are the same instant with no zone, in universal time and with
an offset of nothing, a date alone is its midnight, and an offset moves an instant by as much as it
says. Each text is read in one form at most, and so one that names no time is taken for no other.
-/

namespace ChannelAdapter.Calendar

open Instant (digits)

namespace Parse

theorem toList_zeros (n : Nat) : ("".pushn '0' n).toList = List.replicate n '0' := by
  induction n with
  | zero => rfl
  | succ n ih =>
      have hpush : "".pushn '0' (n + 1) = ("".pushn '0' n).push '0' := rfl
      rw [hpush, String.toList_push, ih, List.replicate_succ']

theorem toList_digits (width n : Nat) :
    (digits width n).toList =
      List.replicate (width - (Nat.toDigits 10 n).length) '0' ++ Nat.toDigits 10 n := by
  have hdigits : (toString n).toList = Nat.toDigits 10 n := Nat.toList_repr
  rw [digits, String.toList_append, toList_zeros, hdigits, ← String.length_toList, hdigits]

theorem value_digits (width n : Nat) : value (digits width n).toList = n := by
  have hvalue : value (digits width n).toList = Nat.ofDigitChars 10 (digits width n).toList 0 := rfl
  rw [hvalue, toList_digits, Nat.ofDigitChars_append, Nat.ofDigitChars_replicate_zero,
    Nat.mul_zero, Nat.ofDigitChars_ten_toDigits]

theorem isDigit_of_mem_digits {width n : Nat} {c : Char} (h : c ∈ (digits width n).toList) :
    c.isDigit = true := by
  rw [toList_digits, List.mem_append] at h
  rcases h with hzero | hdigit
  · rw [List.eq_of_mem_replicate hzero]
    rfl
  · exact Nat.isDigit_of_mem_toDigits (by decide) (by decide) hdigit

theorem exists_digits_eq_cons (width n : Nat) :
    ∃ c cs, (digits width n).toList = c :: cs ∧ c.isDigit = true := by
  cases hdigits : (digits width n).toList with
  | nil =>
      rw [toList_digits, List.append_eq_nil_iff] at hdigits
      exact absurd hdigits.2 Nat.toDigits_ne_nil
  | cons c cs =>
      have hmem : c ∈ (digits width n).toList := hdigits ▸ List.mem_cons_self
      exact ⟨c, cs, rfl, isDigit_of_mem_digits hmem⟩

theorem isBlank_of_isDigit {c : Char} (h : c.isDigit = true) : Text.isBlank c = false := by
  simp only [Char.isDigit, Bool.and_eq_true, decide_eq_true_eq] at h
  have hzero : 48 ≤ c.toNat := UInt32.le_iff_toNat_le.mp h.1
  have hnine : c.toNat ≤ 57 := UInt32.le_iff_toNat_le.mp h.2
  simp only [Text.isBlank, Bool.or_eq_false_iff, Bool.and_eq_false_iff, decide_eq_false_iff_not,
    beq_eq_false_iff_ne]
  omega

theorem dropWhile_digits (width n : Nat) (cs : List Char) :
    ((digits width n).toList ++ cs).dropWhile Text.isBlank = (digits width n).toList ++ cs := by
  obtain ⟨c, ds, hdigits, hc⟩ := exists_digits_eq_cons width n
  rw [hdigits, List.cons_append, List.dropWhile_cons_of_neg]
  rw [isBlank_of_isDigit hc]
  exact Bool.false_ne_true

theorem length_toDigits_two {n : Nat} (h : n < 100) : (Nat.toDigits 10 n).length ≤ 2 :=
  (Nat.length_toDigits_le_iff (by decide) (by decide)).mpr h

theorem length_toDigits_four {n : Nat} (h : n < 10000) : (Nat.toDigits 10 n).length ≤ 4 :=
  (Nat.length_toDigits_le_iff (by decide) (by decide)).mpr h

theorem length_digits {width n : Nat} (hfits : (Nat.toDigits 10 n).length ≤ width) :
    (digits width n).toList.length = width := by
  rw [toList_digits, List.length_append, List.length_replicate]
  omega

theorem number_digits {least width n : Nat} (hfits : (Nat.toDigits 10 n).length ≤ width)
    (hleast : least ≤ width) (cs : List Char) :
    number least width ((digits width n).toList ++ cs) = some (n, cs) := by
  have hlength := length_digits hfits
  have hall : ((digits width n).toList.takeWhile Char.isDigit) = (digits width n).toList :=
    List.takeWhile_eq_self_iff.mpr fun _ => isDigit_of_mem_digits
  rw [← hlength] at hleast
  simp only [number]
  rw [List.take_left' hlength, hall, value_digits, List.drop_left, if_pos hleast]

section
variable {n : Nat} (cs : List Char)

theorem two_digits (h : n < 100) : number 2 2 ((digits 2 n).toList ++ cs) = some (n, cs) :=
  number_digits (length_toDigits_two h) (Nat.le_refl 2) cs

theorem four_digits (h : n < 10000) : number 4 4 ((digits 4 n).toList ++ cs) = some (n, cs) :=
  number_digits (length_toDigits_four h) (Nat.le_refl 4) cs

theorem field_digits (h : n < 100) : field ((digits 2 n).toList ++ cs) = some (n, cs) := by
  rw [field, dropWhile_digits, number_digits (length_toDigits_two h) (by decide)]

theorem year_digits (h : n < 10000) :
    year ((digits 4 n).toList ++ cs) = some ((n : Int), cs) := by
  have hnumber := number_digits (length_toDigits_four h) (by decide : 1 ≤ 4) cs
  obtain ⟨c, ds, hdigits, hc⟩ := exists_digits_eq_cons 4 n
  rw [year, dropWhile_digits]
  -- a digit is no sign
  split
  · next heq =>
    rw [hdigits] at heq
    cases heq
    cases hc
  · next heq =>
    rw [hdigits] at heq
    cases heq
    cases hc
  · rw [hnumber]
    rfl

end

end Parse

/-! How dates and times are written, each number with as many digits as it usually has. -/

def Date.text (d : Date) : String :=
  digits 4 d.year.toNat ++ "-" ++ digits 2 d.month ++ "-" ++ digits 2 d.day

def Time.text (t : Time) : String :=
  digits 2 t.hour ++ ":" ++ digits 2 t.minute ++ ":" ++ digits 2 t.second

/-- What is written after a time: nothing, or how far the time is from universal time. -/
inductive Zone
  | unsaid
  | universal
  | ahead (hours minutes : Nat)
  | behind (hours minutes : Nat)

namespace Zone

def text : Zone → String
  | unsaid => ""
  | universal => "Z"
  | ahead hours minutes => "+" ++ digits 2 hours ++ ":" ++ digits 2 minutes
  | behind hours minutes => "-" ++ digits 2 hours ++ ":" ++ digits 2 minutes

/-- The seconds by which a time is ahead of universal time. -/
def seconds : Zone → Int
  | unsaid | universal => 0
  | ahead hours minutes => hours * 3600 + minutes * 60
  | behind hours minutes => -(hours * 3600 + minutes * 60)

def isValid : Zone → Bool
  | unsaid | universal => true
  | ahead hours minutes | behind hours minutes => hours ≤ 23 && minutes ≤ 59

end Zone

inductive Form
  | date (d : Date)
  | time (d : Date) (t : Time) (zone : Zone)

namespace Form

def text : Form → String
  | date d => d.text
  | time d t zone => d.text ++ "T" ++ t.text ++ zone.text

def reading : Form → Option Instant
  | date d => Parse.instant d .midnight 0
  | time d t zone => if zone.isValid then Parse.instant d t zone.seconds else none

end Form

/-! Numbers that the digits suffice for, whether or not there is such a date or time. -/

inductive Date.Fits : Date → Prop
  | intro {year month day : Nat} (hyear : year < 10000) (hmonth : month < 100)
      (hday : day < 100) : Fits ⟨year, month, day⟩

inductive Time.Fits : Time → Prop
  | intro {hour minute second : Nat} (hhour : hour < 100) (hminute : minute < 100)
      (hsecond : second < 100) : Fits ⟨hour, minute, second, 0⟩

inductive Zone.Fits : Zone → Prop
  | unsaid : Fits .unsaid
  | universal : Fits .universal
  | ahead {hours minutes : Nat} (hhours : hours < 100) (hminutes : minutes < 100) :
      Fits (.ahead hours minutes)
  | behind {hours minutes : Nat} (hhours : hours < 100) (hminutes : minutes < 100) :
      Fits (.behind hours minutes)

inductive Form.Fits : Form → Prop
  | date {d : Date} (hdate : d.Fits) : Fits (.date d)
  | time {d : Date} {t : Time} {zone : Zone} (hdate : d.Fits) (htime : t.Fits)
      (hzone : zone.Fits) : Fits (.time d t zone)

namespace Parse

/-! What each form reads. -/

theorem offsetSize_digits {hours minutes : Nat} (hhours : hours < 100)
    (hminutes : minutes < 100) :
    offsetSize ((digits 2 hours).toList ++ ':' :: (digits 2 minutes).toList) =
      if hours ≤ 23 ∧ minutes ≤ 59 then some (hours * 3600 + minutes * 60, []) else none := by
  have hrange : minutes ≤ 59 ∧ hours * 3600 + minutes * 60 ≤ maxOffset ↔
      hours ≤ 23 ∧ minutes ≤ 59 := by
    rw [maxOffset]
    omega
  have hlast := two_digits [] hminutes
  rw [List.append_nil] at hlast
  simp [offsetSize, two_digits _ hhours, hlast, char, hrange]

theorem offset_text {zone : Zone} (hzone : zone.Fits) (hsaid : zone ≠ .unsaid) :
    offset zone.text.toList = if zone.isValid then some (zone.seconds, []) else none := by
  cases hzone with
  | unsaid => exact absurd rfl hsaid
  | universal => rfl
  | ahead hhours hminutes =>
      simp [Zone.text, offset, offsetSize_digits hhours hminutes, Zone.isValid, Zone.seconds]
  | behind hhours hminutes =>
      simp [Zone.text, offset, offsetSize_digits hhours hminutes, Zone.isValid, Zone.seconds]

theorem fraction_text (zone : Zone) : fraction zone.text.toList = some (0, zone.text.toList) := by
  cases zone <;> simp [Zone.text, fraction]

section
variable {d : Date} (hdate : d.Fits)
include hdate

theorem date_text (cs : List Char) : date (d.text.toList ++ cs) = some (d, cs) := by
  obtain ⟨hyear, hmonth, hday⟩ := hdate
  simp [date, Date.text, year_digits _ hyear, field_digits _ hmonth, field_digits _ hday, char]

theorem dateForm_text (cs : List Char) :
    dateForm (d.text.toList ++ cs) = if cs.isEmpty then instant d .midnight 0 else none := by
  simp [dateForm, date_text hdate]

theorem plainForm_date : plainForm d.text.toList = none := by
  have hread := date_text hdate []
  rw [List.append_nil] at hread
  simp [plainForm, hread, char]

theorem offsetForm_date : offsetForm d.text.toList = none := by
  obtain ⟨hyear, hmonth, hday⟩ := hdate
  have hlast := two_digits [] hday
  rw [List.append_nil] at hlast
  simp [offsetForm, Date.text, four_digits _ hyear, two_digits _ hmonth, hlast, char, separator]

theorem plainForm_time {t : Time} (htime : t.Fits) (cs : List Char) :
    plainForm (d.text.toList ++ 'T' :: (t.text.toList ++ cs)) =
      if cs.isEmpty then instant d t 0 else none := by
  obtain ⟨hhour, hminute, hsecond⟩ := htime
  simp [plainForm, date_text hdate, Time.text, field_digits _ hhour, field_digits _ hminute,
    field_digits _ hsecond, char]

theorem offsetForm_time {t : Time} (htime : t.Fits) (zone : Zone) :
    offsetForm (d.text.toList ++ 'T' :: (t.text.toList ++ zone.text.toList)) =
      (offset zone.text.toList).bind fun (ahead, cs) =>
        if cs.isEmpty then instant d t ahead else none := by
  obtain ⟨hyear, hmonth, hday⟩ := hdate
  obtain ⟨hhour, hminute, hsecond⟩ := htime
  simp [offsetForm, Date.text, Time.text, four_digits _ hyear, two_digits _ hmonth,
    two_digits _ hday, two_digits _ hhour, two_digits _ hminute, two_digits _ hsecond, char,
    separator, fraction_text]

end

/-- What the three forms read of a text that has one of them. -/
inductive OneReads (reading : Option Instant) :
    Option Instant → Option Instant → Option Instant → Prop
  | offsetForm : OneReads reading reading none none
  | plainForm : OneReads reading none reading none
  | dateForm : OneReads reading none none reading

theorem oneReads_date {d : Date} (hdate : d.Fits) :
    OneReads (Form.date d).reading (offsetForm d.text.toList) (plainForm d.text.toList)
      (dateForm d.text.toList) := by
  have hread := dateForm_text hdate []
  rw [List.append_nil] at hread
  rw [offsetForm_date hdate, plainForm_date hdate, hread]
  exact .dateForm

theorem oneReads_time {d : Date} {t : Time} {zone : Zone} (hdate : d.Fits) (htime : t.Fits)
    (hzone : zone.Fits) {cs : List Char}
    (hcs : cs = d.text.toList ++ 'T' :: (t.text.toList ++ zone.text.toList)) :
    OneReads (Form.time d t zone).reading (offsetForm cs) (plainForm cs) (dateForm cs) := by
  have hplain := plainForm_time hdate htime zone.text.toList
  have hoffset := offsetForm_time hdate htime zone
  have hdateForm := dateForm_text hdate ('T' :: (t.text.toList ++ zone.text.toList))
  rw [← hcs] at hplain hoffset hdateForm
  rw [hdateForm, hplain, hoffset, Form.reading]
  -- without a zone only the plain form is left, with one only the form with an offset
  by_cases hsaid : zone = .unsaid
  · subst hsaid
    exact .plainForm
  · have htext : zone.text.toList.isEmpty = false := by
      cases hzone with
      | unsaid => exact absurd rfl hsaid
      | universal => rfl
      | ahead => simp [Zone.text]
      | behind => simp [Zone.text]
    rw [offset_text hzone hsaid, htext]
    cases zone.isValid <;> exact .offsetForm

theorem oneReads_text {f : Form} (hfits : f.Fits) :
    OneReads f.reading (offsetForm f.text.toList) (plainForm f.text.toList)
      (dateForm f.text.toList) := by
  cases hfits with
  | date hdate => exact oneReads_date hdate
  | time hdate htime hzone => exact oneReads_time hdate htime hzone (by simp [Form.text])

theorem OneReads.orElse_eq {reading a b c : Option Instant} (h : OneReads reading a b c) :
    (a <|> b <|> c) = reading := by
  cases h <;> cases reading <;> rfl

end Parse

/-! Dates and times that there are. -/

/-- A time of day. A minute may have a leap second. -/
structure Time.InRange (t : Time) : Prop where
  hour : t.hour ≤ 23
  minute : t.minute ≤ 59
  second : t.second ≤ 60

inductive Form.InRange : Form → Prop
  | date {d : Date} (hdate : d.Civil) : InRange (.date d)
  | time {d : Date} {t : Time} {zone : Zone} (hdate : d.Civil) (htime : t.InRange)
      (hzone : zone.isValid = true) : InRange (.time d t zone)

theorem Date.Fits.isValid_iff_civil {d : Date} (h : d.Fits) : d.isValid = true ↔ d.Civil := by
  obtain ⟨hyear, -, -⟩ := h
  refine ⟨civil_of_isValid, fun hcivil => hcivil.isValid ?_⟩
  simp only [minYear, maxYear]
  omega

theorem Time.Fits.isValid_iff_inRange {t : Time} (h : t.Fits) : t.isValid = true ↔ t.InRange := by
  obtain ⟨hhour, hminute, hsecond⟩ := h
  rw [isValid_iff]
  exact ⟨fun ⟨hhour, hminute, hsecond, _⟩ => ⟨hhour, hminute, hsecond⟩,
    fun ⟨hhour, hminute, hsecond⟩ => ⟨hhour, hminute, hsecond, Nat.succ_pos _⟩⟩

/-- A text that stands for no instant, in whichever form it is read. -/
structure Unrecognized (s : String) : Prop where
  offsetForm : Parse.offsetForm s.toList = none
  plainForm : Parse.plainForm s.toList = none
  dateForm : Parse.dateForm s.toList = none
  parse : parse s = .error (.command (.invalidArgument
    ("unrecognized date " ++ Text.quoted s ++ " (expected ISO 8601 or YYYY-MM-DD)")))

namespace Form

theorem isEmpty_text (f : Form) : f.text.isEmpty = false := by
  have hmem : '-' ∈ f.text.toList := by
    cases f <;> simp [text, Date.text]
  rw [← Bool.not_eq_true, String.isEmpty_iff]
  intro hempty
  rw [hempty] at hmem
  cases hmem

variable {f : Form} (hfits : f.Fits)
include hfits

theorem parse_text {i : Instant} (hreading : f.reading = some i) : parse f.text = .ok i := by
  have hreads := (Parse.oneReads_text hfits).orElse_eq
  rw [hreading] at hreads
  simp only [parse, f.isEmpty_text, Bool.false_eq_true, if_false, hreads]

theorem unrecognized (hreading : f.reading = none) : Unrecognized f.text := by
  have hreads := Parse.oneReads_text hfits
  rw [hreading] at hreads
  have hparse : parse f.text = .error (.command (.invalidArgument ("unrecognized date " ++
      Text.quoted f.text ++ " (expected ISO 8601 or YYYY-MM-DD)"))) := by
    simp only [parse, f.isEmpty_text, Bool.false_eq_true, if_false, hreads.orElse_eq]
  generalize hoffset : Parse.offsetForm f.text.toList = a,
    hplain : Parse.plainForm f.text.toList = b,
    hdate : Parse.dateForm f.text.toList = c at hreads
  cases hreads <;> exact ⟨hoffset, hplain, hdate, hparse⟩

theorem reading_of_not_inRange (h : ¬f.InRange) : f.reading = none := by
  cases hfits with
  | @date d hdate =>
      have hinvalid : ¬d.isValid = true := fun hvalid =>
        h (.date (hdate.isValid_iff_civil.mp hvalid))
      simp [reading, Parse.instant, hinvalid]
  | @time d t zone hdate htime hzone =>
      have hinvalid : ¬(zone.isValid = true ∧ d.isValid = true ∧ t.isValid = true) := by
        rintro ⟨hvalid, hd, ht⟩
        exact h (.time (hdate.isValid_iff_civil.mp hd) (htime.isValid_iff_inRange.mp ht) hvalid)
      simpa [reading, Parse.instant] using hinvalid

end Form

/-- A date of the years that have four digits. -/
structure Date.Common (d : Date) : Prop where
  civil : d.Civil
  year_nonneg : 0 ≤ d.year
  year_le : d.year ≤ 9999

structure Time.Whole (t : Time) : Prop where
  inRange : t.InRange
  whole : t.nanosecond = 0

theorem Date.Common.fits {d : Date} (h : d.Common) : d.Fits := by
  obtain ⟨hcivil, hnonneg, hle⟩ := h
  obtain @⟨year, month, day, last, hlast, -, hday⟩ := hcivil
  have hmonth := (lastDay_iff.mp hlast).1
  have hlength : last ≤ 31 := by
    cases hlast <;> decide
  obtain ⟨y, rfl⟩ := Int.eq_ofNat_of_zero_le hnonneg
  dsimp only at *
  exact .intro (by omega) (by omega) (by omega)

theorem Time.Whole.fits {t : Time} (h : t.Whole) : t.Fits := by
  obtain ⟨⟨hhour, hminute, hsecond⟩, hwhole⟩ := h
  obtain ⟨hour, minute, second, nanosecond⟩ := t
  cases hwhole
  dsimp only at *
  exact .intro (by omega) (by omega) (by omega)

theorem Zone.fits_of_isValid {zone : Zone} (h : zone.isValid = true) : zone.Fits := by
  cases zone with
  | unsaid => exact .unsaid
  | universal => exact .universal
  | ahead =>
      simp only [isValid, Bool.and_eq_true, decide_eq_true_eq] at h
      exact .ahead (by omega) (by omega)
  | behind =>
      simp only [isValid, Bool.and_eq_true, decide_eq_true_eq] at h
      exact .behind (by omega) (by omega)

theorem Zone.text_zero : (Zone.ahead 0 0).text = "+00:00" := by
  decide +kernel

theorem Time.text_midnight : Time.midnight.text = "00:00:00" := by
  decide +kernel

/-- What the texts of a date and a time are read as, with whatever zone. -/
structure Agrees (d : Date) (t : Time) (i : Instant) : Prop where
  unsaid : parse (d.text ++ "T" ++ t.text) = .ok i
  universal : parse (d.text ++ "T" ++ t.text ++ "Z") = .ok i
  zero : parse (d.text ++ "T" ++ t.text ++ "+00:00") = .ok i
  zone (zone : Zone) (hvalid : zone.isValid = true) :
    parse (d.text ++ "T" ++ t.text ++ zone.text) = .ok (i.earlier zone.seconds)

section
variable {d : Date} {t : Time} (hdate : d.Common) (htime : t.Whole)

include hdate in
theorem Date.Common.isValid : d.isValid = true :=
  hdate.fits.isValid_iff_civil.mpr hdate.civil

include htime in
theorem Time.Whole.isValid : t.isValid = true :=
  htime.fits.isValid_iff_inRange.mpr htime.inRange

include hdate

theorem parse_date : parse d.text = .ok (.ofDateTime d .midnight 0) := by
  have hreading : (Form.date d).reading = some (.ofDateTime d .midnight 0) := by
    rw [Form.reading, Parse.instant, hdate.isValid]
    rfl
  have hparse := Form.parse_text (.date hdate.fits) hreading
  rwa [Form.text] at hparse

include htime

theorem parse_time {zone : Zone} (hzone : zone.isValid = true) :
    parse (d.text ++ "T" ++ t.text ++ zone.text) =
      .ok ((Instant.ofDateTime d t 0).earlier zone.seconds) := by
  have hfits : (Form.time d t zone).Fits :=
    .time hdate.fits htime.fits (Zone.fits_of_isValid hzone)
  have hreading : (Form.time d t zone).reading = some (.ofDateTime d t zone.seconds) := by
    rw [Form.reading, Parse.instant, hdate.isValid, htime.isValid, hzone]
    rfl
  have hparse := Form.parse_text hfits hreading
  rwa [Form.text, Instant.ofDateTime_eq_earlier] at hparse

theorem parse_time_of_seconds {zone : Zone} (hzone : zone.isValid = true)
    (hseconds : zone.seconds = 0) :
    parse (d.text ++ "T" ++ t.text ++ zone.text) = .ok (.ofDateTime d t 0) := by
  rw [parse_time hdate htime hzone, hseconds, ← Instant.ofDateTime_eq_earlier]

theorem agrees : Agrees d t (.ofDateTime d t 0) := by
  have hunsaid := parse_time_of_seconds hdate htime (rfl : Zone.unsaid.isValid = true) rfl
  have huniversal := parse_time_of_seconds hdate htime (rfl : Zone.universal.isValid = true) rfl
  have hzero := parse_time_of_seconds hdate htime (rfl : (Zone.ahead 0 0).isValid = true) rfl
  rw [Zone.text, String.append_empty] at hunsaid
  rw [Zone.text] at huniversal
  rw [Zone.text_zero] at hzero
  exact ⟨hunsaid, huniversal, hzero, fun zone => parse_time hdate htime⟩

end

/-- The texts of a date and a time give one instant in all forms, from which an offset is taken; the
instants stand in the order of the dates and times; and a text of one that there is not gives none,
in any form. -/
theorem forms_agree :
    (∀ d t, Date.Common d → Time.Whole t → Agrees d t (.ofDateTime d t 0)) ∧
    (∀ d, Date.Common d → parse d.text = parse (d.text ++ "T00:00:00Z")) ∧
    (∀ d t e u, Date.Common d → Time.Whole t → Date.Common e → Time.Whole u →
      (Instant.ofDateTime d t 0 < Instant.ofDateTime e u 0 ↔ d < e ∨ d = e ∧ t < u)) ∧
    ∀ f, Form.Fits f → ¬f.InRange → Unrecognized f.text := by
  refine ⟨fun _ _ => agrees, fun d hdate => ?_, fun d t e u hd ht he hu => ?_,
    fun f hfits hrange => f.unrecognized hfits (f.reading_of_not_inRange hfits hrange)⟩
  · have hmidnight : d.text ++ "T00:00:00Z" = d.text ++ "T" ++ Time.midnight.text ++ "Z" := by
      rw [Time.text_midnight, String.append_assoc, String.append_assoc]
      rfl
    have htime : Time.midnight.Whole := ⟨⟨by decide, by decide, by decide⟩, rfl⟩
    rw [parse_date hdate, hmidnight]
    exact (agrees hdate htime).universal.symm
  · exact Instant.ofDateTime_lt_iff hd.isValid he.isValid ht.isValid hu.isValid

theorem forms_agree_leap_day :
    parse "2024-02-29T23:59:59" = .ok ⟨1709251199, 0⟩ ∧
    parse "2024-02-29T23:59:59-01:30" = .ok ⟨1709256599, 0⟩ ∧
    parse "2024-02-29" = parse "2024-02-29T00:00:00Z" ∧
    (⟨1709251199, 0⟩ : Instant) < ⟨1709251200, 0⟩ ∧
    Unrecognized "2023-02-29" := by
  obtain ⟨hagrees, hmidnights, horder, hnone⟩ := forms_agree
  have hlast : Date.Common ⟨2024, 2, 29⟩ :=
    ⟨.intro (.leap (by decide)) (by decide) (by decide), by decide, by decide⟩
  have hfirst : Date.Common ⟨2024, 3, 1⟩ :=
    ⟨.intro (.long (by decide)) (by decide) (by decide), by decide, by decide⟩
  have hsecond : Time.Whole ⟨23, 59, 59, 0⟩ := ⟨⟨by decide, by decide, by decide⟩, rfl⟩
  have hmidnight : Time.Whole .midnight := ⟨⟨by decide, by decide, by decide⟩, rfl⟩
  have hdate : Date.text ⟨2024, 2, 29⟩ = "2024-02-29" := by decide +kernel
  have htime : Time.text ⟨23, 59, 59, 0⟩ = "23:59:59" := by decide +kernel
  have hzone : (Zone.behind 1 30).text = "-01:30" := by decide +kernel
  have hinstant : Instant.ofDateTime ⟨2024, 2, 29⟩ ⟨23, 59, 59, 0⟩ 0 = ⟨1709251199, 0⟩ := by
    decide +kernel
  have hnext : Instant.ofDateTime ⟨2024, 3, 1⟩ .midnight 0 = ⟨1709251200, 0⟩ := by
    decide +kernel
  have hread := hagrees _ _ hlast hsecond
  rw [hinstant] at hread
  have hunsaid := hread.unsaid
  have hbehind := hread.zone (.behind 1 30) rfl
  have hsame := hmidnights _ hlast
  have hlt := (horder _ _ _ _ hlast hsecond hfirst hmidnight).mpr
    (.inl (.inr ⟨rfl, .inl (by decide)⟩))
  have hmissing : ¬(Form.date ⟨2023, 2, 29⟩).InRange := by
    rintro (hcivil | _)
    exact absurd (hcivil.isValid (by decide)) (by decide)
  have hfits : Date.Fits ⟨2023, 2, 29⟩ :=
    @Date.Fits.intro 2023 2 29 (by decide) (by decide) (by decide)
  have hunknown := hnone _ (.date hfits) hmissing
  have htext : (Form.date ⟨2023, 2, 29⟩).text = "2023-02-29" := by decide +kernel
  rw [hdate, htime] at hunsaid hbehind
  rw [hzone] at hbehind
  rw [hdate] at hsame
  rw [hinstant, hnext] at hlt
  rw [htext] at hunknown
  exact ⟨hunsaid, hbehind, hsame, hlt, hunknown⟩

end ChannelAdapter.Calendar
