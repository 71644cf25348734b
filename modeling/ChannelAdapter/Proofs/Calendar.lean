import ChannelAdapter.Calendar
import Mathlib.Data.Int.Init
import Mathlib.Data.Nat.Init
/-!
The days of the calendar and their order. Day numbers grow from date to date, and so instants stand
in the order of their dates, and on one day in that of their times.
-/

namespace ChannelAdapter.Calendar

/-! The calendar as it is agreed upon. -/

/-- The last day of a month. -/
inductive LastDay (year : Int) : Nat → Nat → Prop
  | long {month : Nat} (h : month ∈ [1, 3, 5, 7, 8, 10, 12]) : LastDay year month 31
  | short {month : Nat} (h : month ∈ [4, 6, 9, 11]) : LastDay year month 30
  | leap (h : year % 4 = 0 ∧ year % 100 ≠ 0 ∨ year % 400 = 0) : LastDay year 2 29
  | common (h : ¬(year % 4 = 0 ∧ year % 100 ≠ 0 ∨ year % 400 = 0)) : LastDay year 2 28

/-- A day that there is. -/
inductive Date.Civil : Date → Prop
  | intro {year : Int} {month day last : Nat} (hlast : LastDay year month last)
      (hfirst : 1 ≤ day) (hday : day ≤ last) : Civil ⟨year, month, day⟩

instance : LT Date where
  lt d e := d.year < e.year ∨
    d.year = e.year ∧ (d.month < e.month ∨ d.month = e.month ∧ d.day < e.day)

instance : LT Time where
  lt t u := t.hour < u.hour ∨ t.hour = u.hour ∧ (t.minute < u.minute ∨
    t.minute = u.minute ∧ (t.second < u.second ∨
      t.second = u.second ∧ t.nanosecond < u.nanosecond))

instance : LT Instant where
  lt a b := a.seconds < b.seconds ∨ a.seconds = b.seconds ∧ a.nanoseconds < b.nanoseconds

/-! The days of years and of months. -/

def yearLength (year : Int) : Nat :=
  if isLeap year then 366 else 365

theorem isLeap_iff {year : Int} :
    isLeap year = true ↔ year % 4 = 0 ∧ year % 100 ≠ 0 ∨ year % 400 = 0 := by
  simp [isLeap]

theorem lastDay_iff {year : Int} {month last : Nat} :
    LastDay year month last ↔ (1 ≤ month ∧ month ≤ 12) ∧ last = monthLength year month := by
  constructor
  · rintro (h | h | h | h)
    · simp only [List.mem_cons, List.not_mem_nil, or_false] at h
      rcases h with rfl | rfl | rfl | rfl | rfl | rfl | rfl <;> exact ⟨by decide, rfl⟩
    · simp only [List.mem_cons, List.not_mem_nil, or_false] at h
      rcases h with rfl | rfl | rfl | rfl <;> exact ⟨by decide, rfl⟩
    · exact ⟨by decide, by rw [monthLength, isLeap_iff.mpr h, if_pos rfl]⟩
    · exact ⟨by decide, by rw [monthLength, if_neg (mt isLeap_iff.mp h)]⟩
  · rintro ⟨hmonth, rfl⟩
    unfold monthLength
    split
    · split
      · next hleap => exact .leap (isLeap_iff.mp hleap)
      · next hleap => exact .common (mt isLeap_iff.mpr hleap)
    iterate 4 exact .short (by decide)
    apply LastDay.long
    simp only [List.mem_cons, List.not_mem_nil, or_false]
    grind

theorem daysBeforeYear_succ (year : Int) :
    daysBeforeYear (year + 1) = daysBeforeYear year + yearLength year := by
  unfold daysBeforeYear yearLength
  split
  · next hleap =>
    have hyear := isLeap_iff.mp hleap
    omega
  · next hleap =>
    have hyear := mt isLeap_iff.mpr hleap
    omega

theorem daysBeforeYear_le {year later : Int} (h : year < later) :
    daysBeforeYear year + yearLength year ≤ daysBeforeYear later := by
  induction later, h using Int.leInduction with
  | base => exact Int.le_of_eq (daysBeforeYear_succ year).symm
  | succ later _ ih =>
      rw [daysBeforeYear_succ later]
      omega

section
variable (year : Int) {month later : Nat}

theorem daysBeforeMonth_succ (hmonth : 1 ≤ month) :
    daysBeforeMonth year (month + 1) = daysBeforeMonth year month + monthLength year month := by
  obtain ⟨m, rfl⟩ := Nat.exists_eq_add_of_le' hmonth
  simp only [daysBeforeMonth, Nat.add_sub_cancel, List.range_succ, List.foldl_append,
    List.foldl_cons, List.foldl_nil]

theorem daysBeforeMonth_le (hmonth : 1 ≤ month) (h : month < later) :
    daysBeforeMonth year month + monthLength year month ≤ daysBeforeMonth year later := by
  induction later, h using Nat.le_induction with
  | base => exact Nat.le_of_eq (daysBeforeMonth_succ year hmonth).symm
  | succ later hlater ih =>
      rw [daysBeforeMonth_succ year (by omega)]
      omega

theorem daysBeforeMonth_thirteen : daysBeforeMonth year 13 = yearLength year := by
  cases hleap : isLeap year <;>
    simp [daysBeforeMonth, List.range, List.range.loop, monthLength, yearLength, hleap]

end

namespace Date

theorem isValid_iff {d : Date} :
    d.isValid = true ↔ (minYear ≤ d.year ∧ d.year ≤ maxYear) ∧ (1 ≤ d.month ∧ d.month ≤ 12) ∧
      1 ≤ d.day ∧ d.day ≤ monthLength d.year d.month := by
  simp [isValid, and_assoc]

theorem civil_of_isValid {d : Date} (hd : d.isValid = true) : d.Civil := by
  obtain ⟨-, hmonth, hfirst, hday⟩ := isValid_iff.mp hd
  exact .intro (lastDay_iff.mpr ⟨hmonth, rfl⟩) hfirst hday

theorem Civil.isValid {d : Date} (h : d.Civil) (hyears : minYear ≤ d.year ∧ d.year ≤ maxYear) :
    d.isValid = true := by
  obtain ⟨hlast, hfirst, hday⟩ := h
  obtain ⟨hmonth, rfl⟩ := lastDay_iff.mp hlast
  exact isValid_iff.mpr ⟨hyears, hmonth, hfirst, hday⟩

theorem dayNumber_lt {d e : Date} (hd : d.isValid = true) (he : e.isValid = true) (h : d < e) :
    d.dayNumber < e.dayNumber := by
  obtain ⟨-, ⟨hmonth, hmonths⟩, hday, hdays⟩ := isValid_iff.mp hd
  obtain ⟨-, -, hlater, -⟩ := isValid_iff.mp he
  have hsucc := daysBeforeMonth_succ d.year hmonth
  rcases h with hyear | ⟨hyear, hmonth' | ⟨hmonth', hday'⟩⟩
  · -- the rest of the year lies between the date and the next year
    have hrest := daysBeforeMonth_le d.year hmonth (Nat.lt_succ_of_le hmonths)
    have hbefore := daysBeforeYear_le hyear
    rw [daysBeforeMonth_thirteen] at hrest
    unfold dayNumber
    omega
  · have hbefore := daysBeforeMonth_le d.year hmonth hmonth'
    unfold dayNumber
    rw [← hyear]
    omega
  · unfold dayNumber
    rw [← hyear, ← hmonth']
    omega

theorem lt_iff {d e : Date} :
    d < e ↔ d.year < e.year ∨
      d.year = e.year ∧ (d.month < e.month ∨ d.month = e.month ∧ d.day < e.day) :=
  Iff.rfl

theorem lt_trichotomy (d e : Date) : d < e ∨ d = e ∨ e < d := by
  obtain ⟨year, month, day⟩ := d
  obtain ⟨year', month', day'⟩ := e
  simp only [lt_iff, mk.injEq]
  omega

theorem dayNumber_lt_iff {d e : Date} (hd : d.isValid = true) (he : e.isValid = true) :
    d.dayNumber < e.dayNumber ↔ d < e := by
  refine ⟨fun h => ?_, dayNumber_lt hd he⟩
  rcases lt_trichotomy d e with hbefore | rfl | hafter
  · exact hbefore
  · exact absurd h (Int.lt_irrefl _)
  · exact absurd h (Int.not_lt.mpr (Int.le_of_lt (dayNumber_lt he hd hafter)))

theorem dayNumber_inj {d e : Date} (hd : d.isValid = true) (he : e.isValid = true) :
    d.dayNumber = e.dayNumber ↔ d = e := by
  refine ⟨fun h => ?_, congrArg dayNumber⟩
  rcases lt_trichotomy d e with hbefore | heq | hafter
  · exact absurd h (Int.ne_of_lt (dayNumber_lt hd he hbefore))
  · exact heq
  · exact absurd h.symm (Int.ne_of_lt (dayNumber_lt he hd hafter))

end Date

namespace Time

theorem isValid_iff {t : Time} :
    t.isValid = true ↔
      t.hour ≤ 23 ∧ t.minute ≤ 59 ∧ t.second ≤ 60 ∧ t.nanosecond < 1000000000 := by
  simp [isValid, and_assoc]

theorem lt_iff {t u : Time} :
    t < u ↔ t.hour < u.hour ∨ t.hour = u.hour ∧ (t.minute < u.minute ∨
      t.minute = u.minute ∧ (t.second < u.second ∨
        t.second = u.second ∧ t.nanosecond < u.nanosecond)) :=
  Iff.rfl

end Time

namespace Instant

theorem lt_iff {a b : Instant} :
    a < b ↔ a.seconds < b.seconds ∨ a.seconds = b.seconds ∧ a.nanoseconds < b.nanoseconds :=
  Iff.rfl

def earlier (i : Instant) (seconds : Int) : Instant :=
  { i with seconds := i.seconds - seconds }

theorem ofDateTime_eq_earlier (d : Date) (t : Time) (offset : Int) :
    ofDateTime d t offset = (ofDateTime d t 0).earlier offset := by
  simp only [ofDateTime, earlier, Int.sub_zero]

theorem ofDateTime_lt_iff {d e : Date} {t u : Time} (hd : d.isValid = true)
    (he : e.isValid = true) (ht : t.isValid = true) (hu : u.isValid = true) :
    ofDateTime d t 0 < ofDateTime e u 0 ↔ d < e ∨ d = e ∧ t < u := by
  have ht' := Time.isValid_iff.mp ht
  have hu' := Time.isValid_iff.mp hu
  rw [← Date.dayNumber_lt_iff hd he, ← Date.dayNumber_inj hd he, lt_iff, Time.lt_iff]
  simp only [ofDateTime]
  -- a leap second has the seconds of the one before it and more nanoseconds than that can have
  split <;> split <;> omega

/-- A later instant is later in milliseconds, too, but not if a leap second reaches beyond it. -/
theorem milliseconds_le {a b : Instant} (h : a < b) (hleap : a.nanoseconds < 1000000000) :
    a.milliseconds ≤ b.milliseconds := by
  rw [lt_iff] at h
  unfold milliseconds
  omega

end Instant

end ChannelAdapter.Calendar
