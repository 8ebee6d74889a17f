/-
  The calendar, counted.

  * `Date.number d` is the number of a date, counted in days over all years, by which dates are
    told apart (`eq_of_number_eq`);
  * `number_addDays`: going on by days counts them, over the ends of months and years;
  * `Timestamp.SameInstant t offset t'`: what a clock shows that is ahead by so many minutes, and
    the time in UTC; minutes are counted likewise, the rest is the same on all clocks;
  * `atOffset?_eq_some`: what a clock shows is brought to UTC so, and so only
    (`SameInstant.unique`).
-/
import LedgerClient.Timestamp
import Mathlib.Tactic.Common
import Mathlib.Tactic.Ring

namespace LedgerClient

/-! ## Months and years -/

theorem isLeapYear_iff {year : Int} :
    isLeapYear year = true ↔ year % 4 = 0 ∧ (year % 100 ≠ 0 ∨ year % 400 = 0) := by
  simp [isLeapYear]

theorem daysInMonth_pos (year : Int) (month : Nat) : 1 ≤ daysInMonth year month := by
  unfold daysInMonth
  split
  · split <;> omega
  · split <;> omega

theorem daysInMonth_le (year : Int) (month : Nat) : daysInMonth year month ≤ 31 := by
  unfold daysInMonth
  split
  · split <;> omega
  · split <;> omega

/-- The days of the first so many months. -/
def daysOfMonths (year : Int) (months : Nat) : Nat :=
  ((List.range months).map fun m => daysInMonth year (m + 1)).sum

theorem daysOfMonths_succ (year : Int) (months : Nat) :
    daysOfMonths year (months + 1) = daysOfMonths year months + daysInMonth year (months + 1) := by
  simp [daysOfMonths, List.range_succ]

/-- The days before a month are those before the month before it, and its own. -/
theorem daysOfMonths_pred (year : Int) (month : Nat) (h : 1 < month) :
    daysOfMonths year (month - 1) =
      daysOfMonths year (month - 1 - 1) + daysInMonth year (month - 1) := by
  obtain ⟨m, rfl⟩ : ∃ m, month = m + 2 := ⟨month - 2, by omega⟩
  exact daysOfMonths_succ year m

theorem daysOfMonths_twelve (year : Int) :
    daysOfMonths year 12 = if isLeapYear year then 366 else 365 := by
  simp [daysOfMonths, List.range, List.range.loop, daysInMonth]
  split <;> rfl

/-- The days of all years up to the given one, without it. -/
def daysOfYears (year : Int) : Int :=
  365 * year + (year + 3) / 4 - (year + 99) / 100 + (year + 399) / 400

theorem daysOfYears_succ (year : Int) :
    daysOfYears (year + 1) = daysOfYears year + daysOfMonths year 12 := by
  rw [daysOfMonths_twelve]
  unfold daysOfYears
  split
  · rename_i h
    rw [isLeapYear_iff] at h
    omega
  · rename_i h
    rw [isLeapYear_iff] at h
    omega

theorem daysOfYears_mono {year year' : Int} (h : year ≤ year') :
    daysOfYears year ≤ daysOfYears year' := by
  unfold daysOfYears
  omega

theorem daysOfMonths_mono (year : Int) {months months' : Nat} (h : months ≤ months') :
    daysOfMonths year months ≤ daysOfMonths year months' := by
  induction h with
  | refl => exact Nat.le_refl _
  | step _ ih =>
    rw [daysOfMonths_succ]
    exact Nat.le_add_right_of_le ih

/-! ## Dates -/

namespace Date

/-- A date that the calendar has. -/
structure IsReal (d : Date) : Prop where
  one_le_month : 1 ≤ d.month
  month_le : d.month ≤ 12
  one_le_day : 1 ≤ d.day
  day_le : d.day ≤ daysInMonth d.year d.month

theorem isValid_iff {d : Date} : d.isValid ↔ yearInRange d.year ∧ d.IsReal := by
  simp only [isValid, Bool.and_eq_true, decide_eq_true_eq]
  constructor
  · rintro ⟨⟨⟨⟨hyear, h1⟩, h2⟩, h3⟩, h4⟩
    exact ⟨hyear, h1, h2, h3, h4⟩
  · rintro ⟨hyear, h1, h2, h3, h4⟩
    exact ⟨⟨⟨⟨hyear, h1⟩, h2⟩, h3⟩, h4⟩

/-- The number of a date. -/
def number (d : Date) : Int :=
  daysOfYears d.year + daysOfMonths d.year (d.month - 1) + d.day

variable {d : Date}

theorem next_isReal (h : d.IsReal) : d.next.IsReal := by
  obtain ⟨h1, h2, h3, h4⟩ := h
  unfold next
  split
  · exact ⟨h1, h2, by simp, by simpa⟩
  split
  · exact ⟨by simp, by simp; omega, by simp, daysInMonth_pos _ _⟩
  · exact ⟨by simp, by simp, by simp, daysInMonth_pos _ _⟩

theorem prev_isReal (h : d.IsReal) : d.prev.IsReal := by
  obtain ⟨h1, h2, h3, h4⟩ := h
  unfold prev
  split
  · exact ⟨h1, h2, by simp; omega, by simp; omega⟩
  split
  · exact ⟨by simp; omega, by simp; omega, daysInMonth_pos _ _, Nat.le_refl _⟩
  · exact ⟨by simp, by simp, by simp, by simp [daysInMonth]⟩

theorem number_next (h : d.IsReal) : d.next.number = d.number + 1 := by
  obtain ⟨h1, h2, h3, h4⟩ := h
  unfold next number
  split
  · simp only
    omega
  split
  · -- The days of the month that ends are counted with those before it.
    have := daysOfMonths_pred d.year (d.month + 1) (by omega)
    simp only [Nat.add_sub_cancel] at this ⊢
    omega
  · -- The months of the year that ends are counted with the years before it.
    have hmonth : d.month = 12 := by omega
    have := daysOfMonths_pred d.year 13 (by decide)
    have := daysOfYears_succ d.year
    have : daysOfMonths (d.year + 1) 0 = 0 := rfl
    simp only [hmonth, Nat.reduceSub] at *
    omega

theorem number_prev (h : d.IsReal) : d.prev.number = d.number - 1 := by
  obtain ⟨h1, h2, h3, h4⟩ := h
  unfold prev number
  split
  · simp only
    omega
  split
  · have := daysOfMonths_pred d.year d.month (by omega)
    simp only
    omega
  · have hmonth : d.month = 1 := by omega
    have := daysOfMonths_pred (d.year - 1) 13 (by decide)
    have := daysOfYears_succ (d.year - 1)
    have : daysOfMonths d.year 0 = 0 := rfl
    have : daysInMonth (d.year - 1) 12 = 31 := rfl
    simp only [hmonth, Nat.reduceSub, Int.sub_add_cancel] at *
    omega

/-- A date of a later year, or of a later month of the same year, has a greater number. -/
theorem number_lt {d' : Date} (h : d.IsReal) (h' : d'.IsReal)
    (hlt : d.year < d'.year ∨ d.year = d'.year ∧ d.month < d'.month) : d.number < d'.number := by
  obtain ⟨h1, h2, h3, h4⟩ := h
  have hday := h'.one_le_day
  have hmonth := daysOfMonths_pred d.year (d.month + 1) (by omega)
  rw [Nat.add_sub_cancel] at hmonth
  unfold number
  -- The number is no greater than that of the last day of the month, and so of the year.
  rcases hlt with hyear | ⟨hyear, hlt⟩
  · have hyears := daysOfYears_mono (Int.add_one_le_iff.2 hyear)
    have hmonths := daysOfMonths_mono d.year h2
    rw [daysOfYears_succ] at hyears
    omega
  · have hmonths := daysOfMonths_mono d.year (Nat.le_sub_one_of_lt hlt)
    rw [← hyear]
    omega

/-- **Dates are told apart by their numbers.** -/
theorem eq_of_number_eq {d' : Date} (h : d.IsReal) (h' : d'.IsReal) (heq : d.number = d'.number) :
    d = d' := by
  have hlt := number_lt h h'
  have hgt := number_lt h' h
  have hyear : d.year = d'.year := by omega
  have hmonth : d.month = d'.month := by omega
  have hday : d.day = d'.day := by
    rw [number, number, hyear, hmonth] at heq
    omega
  calc d = ⟨d.year, d.month, d.day⟩ := rfl
    _ = ⟨d'.year, d'.month, d'.day⟩ := by rw [hyear, hmonth, hday]
    _ = d' := rfl

/-- Going from day to day, each step one day further, counts the days. -/
theorem foldl_days {step : Date → Date} {k : Int}
    (hreal : ∀ d : Date, d.IsReal → (step d).IsReal)
    (hnumber : ∀ d : Date, d.IsReal → (step d).number = d.number + k) (h : d.IsReal) (n : Nat) :
    ((List.range n).foldl (fun d _ => step d) d).IsReal ∧
      ((List.range n).foldl (fun d _ => step d) d).number = d.number + n * k := by
  induction n with
  | zero => exact ⟨h, by simp⟩
  | succ n ih =>
    obtain ⟨ihreal, ihnumber⟩ := ih
    rw [List.range_succ, List.foldl_append, List.foldl_cons, List.foldl_nil]
    refine ⟨hreal _ ihreal, ?_⟩
    rw [hnumber _ ihreal, ihnumber]
    push_cast
    ring

/-- **Days are counted over the ends of months and years**, onwards and back. -/
theorem number_addDays (h : d.IsReal) (n : Int) :
    (d.addDays n).IsReal ∧ (d.addDays n).number = d.number + n := by
  match n with
  | .ofNat n =>
    have := foldl_days (k := 1) (fun _ => next_isReal) (fun _ => number_next) h n
    refine ⟨this.1, this.2.trans ?_⟩
    rw [Int.mul_one]
    rfl
  | .negSucc n =>
    have := foldl_days (k := -1) (fun _ => prev_isReal) (fun _ => number_prev) h (n + 1)
    refine ⟨this.1, this.2.trans ?_⟩
    omega

end Date

/-! ## Clocks -/

namespace Timestamp

/-- The number of a minute. -/
def minuteNumber (t : Timestamp) : Int :=
  t.date.number * 1440 + t.hour * 60 + t.minute

/-- Two clocks show one instant: the same minute as counted, and in it the same second and
nanosecond. -/
def SameInstant (t : Timestamp) (offset : Int) (t' : Timestamp) : Prop :=
  t'.minuteNumber = t.minuteNumber - offset ∧ t'.second = t.second ∧ t'.nano = t.nano

theorem isValid_iff {t : Timestamp} :
    t.isValid ↔ t.date.isValid ∧ t.hour < 24 ∧ t.minute < 60 ∧ t.second ≤ 60 ∧
      t.nano < tenTo 9 := by
  simp [isValid, and_assoc]

variable {t t' : Timestamp} {offset : Int}

/-- One clock shows one instant. -/
theorem SameInstant.unique {u : Timestamp} (h : t.SameInstant offset t')
    (hu : t.SameInstant offset u) (hvalid : t'.isValid) (huvalid : u.isValid) : t' = u := by
  obtain ⟨hminute, hsecond, hnano⟩ := h
  obtain ⟨huminute, husecond, hunano⟩ := hu
  obtain ⟨hdate, hlt, hlt', -, -⟩ := isValid_iff.mp hvalid
  obtain ⟨hudate, hult, hult', -, -⟩ := isValid_iff.mp huvalid
  unfold minuteNumber at hminute huminute
  have hnumber : t'.date.number = u.date.number := by omega
  have hdates := Date.eq_of_number_eq (Date.isValid_iff.mp hdate).2 (Date.isValid_iff.mp hudate).2
    hnumber
  have hhour : t'.hour = u.hour := by omega
  have hminutes : t'.minute = u.minute := by omega
  calc t' = ⟨t'.date, t'.hour, t'.minute, t'.second, t'.nano⟩ := rfl
    _ = ⟨u.date, u.hour, u.minute, u.second, u.nano⟩ := by
      rw [hdates, hhour, hminutes, hsecond, hnano, husecond, hunano]
    _ = u := rfl

/-- **What a clock shows and the time in UTC are one instant**, and the time in UTC is one that
the calendar has. -/
theorem atOffset?_eq_some (h : t.isValid) (hoffset : t.atOffset? offset = some t') :
    t'.isValid ∧ t.SameInstant offset t' := by
  obtain ⟨hdate, hhour, hminute, hsecond, hnano⟩ := isValid_iff.mp h
  have hreal := (Date.isValid_iff.mp hdate).2
  simp only [atOffset?] at hoffset
  split at hoffset
  case isFalse => cases hoffset
  case isTrue hyear =>
    cases hoffset
    obtain ⟨hreal', hnumber⟩ :=
      Date.number_addDays hreal ((t.hour * 60 + t.minute - offset : Int) / 1440)
    refine ⟨isValid_iff.mpr ⟨Date.isValid_iff.mpr ⟨hyear, hreal'⟩, ?_, ?_, hsecond, hnano⟩,
      ?_, rfl, rfl⟩
    · simp only
      omega
    · simp only
      omega
    · simp only [minuteNumber, hnumber]
      omega

/-- A clock that shows UTC is read as it stands. -/
theorem atOffset?_zero (h : t.isValid) : t.atOffset? 0 = some t := by
  obtain ⟨hdate, hhour, hminute, -, -⟩ := isValid_iff.mp h
  have hyear := (Date.isValid_iff.mp hdate).1
  have hday : (t.hour * 60 + t.minute : Int) / 1440 = 0 := by omega
  have hrest : ((t.hour * 60 + t.minute : Int) % 1440).toNat = t.hour * 60 + t.minute := by
    omega
  have hsame : t.date.addDays 0 = t.date := rfl
  have hhour' : (t.hour * 60 + t.minute) / 60 = t.hour := by omega
  have hminute' : (t.hour * 60 + t.minute) % 60 = t.minute := by omega
  simp only [atOffset?, Int.sub_zero, hday, hrest, hsame, hyear, hhour', hminute', if_true]

end Timestamp

end LedgerClient
