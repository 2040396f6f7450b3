import Mathlib.Data.List.Nodup
import NoteVault.Calendar.Window
import NoteVault.Proofs.Calendar.Order

/-!
# Windows are intervals of the calendar

A window counts: days by their numbers, months by their ordinals.  Here the days before a
day are read off the calendar instead, one step at a time (`Day.yesterday?`), and the
months before a month likewise (`Day.monthBefore`).  The counts agree with these steps
(`Day.back?_eq_some_iff`, `Day.monthBack_ordinal`), so each window holds the days from a
first one up to a last one.
-/

namespace NoteVault.Calendar

namespace Day

variable {d e first : Day} {n : Nat}

/-! ## Any number of days back -/

/-- The day that so many steps back from a day lead to. -/
def back? (d : Day) : Nat → Option Day
  | 0 => some d
  | n + 1 => (d.back? n).bind yesterday?

theorem back?_eq_some_iff : d.back? n = some e ↔ e.number = d.number - n := by
  induction n generalizing e with
  | zero =>
    rw [back?, Option.some_inj]
    exact ⟨fun h => by simp [h], fun h => number_injective (by omega)⟩
  | succ n ih =>
    rw [back?, Option.bind_eq_some_iff]
    constructor
    · rintro ⟨later, hlater, he⟩
      have := ih.1 hlater
      have := yesterday?_eq_some_iff.1 he
      omega
    · intro h
      obtain ⟨later, hlater⟩ :=
        exists_ofNumber?_of_between (a := e) (b := d) (n := d.number - n) (by omega) (by omega)
      have hnumber := ofNumber?_eq_some_iff.1 hlater
      exact ⟨later, ih.2 hnumber, yesterday?_eq_some_iff.2 (by omega)⟩

/-- A day and the `n` days before it, the latest first. -/
def lastDays (d : Day) (n : Nat) : List Day :=
  (List.range (n + 1)).filterMap d.back?

theorem mem_lastDays_iff :
    e ∈ d.lastDays n ↔ d.number - n ≤ e.number ∧ e.number ≤ d.number := by
  simp only [lastDays, List.mem_filterMap, List.mem_range, back?_eq_some_iff]
  constructor
  · rintro ⟨k, hk, he⟩
    omega
  · rintro ⟨hlow, hhigh⟩
    exact ⟨(d.number - e.number).toNat, by omega, by omega⟩

theorem length_lastDays (h : d.back? n = some first) : (d.lastDays n).length = n + 1 := by
  have hfirst := back?_eq_some_iff.1 h
  have hall : ∀ k ∈ List.range (n + 1), (d.back? k).isSome = true := by
    intro k hk
    have hk := List.mem_range.1 hk
    obtain ⟨day, hday⟩ :=
      exists_ofNumber?_of_between (a := first) (b := d) (n := d.number - k) (by omega) (by omega)
    rw [back?_eq_some_iff.2 (ofNumber?_eq_some_iff.1 hday)]
    rfl
  rw [lastDays, List.filterMap_length_eq_length.2 hall, List.length_range]

theorem nodup_lastDays (d : Day) (n : Nat) : (d.lastDays n).Nodup := by
  refine List.Nodup.filterMap ?_ List.nodup_range
  intro i j day hi hj
  have := back?_eq_some_iff.1 hi
  have := back?_eq_some_iff.1 hj
  omega

/-! ## Any number of months back -/

/-- The month before a month, each with its year. -/
def monthBefore : Int × Nat → Int × Nat
  | (year, month) => if 1 < month then (year, month - 1) else (year - 1, 12)

/-- The month that so many steps back from the month of a day lead to. -/
def monthBack (d : Day) : Nat → Int × Nat
  | 0 => (d.year, d.month)
  | n + 1 => monthBefore (d.monthBack n)

/-- The first day of the month so many months back. -/
def firstBack? (d : Day) (n : Nat) : Option Day :=
  of? (d.monthBack n).1 (d.monthBack n).2 1

/-- Each step back lowers the ordinal by one, from January to December as well. -/
theorem monthBack_ordinal (d : Day) (n : Nat) :
    (1 ≤ (d.monthBack n).2 ∧ (d.monthBack n).2 ≤ 12) ∧
      (d.monthBack n).1 * 12 + ((d.monthBack n).2 - 1 : Nat) = d.monthOrdinal - n := by
  induction n with
  | zero => exact ⟨d.month_le, by simp [monthBack, monthOrdinal]⟩
  | succ n ih =>
    obtain ⟨hmonth, hordinal⟩ := ih
    rw [monthBack, monthBefore]
    split <;> constructor <;> omega

theorem monthOrdinal_of_firstBack? (h : d.firstBack? n = some first) :
    first.day = 1 ∧ first.monthOrdinal = d.monthOrdinal - n := by
  obtain ⟨hyear, hmonth, hday⟩ := of?_eq_some_iff.1 h
  refine ⟨hday, ?_⟩
  rw [← (d.monthBack_ordinal n).2, monthOrdinal, hyear, hmonth]

end Day

/-! ## Windows -/

namespace Window

variable {day today : Day} {n : Nat}

theorem contains_daysBack_iff : contains (.daysBack n) day today = true ↔
    today.number - n ≤ day.number ∧ day.number ≤ today.number := by
  simp [contains]

theorem contains_monthsBack_iff : contains (.monthsBack n) day today = true ↔
    today.monthOrdinal - n ≤ day.monthOrdinal ∧ day.monthOrdinal ≤ today.monthOrdinal := by
  simp [contains]

/-- **A window back over months holds the days from the first of the month reached to the
last of this month.** -/
theorem contains_monthsBack_iff_between {first : Day} (h : today.firstBack? n = some first) :
    contains (.monthsBack n) day today = true ↔ first ≤ day ∧ day ≤ today.lastOfMonth := by
  obtain ⟨hday, hordinal⟩ := Day.monthOrdinal_of_firstBack? h
  rw [contains_monthsBack_iff, Day.le_iff_of_first hday, Day.le_lastOfMonth_iff, hordinal]

/-- As many months back as the year has had, the window holds what the year has had. -/
theorem contains_monthsBack_month_iff :
    contains (.monthsBack (today.month - 1)) day today = true ↔
      contains .thisYear day today = true ∧ day ≤ today.lastOfMonth := by
  have hday := day.month_le
  have htoday := today.month_le
  rw [contains_monthsBack_iff, Day.le_lastOfMonth_iff, contains, beq_iff_eq]
  unfold Day.monthOrdinal
  omega

/-- **Relative windows are intervals of the calendar.**  Where the window's first day
exists, the window back over `n` days holds `n + 1` days, the last ones up to today, and
the one back over `n` months holds the days from the first of the month `n` steps back to
the last of this month.  A longer window holds a shorter one. -/
theorem windows_are_intervals (n : Nat) (today : Day) :
    (∀ first, today.back? n = some first →
      (today.lastDays n).length = n + 1 ∧ (today.lastDays n).Nodup ∧
        ∀ day, (contains (.daysBack n) day today = true ↔ day ∈ today.lastDays n) ∧
          (contains (.daysBack n) day today = true ↔ first ≤ day ∧ day ≤ today)) ∧
    (∀ first, today.firstBack? n = some first → ∀ day,
      contains (.monthsBack n) day today = true ↔ first ≤ day ∧ day ≤ today.lastOfMonth) ∧
    (∀ day, contains .today day today = true → contains (.daysBack n) day today = true) ∧
    (∀ day, contains (.daysBack n) day today = true →
      contains (.daysBack (n + 1)) day today = true) ∧
    (∀ day, contains .thisMonth day today = contains (.monthsBack 0) day today) ∧
    (∀ day, contains (.monthsBack n) day today = true →
      contains (.monthsBack (n + 1)) day today = true) ∧
    ∀ day, contains (.monthsBack (today.month - 1)) day today = true ↔
      contains .thisYear day today = true ∧ day ≤ today.lastOfMonth := by
  refine ⟨?_, fun first h day => contains_monthsBack_iff_between h, ?_, ?_, ?_, ?_,
    fun day => contains_monthsBack_month_iff⟩
  · intro first h
    have hnumber := Day.back?_eq_some_iff.1 h
    refine ⟨Day.length_lastDays h, Day.nodup_lastDays today n, fun day => ⟨?_, ?_⟩⟩
    · rw [contains_daysBack_iff, Day.mem_lastDays_iff]
    · rw [contains_daysBack_iff, ← hnumber]
      rfl
  · intro day h
    have hday : day = today := beq_iff_eq.1 h
    rw [contains_daysBack_iff, hday]
    omega
  · intro day h
    rw [contains_daysBack_iff] at h ⊢
    omega
  · intro day
    rw [Bool.eq_iff_iff, contains_monthsBack_iff, contains, beq_iff_eq]
    omega
  · intro day h
    rw [contains_monthsBack_iff] at h ⊢
    omega

/-- One day back from 1 March 2024 lies 29 February; three months back from a February
before year 0 lies the November of the year before. -/
theorem windows_are_intervals_leap_day :
    let march : Day := ⟨2024, 3, 1, by decide, by decide, by decide⟩
    let leapDay : Day := ⟨2024, 2, 29, by decide, by decide, by decide⟩
    let february : Day := ⟨-1, 2, 15, by decide, by decide, by decide⟩
    let november : Day := ⟨-2, 11, 1, by decide, by decide, by decide⟩
    (march.back? 1 = some leapDay ∧ contains (.daysBack 1) leapDay march = true ∧
        (march.lastDays 1).length = 2) ∧
      february.firstBack? 3 = some november ∧
        contains (.monthsBack 3) november february = true := by
  intro march leapDay february november
  have hback : march.back? 1 = some leapDay := by decide
  have hfirst : february.firstBack? 3 = some november := by decide
  obtain ⟨hlength, -, hdays⟩ := (windows_are_intervals 1 march).1 leapDay hback
  have hmonths := (windows_are_intervals 3 february).2.1 november hfirst november
  exact ⟨⟨hback, (hdays leapDay).2.2 (by decide), hlength⟩, hfirst, hmonths.2 (by decide)⟩

end Window

end NoteVault.Calendar
