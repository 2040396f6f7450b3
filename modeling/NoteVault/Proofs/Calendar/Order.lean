import NoteVault.Proofs.Calendar.Day

/-!
# The order of days

Days are ordered by their numbers, and this is the order of the calendar: by the year
first, then by the month, then by the day of the month (`le_iff`).  Months counted
through the years take the place of the first two, also in the years before 0
(`le_iff_monthOrdinal`).  So whole months are told by their ends: a day comes no earlier
than the first of a month, or no later than its last one, exactly when its own month
does (`le_iff_of_first`, `le_iff_of_last`).

The day before a day is read off the calendar: within the month, else the last day of the
month before, else the last of December (`yesterday?`).  It has the number before
(`yesterday?_eq_some_iff`), and before the first day of a month comes the last one of the
month before (`yesterday?_of_next_month`).
-/

namespace NoteVault.Calendar.Day

variable {a b d e : Day}

/-! ## Year, month and day -/

theorem number_lt_of_year_lt (h : a.year < b.year) : a.number < b.number := by
  have ha := a.number_bounds
  have hb := b.number_bounds
  have hyears := yearStart_le (a := a.year + 1) (b := b.year) h
  omega

theorem number_lt_of_month_lt (hyear : a.year = b.year) (h : a.month < b.month) :
    a.number < b.number := by
  have hnext := daysBeforeMonth_succ a.year a.month_le.1
  have hmonths := daysBeforeMonth_le a.year (a := a.month + 1) (b := b.month) (by omega) h
  have hday := a.day_le
  unfold number
  rw [← hyear]
  omega

/-- **Days are ordered by the year, then by the month, then by the day.** -/
theorem le_iff : a ≤ b ↔ a.year < b.year ∨
    a.year = b.year ∧ (a.month < b.month ∨ a.month = b.month ∧ a.day ≤ b.day) := by
  show a.number ≤ b.number ↔ _
  rcases Int.lt_trichotomy a.year b.year with hyear | hyear | hyear
  · have := number_lt_of_year_lt hyear
    omega
  · rcases Nat.lt_trichotomy a.month b.month with hmonth | hmonth | hmonth
    · have := number_lt_of_month_lt hyear hmonth
      omega
    · have ha := a.day_le
      have hb := b.day_le
      unfold number
      rw [hyear, hmonth]
      omega
    · have := number_lt_of_month_lt hyear.symm hmonth
      omega
  · have := number_lt_of_year_lt hyear
    omega

/-! ## Months counted through the years -/

theorem monthOrdinal_eq_iff :
    a.monthOrdinal = b.monthOrdinal ↔ a.year = b.year ∧ a.month = b.month := by
  have ha := a.month_le
  have hb := b.month_le
  unfold monthOrdinal
  omega

/-- **Months counted through the years keep the order of days.** -/
theorem le_iff_monthOrdinal : a ≤ b ↔ a.monthOrdinal < b.monthOrdinal ∨
    a.monthOrdinal = b.monthOrdinal ∧ a.day ≤ b.day := by
  have ha := a.month_le
  have hb := b.month_le
  rw [le_iff]
  unfold monthOrdinal
  omega

/-- The first day of a month is the earliest one of it. -/
theorem le_iff_of_first (h : a.day = 1) : a ≤ d ↔ a.monthOrdinal ≤ d.monthOrdinal := by
  have hday := d.day_le
  rw [le_iff_monthOrdinal]
  omega

/-- The last day of a month is the latest one of it. -/
theorem le_iff_of_last (h : b.day = daysInMonth b.year b.month) :
    d ≤ b ↔ d.monthOrdinal ≤ b.monthOrdinal := by
  rw [le_iff_monthOrdinal]
  constructor
  · omega
  · intro hle
    rcases Int.lt_or_eq_of_le hle with hlt | heq
    · exact .inl hlt
    · obtain ⟨hyear, hmonth⟩ := monthOrdinal_eq_iff.1 heq
      have hday := d.day_le.2
      rw [hyear, hmonth, ← h] at hday
      exact .inr ⟨heq, hday⟩

/-- The last day of the month of a day. -/
def lastOfMonth (d : Day) : Day where
  year := d.year
  month := d.month
  day := daysInMonth d.year d.month
  year_le := d.year_le
  month_le := d.month_le
  day_le := ⟨Nat.le_trans d.day_le.1 d.day_le.2, Nat.le_refl _⟩

theorem le_lastOfMonth_iff : a ≤ d.lastOfMonth ↔ a.monthOrdinal ≤ d.monthOrdinal :=
  le_iff_of_last rfl

/-! ## One day back -/

theorem daysInMonth_pos (year : Int) (month : Nat) : 1 ≤ daysInMonth year month := by
  unfold daysInMonth
  split <;> (try split) <;> omega

theorem exists_of? {year : Int} {month day : Nat} (hyear : firstYear ≤ year ∧ year ≤ lastYear)
    (hmonth : 1 ≤ month ∧ month ≤ 12) (hday : 1 ≤ day ∧ day ≤ daysInMonth year month) :
    ∃ d, of? year month day = some d :=
  ⟨⟨year, month, day, hyear, hmonth, hday⟩, of?_eq_some_iff.2 ⟨rfl, rfl, rfl⟩⟩

theorem number_of_yesterday? (h : d.yesterday? = some e) : e.number = d.number - 1 := by
  have hday := d.day_le.1
  have hmonth := d.month_le.1
  unfold yesterday? at h
  split at h
  · obtain ⟨hy, hm, hd⟩ := of?_eq_some_iff.1 h
    unfold number
    rw [hy, hm, hd]
    omega
  · split at h
    · obtain ⟨hy, hm, hd⟩ := of?_eq_some_iff.1 h
      have hbefore : 1 ≤ d.month - 1 := by omega
      have hnext := daysBeforeMonth_succ d.year hbefore
      have hpos := daysInMonth_pos d.year (d.month - 1)
      rw [Nat.sub_add_cancel hmonth] at hnext
      unfold number
      rw [hy, hm, hd]
      omega
    · obtain ⟨hy, hm, hd⟩ := of?_eq_some_iff.1 h
      have hnext := yearStart_succ (d.year - 1)
      have hlast : daysInYear (d.year - 1) = daysBeforeMonth (d.year - 1) 12 + 31 := by
        rw [← daysBeforeMonth_thirteen, daysBeforeMonth_succ _ (by omega)]
        rfl
      have hfirst : d.month = 1 := by omega
      rw [Int.sub_add_cancel] at hnext
      unfold number
      rw [hy, hm, hd, hfirst, daysBeforeMonth]
      omega

/-- Only the first day of the calendar has none before it. -/
theorem exists_yesterday? (h : e.number < d.number) : ∃ before, d.yesterday? = some before := by
  have hday := d.day_le
  have hmonth := d.month_le
  unfold yesterday?
  split
  · exact exists_of? d.year_le hmonth (by omega)
  · split
    · exact exists_of? d.year_le (by omega) ⟨daysInMonth_pos _ _, Nat.le_refl _⟩
    · -- The earlier day lies in an earlier year, since this one is the first of its year.
      have hearlier : e.year < d.year := by
        have hnot : ¬ d ≤ e := Int.not_le.2 h
        have heday := e.day_le.1
        have hemonth := e.month_le.1
        rw [le_iff] at hnot
        omega
      have hlow := e.year_le.1
      have hhigh := d.year_le.2
      exact exists_of? (by omega) (by decide) ⟨by decide, Nat.le_refl 31⟩

/-- **The day before a day has the number before.** -/
theorem yesterday?_eq_some_iff : d.yesterday? = some e ↔ e.number = d.number - 1 := by
  refine ⟨number_of_yesterday?, fun h => ?_⟩
  obtain ⟨before, hbefore⟩ := exists_yesterday? (d := d) (e := e) (by omega)
  rw [hbefore, number_injective (h.trans (number_of_yesterday? hbefore).symm)]

/-- The last day of a month is the one before the first day of the next month. -/
theorem yesterday?_of_next_month {next : Day} (hday : next.day = 1)
    (hnext : next.monthOrdinal = d.monthOrdinal + 1) : next.yesterday? = some d.lastOfMonth := by
  have hd := d.month_le
  have hn := next.month_le
  unfold monthOrdinal at hnext
  unfold yesterday?
  rw [if_neg (by omega)]
  split
  · obtain ⟨hyear, hmonth⟩ : next.year = d.year ∧ next.month - 1 = d.month := by omega
    rw [hyear, hmonth]
    exact of?_eq_some_iff.2 ⟨rfl, rfl, rfl⟩
  · obtain ⟨hyear, hmonth⟩ : next.year - 1 = d.year ∧ d.month = 12 := by omega
    refine of?_eq_some_iff.2 ⟨hyear.symm, hmonth, ?_⟩
    show daysInMonth d.year d.month = 31
    rw [hmonth]
    rfl

end NoteVault.Calendar.Day
