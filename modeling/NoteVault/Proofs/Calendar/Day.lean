import NoteVault.Calendar.Moment

/-!
# Days and their numbers

A day is found from its number in two steps: the year that holds the number, by an
estimate and a correction (`yearOfNumber_eq_iff`), and then month by month within
that year (`monthAndDay_spec`).  Years follow one another without a gap, and so do
months (`yearStart_succ`, `daysBeforeMonth_succ`), so each number belongs to one day
at most, and reading a number gives this day (`ofNumber?_eq_some_iff`).  Only numbers
outside the calendar have none (`exists_ofNumber?_of_between`).

The moments of a day are those from its midnight on and before the next one
(`dayOfMillis?_eq_some_iff`), also before 1970, where moments are negative.
-/

namespace NoteVault.Calendar

namespace Day

/-! ## Years -/

/-- The number of days of a year. -/
def daysInYear (year : Int) : Nat := if isLeap year then 366 else 365

theorem isLeap_iff (year : Int) :
    isLeap year = true ↔ year % 4 = 0 ∧ (year % 100 ≠ 0 ∨ year % 400 = 0) := by
  simp [isLeap]

/-- A year begins where the one before it ends. -/
theorem yearStart_succ (year : Int) : yearStart (year + 1) = yearStart year + daysInYear year := by
  have hleap := isLeap_iff year
  unfold yearStart daysInYear
  split <;> simp_all only [true_iff, false_iff, Bool.false_eq_true] <;> omega

/-- Later years begin later. -/
theorem yearStart_le {a b : Int} (h : a ≤ b) : yearStart a ≤ yearStart b := by
  unfold yearStart
  omega

/-- **The year that is found is the one that holds the number.** -/
theorem yearOfNumber_bounds (n : Int) :
    yearStart (yearOfNumber n) ≤ n ∧ n < yearStart (yearOfNumber n + 1) := by
  -- The estimate is off by one year at most.
  have hlow : yearStart (n * 400 / 146097 + 1970 - 1) ≤ n := by
    unfold yearStart
    omega
  have hhigh : n < yearStart (n * 400 / 146097 + 1970 + 1 + 1) := by
    unfold yearStart
    omega
  unfold yearOfNumber
  dsimp only
  split
  · rename_i h
    exact ⟨hlow, by rwa [Int.sub_add_cancel]⟩
  · split
    · rename_i h
      exact ⟨h, hhigh⟩
    · rename_i h h'
      exact ⟨Int.not_lt.1 h, Int.not_le.1 h'⟩

theorem yearOfNumber_eq_iff {n year : Int} :
    yearOfNumber n = year ↔ yearStart year ≤ n ∧ n < yearStart (year + 1) := by
  have hfound := yearOfNumber_bounds n
  refine ⟨fun h => h ▸ hfound, fun ⟨hlow, hhigh⟩ => ?_⟩
  -- A year before or behind the one that is found ends or begins beyond the number.
  rcases Int.lt_trichotomy (yearOfNumber n) year with h | h | h
  · have := yearStart_le (a := yearOfNumber n + 1) (b := year) (by omega)
    omega
  · exact h
  · have := yearStart_le (a := year + 1) (b := yearOfNumber n) (by omega)
    omega

/-! ## Months -/

/-- A month begins where the one before it ends. -/
theorem daysBeforeMonth_succ (year : Int) {month : Nat} (h : 1 ≤ month) :
    daysBeforeMonth year (month + 1) = daysBeforeMonth year month + daysInMonth year month := by
  cases month with
  | zero => omega
  | succ month => rfl

/-- The twelve months make up the year. -/
theorem daysBeforeMonth_thirteen (year : Int) : daysBeforeMonth year 13 = daysInYear year := by
  simp only [daysBeforeMonth, daysInMonth, daysInYear]
  split <;> rfl

/-- Later months begin later. -/
theorem daysBeforeMonth_le (year : Int) {a b : Nat} (ha : 1 ≤ a) (h : a ≤ b) :
    daysBeforeMonth year a ≤ daysBeforeMonth year b := by
  induction h with
  | refl => exact Nat.le_refl _
  | @step b hb ih =>
    have hnext := daysBeforeMonth_succ year (Nat.le_trans ha hb)
    exact Nat.le_trans ih (Nat.le_trans (Nat.le_add_right _ _) (Nat.le_of_eq hnext.symm))

/-- **The walk through the months stops at the one that holds the day.** -/
theorem monthAndDay_spec (year : Int) {months m rest month day : Nat} (hm : 1 ≤ m)
    (hrest : daysBeforeMonth year m + rest < daysBeforeMonth year (m + months))
    (h : monthAndDay year months m rest = (month, day)) :
    (m ≤ month ∧ month < m + months) ∧ (1 ≤ day ∧ day ≤ daysInMonth year month) ∧
      daysBeforeMonth year month + (day - 1) = daysBeforeMonth year m + rest := by
  -- By the months still to walk; what is passed over goes from `rest` to the days before.
  induction months generalizing m rest with
  | zero =>
    rw [Nat.add_zero] at hrest
    omega
  | succ months ih =>
    have hnext := daysBeforeMonth_succ year hm
    rw [monthAndDay] at h
    split at h
    · rename_i hlt
      cases h
      omega
    · rename_i hge
      have hrest' : daysBeforeMonth year (m + 1) + (rest - daysInMonth year m) <
          daysBeforeMonth year (m + 1 + months) := by
        rw [show m + 1 + months = m + (months + 1) by omega]
        omega
      have hstep := ih (Nat.le_add_left 1 m) hrest' h
      omega

/-- Different days of a year have different places in it. -/
theorem monthDay_unique {year : Int} {a b : Nat} {i j : Nat} (ha : 1 ≤ a) (hb : 1 ≤ b)
    (hi : 1 ≤ i ∧ i ≤ daysInMonth year a) (hj : 1 ≤ j ∧ j ≤ daysInMonth year b)
    (h : daysBeforeMonth year a + (i - 1) = daysBeforeMonth year b + (j - 1)) :
    a = b ∧ i = j := by
  have hnexta := daysBeforeMonth_succ year ha
  have hnextb := daysBeforeMonth_succ year hb
  rcases Nat.lt_trichotomy a b with hab | rfl | hab
  · have := daysBeforeMonth_le year (a := a + 1) (by omega) hab
    omega
  · exact ⟨rfl, by omega⟩
  · have := daysBeforeMonth_le year (a := b + 1) (by omega) hab
    omega

/-! ## Numbers -/

/-- The place of a day in its year. -/
theorem place_lt (d : Day) :
    daysBeforeMonth d.year d.month + (d.day - 1) < daysInYear d.year := by
  have hday := d.day_le
  have hmonth := d.month_le
  have hnext := daysBeforeMonth_succ d.year hmonth.1
  have hyear := daysBeforeMonth_le d.year (a := d.month + 1) (b := 13) (by omega) (by omega)
  rw [daysBeforeMonth_thirteen] at hyear
  omega

/-- The number of a day lies in its year. -/
theorem number_bounds (d : Day) :
    yearStart d.year ≤ d.number ∧ d.number < yearStart (d.year + 1) := by
  have hplace := d.place_lt
  have hnext := yearStart_succ d.year
  unfold number
  omega

/-- **Different days have different numbers.** -/
theorem number_injective {a b : Day} (h : a.number = b.number) : a = b := by
  have hyear : a.year = b.year := by
    rw [← yearOfNumber_eq_iff.2 a.number_bounds, h, yearOfNumber_eq_iff.2 b.number_bounds]
  have hplace : daysBeforeMonth b.year a.month + (a.day - 1) =
      daysBeforeMonth b.year b.month + (b.day - 1) := by
    unfold number at h
    rw [hyear] at h
    omega
  obtain ⟨hmonth, hday⟩ := monthDay_unique a.month_le.1 b.month_le.1 (hyear ▸ a.day_le)
    b.day_le hplace
  cases a
  cases b
  simp_all

theorem of?_eq_some_iff {year : Int} {month day : Nat} {d : Day} :
    of? year month day = some d ↔ d.year = year ∧ d.month = month ∧ d.day = day := by
  constructor
  · intro h
    unfold of? at h
    split at h
    · split at h
      · split at h
        · cases h
          exact ⟨rfl, rfl, rfl⟩
        · cases h
      · cases h
    · cases h
  · rintro ⟨rfl, rfl, rfl⟩
    rw [of?, dif_pos d.year_le, dif_pos d.month_le, dif_pos d.day_le]

/-- **Each number in a year of the calendar has a day.** -/
theorem exists_ofNumber? {n : Int} (h : firstYear ≤ yearOfNumber n ∧ yearOfNumber n ≤ lastYear) :
    ∃ d, ofNumber? n = some d ∧ d.number = n := by
  obtain ⟨hlow, hhigh⟩ := yearOfNumber_bounds n
  have hnext := yearStart_succ (yearOfNumber n)
  have hrest : daysBeforeMonth (yearOfNumber n) 1 + (n - yearStart (yearOfNumber n)).toNat <
      daysBeforeMonth (yearOfNumber n) (1 + 12) := by
    rw [show 1 + 12 = 13 from rfl, daysBeforeMonth_thirteen, show
      daysBeforeMonth (yearOfNumber n) 1 = 0 from rfl]
    omega
  rcases hwalk : monthAndDay (yearOfNumber n) 12 1 (n - yearStart (yearOfNumber n)).toNat with
    ⟨month, day⟩
  obtain ⟨hmonth, hday, hplace⟩ := monthAndDay_spec (yearOfNumber n) (Nat.le_refl 1) hrest hwalk
  have hmonth' : 1 ≤ month ∧ month ≤ 12 := by omega
  refine ⟨⟨yearOfNumber n, month, day, h, hmonth', hday⟩, ?_, ?_⟩
  · unfold ofNumber?
    simp only [hwalk]
    exact of?_eq_some_iff.2 ⟨rfl, rfl, rfl⟩
  · rw [show daysBeforeMonth (yearOfNumber n) 1 = 0 from rfl] at hplace
    unfold number
    dsimp only
    omega

/-- **Reading the number of a day gives the day back**, and no other number gives
it. -/
theorem ofNumber?_eq_some_iff {n : Int} {d : Day} : ofNumber? n = some d ↔ d.number = n := by
  constructor
  · intro h
    have hyear : d.year = yearOfNumber n := (of?_eq_some_iff.1 h).1
    obtain ⟨d', hd', hn⟩ := exists_ofNumber? (hyear ▸ d.year_le)
    rw [h] at hd'
    rw [Option.some.inj hd', hn]
  · rintro rfl
    have hyear : yearOfNumber d.number = d.year := yearOfNumber_eq_iff.2 d.number_bounds
    obtain ⟨d', hd', hn⟩ := exists_ofNumber? (hyear.symm ▸ d.year_le)
    rw [hd', number_injective hn]

/-- There is no gap between two days of the calendar. -/
theorem exists_ofNumber?_of_between {a b : Day} {n : Int} (ha : a.number ≤ n)
    (hb : n ≤ b.number) : ∃ d, ofNumber? n = some d := by
  have hfirst := yearStart_le a.year_le.1
  have hlast := yearStart_le (Int.add_le_add_right b.year_le.2 1)
  have hboundsa := a.number_bounds
  have hboundsb := b.number_bounds
  obtain ⟨hlow, hhigh⟩ := yearOfNumber_bounds n
  have hyear : firstYear ≤ yearOfNumber n ∧ yearOfNumber n ≤ lastYear := by
    constructor
    · refine Int.not_lt.1 fun hlt => ?_
      have := yearStart_le (a := yearOfNumber n + 1) (b := firstYear) (by omega)
      omega
    · refine Int.not_lt.1 fun hlt => ?_
      have := yearStart_le (a := lastYear + 1) (b := yearOfNumber n) (by omega)
      omega
  obtain ⟨d, hd, -⟩ := exists_ofNumber? hyear
  exact ⟨d, hd⟩

/-! ## Moments -/

/-- The first moment of a day, in milliseconds. -/
def midnight (d : Day) : Int := d.number * millisPerDay

end Day

/-- **The moments of a day** are those from its midnight on and before the next
one. -/
theorem dayOfMillis?_eq_some_iff {ms : Int} {d : Day} :
    dayOfMillis? ms = some d ↔ d.midnight ≤ ms ∧ ms < d.midnight + millisPerDay := by
  rw [dayOfMillis?, Day.ofNumber?_eq_some_iff, Day.midnight, millisPerDay]
  omega

end NoteVault.Calendar
