import NoteVault.Proofs.Calendar.Order
import NoteVault.Proofs.Calendar.Sides
import NoteVault.Proofs.Text.Digits
import NoteVault.Proofs.Text.Pieces

/-!
# A unit means the days that begin with it

A unit writes a year, a month or a day by the beginning of the text of a day
(`UnitShape`).  Each of the three is read by a branch of its own, with ends of its own;
what they have in common is that a range is found exactly when some day has the numbers
that were read, and that it holds the days that have them (`Covers`).  Since a number
has one text in so many digits, these are the days whose text begins with the unit
(`covers_ofUnit?`).  Nothing else is a unit (`unitShape_of_ofUnit?`).
-/

namespace NoteVault.Calendar

open Text

/-! ## The text of a day -/

namespace Day

/-- The year of the day is written in four digits, without a sign. -/
def FourDigitYear (d : Day) : Prop := 0 ≤ d.year ∧ d.year ≤ 9999

instance (d : Day) : Decidable d.FourDigitYear :=
  inferInstanceAs (Decidable (0 ≤ d.year ∧ d.year ≤ 9999))

variable {d : Day}

theorem toList_text (h : d.FourDigitYear) : d.text.toList =
    padded 4 d.year.natAbs ++ '-' :: (padded 2 d.month ++ '-' :: padded 2 d.day) := by
  have hnonneg : ¬ d.year < 0 := Int.not_lt.2 h.1
  rw [text, String.toList_ofList, yearText, if_neg hnonneg, if_pos h.2, List.append_assoc,
    List.cons_append]

theorem daysInMonth_le (year : Int) (month : Nat) : daysInMonth year month ≤ 31 := by
  unfold daysInMonth
  split
  · split <;> decide
  all_goals decide

theorem digits_year (h : d.FourDigitYear) : Digits 4 (padded 4 d.year.natAbs) := by
  obtain ⟨hlow, hhigh⟩ := h
  exact digits_padded (by decide) (by omega)

theorem digits_month (d : Day) : Digits 2 (padded 2 d.month) := by
  have hmonth := d.month_le
  exact digits_padded (by decide) (by omega)

theorem digits_day (d : Day) : Digits 2 (padded 2 d.day) := by
  have hday := d.day_le
  have hlast := daysInMonth_le d.year d.month
  exact digits_padded (by decide) (by omega)

variable {y m i : List Char}

theorem append_prefix_append_iff {a b s t : List Char} (h : a.length = b.length) :
    a ++ s <+: b ++ t ↔ a = b ∧ s <+: t := by
  constructor
  · rintro ⟨rest, hrest⟩
    rw [List.append_assoc] at hrest
    obtain ⟨hab, hst⟩ := List.append_inj hrest h
    exact ⟨hab, rest, hst⟩
  · rintro ⟨rfl, hst⟩
    exact (List.prefix_append_right_inj a).2 hst

/-- A text begins with four digits exactly if they write its year. -/
theorem prefix_text_iff_year {s : List Char} (hy : Digits 4 y) :
    d.FourDigitYear ∧ y ++ s <+: d.text.toList ↔
      d.year = digitsValue 0 y ∧ s <+: '-' :: (padded 2 d.month ++ '-' :: padded 2 d.day) := by
  have hstarts : ∀ h : d.FourDigitYear, y ++ s <+: d.text.toList ↔
      digitsValue 0 y = d.year.natAbs ∧
        s <+: '-' :: (padded 2 d.month ++ '-' :: padded 2 d.day) := by
    intro h
    have hlength := hy.length_eq.trans (digits_year h).length_eq.symm
    obtain ⟨hlow, hhigh⟩ := h
    rw [toList_text ⟨hlow, hhigh⟩, append_prefix_append_iff hlength,
      eq_padded_iff (by decide) hy (by omega)]
  have hvalue := hy.value_lt
  constructor
  · rintro ⟨h, hbegins⟩
    obtain ⟨hyear, hrest⟩ := (hstarts h).1 hbegins
    have hnonneg := h.1
    exact ⟨by omega, hrest⟩
  · rintro ⟨hyear, hrest⟩
    have h : d.FourDigitYear := by
      constructor <;> omega
    exact ⟨h, (hstarts h).2 ⟨by omega, hrest⟩⟩

theorem prefix_text_iff_month {s : List Char} (hm : Digits 2 m) :
    '-' :: (m ++ s) <+: '-' :: (padded 2 d.month ++ '-' :: padded 2 d.day) ↔
      d.month = digitsValue 0 m ∧ s <+: '-' :: padded 2 d.day := by
  have hlength := hm.length_eq.trans d.digits_month.length_eq.symm
  have hmonth := d.month_le
  rw [List.prefix_cons_inj, append_prefix_append_iff hlength,
    eq_padded_iff (by decide) hm (by omega)]
  exact and_congr_left' eq_comm

theorem prefix_text_iff_day (hi : Digits 2 i) :
    '-' :: i <+: '-' :: padded 2 d.day ↔ d.day = digitsValue 0 i := by
  have hlength := hi.length_eq.trans d.digits_day.length_eq.symm
  have hday := d.day_le
  have hlast := daysInMonth_le d.year d.month
  rw [List.prefix_cons_inj]
  constructor
  · intro hstarts
    exact ((eq_padded_iff (by decide) hi (by omega)).1 (hstarts.eq_of_length hlength)).symm
  · intro hvalue
    obtain rfl := (eq_padded_iff (by decide) hi (by omega)).2 hvalue.symm
    exact List.prefix_refl _

end Day

namespace DayRange

/-! ## Ranges that are found by the numbers of their days -/

theorem contains_iff {days : DayRange} {d : Day} :
    days.contains d = true ↔ days.start ≤ d ∧ d ≤ days.finish := by
  rw [contains, Bool.and_eq_true, decide_eq_true_iff, decide_eq_true_iff]

/-- A range of whole months holds the days of these months. -/
theorem contains_iff_of_months {days : DayRange} {d : Day} (hstart : days.start.day = 1)
    (hfinish : days.finish.day = daysInMonth days.finish.year days.finish.month) :
    days.contains d = true ↔ days.start.monthOrdinal ≤ d.monthOrdinal ∧
      d.monthOrdinal ≤ days.finish.monthOrdinal := by
  rw [contains_iff, Day.le_iff_of_first hstart, Day.le_iff_of_last hfinish]

/-- A range is found when both of its ends are. -/
theorem between_eq_some_iff {first last : Option Day} {days : DayRange} :
    (do return ⟨← first, ← last⟩ : Option DayRange) = some days ↔
      first = some days.start ∧ last = some days.finish := by
  cases first with
  | none => simp
  | some start =>
    cases last with
    | none => simp
    | some finish =>
      cases days
      simp

/-- What is found for a property of days: a range exactly when some day has the property,
and its days are those that have it. -/
structure Covers (found : Option DayRange) (p : Day → Prop) : Prop where
  isSome_iff : found.isSome = true ↔ ∃ d, p d
  contains_iff : ∀ days, found = some days → ∀ d, days.contains d = true ↔ p d

theorem Covers.congr {found : Option DayRange} {p q : Day → Prop} (h : Covers found p)
    (hpq : ∀ d, p d ↔ q d) : Covers found q := by
  obtain rfl : p = q := funext fun d => propext (hpq d)
  exact h

theorem covers_ofYear? (year : Nat) : Covers (ofYear? year) fun d => d.year = year where
  isSome_iff := by
    constructor
    · intro h
      obtain ⟨days, hdays⟩ := Option.isSome_iff_exists.1 h
      obtain ⟨hstart, -⟩ := between_eq_some_iff.1 hdays
      exact ⟨days.start, (Day.of?_eq_some_iff.1 hstart).1⟩
    · rintro ⟨d, hd⟩
      have hfirst : Day.of? year 1 1 = some ⟨d.year, 1, 1, d.year_le, by decide,
          (by decide : 1 ≤ 1 ∧ 1 ≤ 31)⟩ :=
        Day.of?_eq_some_iff.2 ⟨hd, rfl, rfl⟩
      have hlast : Day.of? year 12 31 = some ⟨d.year, 12, 31, d.year_le, by decide,
          (by decide : 1 ≤ 31 ∧ 31 ≤ 31)⟩ :=
        Day.of?_eq_some_iff.2 ⟨hd, rfl, rfl⟩
      rw [ofYear?, hfirst, hlast]
      rfl
  contains_iff := by
    intro days hdays d
    obtain ⟨hstart, hfinish⟩ := between_eq_some_iff.1 hdays
    obtain ⟨hsy, hsm, hsd⟩ := Day.of?_eq_some_iff.1 hstart
    obtain ⟨hfy, hfm, hfd⟩ := Day.of?_eq_some_iff.1 hfinish
    have hend : days.finish.day = daysInMonth days.finish.year days.finish.month := by
      rw [hfd, hfm]
      rfl
    have hmonth := d.month_le
    rw [contains_iff_of_months hsd hend]
    unfold Day.monthOrdinal
    rw [hsy, hsm, hfy, hfm]
    omega

/-- Behind a month of four-digit years there is a next one, that of January included. -/
theorem exists_nextMonth? {year month : Nat} (hyear : year ≤ 9999) {first : Day}
    (hfirst : Day.of? year month 1 = some first) :
    ∃ next, nextMonth? year month = some next ∧ next.day = 1 ∧
      next.monthOrdinal = first.monthOrdinal + 1 := by
  obtain ⟨hy, hm, -⟩ := Day.of?_eq_some_iff.1 hfirst
  have hmonth := first.month_le
  have hlow : firstYear ≤ year := Int.le_trans (by decide) (Int.natCast_nonneg year)
  have hhigh : (year : Int) + 1 ≤ lastYear := by unfold lastYear; omega
  unfold nextMonth? Day.monthOrdinal
  split
  · obtain ⟨next, hnext⟩ := Day.exists_of? (by omega : firstYear ≤ (year : Int) + 1 ∧ _)
      (by decide : 1 ≤ 1 ∧ 1 ≤ 12) ⟨Nat.le_refl 1, Day.daysInMonth_pos _ _⟩
    obtain ⟨hny, hnm, hnd⟩ := Day.of?_eq_some_iff.1 hnext
    exact ⟨next, hnext, hnd, by omega⟩
  · obtain ⟨next, hnext⟩ := Day.exists_of? (by omega : firstYear ≤ (year : Int) ∧ _)
      (by omega : 1 ≤ month + 1 ∧ month + 1 ≤ 12) ⟨Nat.le_refl 1, Day.daysInMonth_pos _ _⟩
    obtain ⟨hny, hnm, hnd⟩ := Day.of?_eq_some_iff.1 hnext
    exact ⟨next, hnext, hnd, by omega⟩

/-- **The day before the next month is the last day of a month**, in December too. -/
theorem ofMonth?_eq {year : Nat} (hyear : year ≤ 9999) (month : Nat) :
    ofMonth? year month =
      (Day.of? year month 1).map fun first => ⟨first, first.lastOfMonth⟩ := by
  cases hfirst : Day.of? year month 1 with
  | none =>
    rw [ofMonth?, hfirst]
    rfl
  | some first =>
    obtain ⟨next, hnext, hday, hordinal⟩ := exists_nextMonth? hyear hfirst
    rw [ofMonth?, hfirst, hnext]
    simp [Day.yesterday?_of_next_month hday hordinal]

theorem covers_ofMonth? {year : Nat} (hyear : year ≤ 9999) (month : Nat) :
    Covers (ofMonth? year month) fun d => d.year = year ∧ d.month = month where
  isSome_iff := by
    rw [ofMonth?_eq hyear, Option.isSome_map]
    constructor
    · intro h
      obtain ⟨first, hfirst⟩ := Option.isSome_iff_exists.1 h
      obtain ⟨hy, hm, -⟩ := Day.of?_eq_some_iff.1 hfirst
      exact ⟨first, hy, hm⟩
    · rintro ⟨d, hy, hm⟩
      obtain ⟨first, hfirst⟩ := Day.exists_of? d.year_le d.month_le
        ⟨Nat.le_refl 1, Day.daysInMonth_pos d.year d.month⟩
      rw [← hy, ← hm, hfirst]
      rfl
  contains_iff := by
    intro days hdays d
    rw [ofMonth?_eq hyear] at hdays
    obtain ⟨first, hfirst, rfl⟩ := Option.map_eq_some_iff.1 hdays
    obtain ⟨hy, hm, hd⟩ := Day.of?_eq_some_iff.1 hfirst
    rw [contains_iff, Day.le_iff_of_first hd, Day.le_lastOfMonth_iff, ← hy, ← hm,
      ← Day.monthOrdinal_eq_iff]
    exact ⟨fun ⟨hlow, hhigh⟩ => Int.le_antisymm hhigh hlow,
      fun h => ⟨Int.le_of_eq h.symm, Int.le_of_eq h⟩⟩

theorem covers_ofDay? (year month day : Nat) :
    Covers (ofDay? year month day) fun d => d.year = year ∧ d.month = month ∧ d.day = day where
  isSome_iff := by
    constructor
    · intro h
      obtain ⟨days, hdays⟩ := Option.isSome_iff_exists.1 h
      obtain ⟨d, hd, -⟩ := Option.bind_eq_some_iff.1 hdays
      exact ⟨d, Day.of?_eq_some_iff.1 hd⟩
    · rintro ⟨d, hd⟩
      rw [ofDay?, Day.of?_eq_some_iff.2 hd]
      rfl
  contains_iff := by
    intro days hdays d
    obtain ⟨e, he, hdays⟩ := Option.bind_eq_some_iff.1 hdays
    obtain rfl := Option.some.inj hdays
    rw [contains_iff, ← Day.of?_eq_some_iff, he, Option.some_inj]
    constructor
    · rintro ⟨hle, hge⟩
      exact Day.number_injective (Int.le_antisymm hle hge)
    · rintro rfl
      exact ⟨Int.le_refl _, Int.le_refl _⟩

/-! ## Units -/

/-- What a unit looks like: a year of four digits, a month or a day of two digits more
each. -/
inductive UnitShape : List Char → Prop
  | year {y : List Char} (hy : Digits 4 y) : UnitShape y
  | month {y m : List Char} (hy : Digits 4 y) (hm : Digits 2 m) : UnitShape (y ++ '-' :: m)
  | day {y m i : List Char} (hy : Digits 4 y) (hm : Digits 2 m) (hi : Digits 2 i) :
      UnitShape (y ++ '-' :: (m ++ '-' :: i))

theorem UnitShape.length_ge {unit : List Char} (h : UnitShape unit) : 4 ≤ unit.length := by
  cases h with
  | year hy => exact Nat.le_of_eq hy.length_eq.symm
  | month hy hm => simp [hy.length_eq]
  | day hy hm hi => simp [hy.length_eq]

/-- The words for today are no units of the calendar. -/
theorem UnitShape.ne_today {unit : List Char} (h : UnitShape unit) :
    ¬ (unit = ['d'] ∨ unit = ['@', 'd']) := by
  have hlength := h.length_ge
  rintro (rfl | rfl) <;> exact absurd hlength (by decide)

theorem hyphen_not_mem {width : Nat} {cs : List Char} (h : Digits width cs) : '-' ∉ cs := by
  intro hmem
  exact absurd (h.isDigit _ hmem) (by decide)

section Found

variable {y m i : List Char} (today : Day)

theorem ofUnit?_year (hy : Digits 4 y) : ofUnit? y today = ofYear? (digitsValue 0 y) := by
  rw [ofUnit?, if_neg (UnitShape.year hy).ne_today, pieces_of_not_mem (hyphen_not_mem hy)]
  simp only [hy.length_eq, if_true, natural?_of_digits hy (by decide)]
  rfl

theorem ofUnit?_month (hy : Digits 4 y) (hm : Digits 2 m) :
    ofUnit? (y ++ '-' :: m) today = ofMonth? (digitsValue 0 y) (digitsValue 0 m) := by
  rw [ofUnit?, if_neg (UnitShape.month hy hm).ne_today, pieces_append_cons,
    pieces_of_not_mem (hyphen_not_mem hy), pieces_of_not_mem (hyphen_not_mem hm)]
  simp only [List.singleton_append, hy.length_eq, hm.length_eq, and_self, if_true,
    natural?_of_digits hy (by decide), natural?_of_digits hm (by decide)]
  rfl

theorem ofUnit?_day (hy : Digits 4 y) (hm : Digits 2 m) (hi : Digits 2 i) :
    ofUnit? (y ++ '-' :: (m ++ '-' :: i)) today =
      ofDay? (digitsValue 0 y) (digitsValue 0 m) (digitsValue 0 i) := by
  rw [ofUnit?, if_neg (UnitShape.day hy hm hi).ne_today, pieces_append_cons, pieces_append_cons,
    pieces_of_not_mem (hyphen_not_mem hy), pieces_of_not_mem (hyphen_not_mem hm),
    pieces_of_not_mem (hyphen_not_mem hi)]
  simp only [List.singleton_append, hy.length_eq, hm.length_eq, hi.length_eq, and_self, if_true,
    natural?_of_digits hy (by decide), natural?_of_digits hm (by decide),
    natural?_of_digits hi (by decide)]
  rfl

/-- **A unit holds the days whose text begins with it**, and is found when there is
one. -/
theorem covers_ofUnit? {unit : List Char} (h : UnitShape unit) :
    Covers (ofUnit? unit today) fun d => d.FourDigitYear ∧ unit <+: d.text.toList := by
  cases h with
  | @year y hy =>
    rw [ofUnit?_year today hy]
    refine (covers_ofYear? _).congr fun d => ?_
    have hbegins := Day.prefix_text_iff_year (d := d) (s := []) hy
    rw [List.append_nil] at hbegins
    rw [hbegins, and_iff_left List.nil_prefix]
  | @month y m hy hm =>
    rw [ofUnit?_month today hy hm]
    have hyear := hy.value_lt
    refine (covers_ofMonth? (by omega) _).congr fun d => ?_
    have hbegins := Day.prefix_text_iff_month (d := d) (s := []) hm
    rw [List.append_nil] at hbegins
    rw [Day.prefix_text_iff_year hy, hbegins, and_iff_left List.nil_prefix]
  | @day y m i hy hm hi =>
    rw [ofUnit?_day today hy hm hi]
    refine (covers_ofDay? _ _ _).congr fun d => ?_
    rw [Day.prefix_text_iff_year hy, Day.prefix_text_iff_month hm, Day.prefix_text_iff_day hi]

/-- **Nothing else is a unit of the calendar.** -/
theorem unitShape_of_ofUnit? {unit : List Char} (hne : ¬ (unit = ['d'] ∨ unit = ['@', 'd']))
    {days : DayRange} (h : ofUnit? unit today = some days) : UnitShape unit := by
  have hjoined := intercalate_pieces '-' unit
  have hdigits : ∀ {width n : Nat} {cs : List Char}, cs.length = width → natural? cs = some n →
      Digits width cs := by
    rintro width n cs rfl hn
    exact (digits_of_natural? hn).1
  rw [ofUnit?, if_neg hne] at h
  -- By the number of pieces between hyphens.
  split at h
  · rename_i y hpieces
    obtain rfl : y = unit := by simpa [hpieces] using hjoined
    split at h
    · rename_i hy
      obtain ⟨year, hyear, -⟩ := Option.bind_eq_some_iff.1 h
      exact .year (hdigits hy hyear)
    · cases h
  · rename_i y m hpieces
    obtain rfl : y ++ '-' :: m = unit := by simpa [hpieces] using hjoined
    split at h
    · rename_i hlengths
      obtain ⟨hy, hm⟩ := hlengths
      obtain ⟨year, hyear, h⟩ := Option.bind_eq_some_iff.1 h
      obtain ⟨month, hmonth, -⟩ := Option.bind_eq_some_iff.1 h
      exact .month (hdigits hy hyear) (hdigits hm hmonth)
    · cases h
  · rename_i y m i hpieces
    obtain rfl : y ++ '-' :: (m ++ '-' :: i) = unit := by simpa [hpieces] using hjoined
    split at h
    · rename_i hlengths
      obtain ⟨hy, hm, hi⟩ := hlengths
      obtain ⟨year, hyear, h⟩ := Option.bind_eq_some_iff.1 h
      obtain ⟨month, hmonth, h⟩ := Option.bind_eq_some_iff.1 h
      obtain ⟨day, hday, -⟩ := Option.bind_eq_some_iff.1 h
      exact .day (hdigits hy hyear) (hdigits hm hmonth) (hdigits hi hday)
    · cases h
  · cases h

end Found

/-! ## A unit as the whole text -/

/-- A text without dots is read as a unit. -/
theorem parse?_of_no_dots {text : String} (hdots : ¬ dots <:+: text.toList) (today : Day) :
    parse? text today = ofUnit? (trim text.toList) today := by
  have htrim : ¬ dots <:+: trim text.toList := fun h => hdots (h.trans (trim_infix_self _))
  rw [parse?, sides_of_no_dots htrim]

/-- **A unit means the days that begin with it.**  A trimmed text without two dots in a
row that is not a word for today writes a range exactly when it is a year of four digits,
a month or a day, and the text of some day between the years 0000 and 9999 begins with
it.  The days of this range are then all days whose text begins with it. -/
theorem unit_means_its_prefix {unit : String} (htrim : Trimmed unit.toList)
    (hdots : ¬ ['.', '.'] <:+: unit.toList) (htoday : unit ≠ "d" ∧ unit ≠ "@d") (today : Day) :
    ((parse? unit today).isSome = true ↔
        UnitShape unit.toList ∧ ∃ d : Day, d.FourDigitYear ∧ unit.toList <+: d.text.toList) ∧
      ∀ days, parse? unit today = some days → ∀ d : Day,
        days.contains d = true ↔ d.FourDigitYear ∧ unit.toList <+: d.text.toList := by
  have hne : ¬ (unit.toList = ['d'] ∨ unit.toList = ['@', 'd']) := by
    rintro (h | h)
    · exact htoday.1 (String.toList_inj.1 h)
    · exact htoday.2 (String.toList_inj.1 h)
  rw [parse?_of_no_dots hdots, trim_eq_self htrim]
  refine ⟨⟨fun h => ?_, fun ⟨hshape, hday⟩ => (covers_ofUnit? today hshape).isSome_iff.2 hday⟩, ?_⟩
  · obtain ⟨days, hdays⟩ := Option.isSome_iff_exists.1 h
    have hshape := unitShape_of_ofUnit? today hne hdays
    exact ⟨hshape, (covers_ofUnit? today hshape).isSome_iff.1 h⟩
  · intro days hdays
    exact (covers_ofUnit? today (unitShape_of_ofUnit? today hne hdays)).contains_iff days hdays

/-- February 2024 goes on to its 29th day, and no further. -/
theorem unit_means_its_prefix_leap_february :
    let leapDay : Day := ⟨2024, 2, 29, by decide, by decide, by decide⟩
    let dayAfter : Day := ⟨2024, 3, 1, by decide, by decide, by decide⟩
    (Trimmed "2024-02".toList ∧ ¬ ['.', '.'] <:+: "2024-02".toList ∧
        "2024-02" ≠ "d" ∧ "2024-02" ≠ "@d") ∧
      ∃ days, parse? "2024-02" epoch = some days ∧ days.contains leapDay = true ∧
        days.contains dayAfter = false := by
  intro leapDay dayAfter
  have htrim : Trimmed "2024-02".toList := by
    have hself : trim "2024-02".toList = "2024-02".toList := by decide
    exact hself ▸ trimmed_trim _
  have hdots : ¬ ['.', '.'] <:+: "2024-02".toList := not_dots_infix_of_not_mem (by decide)
  have htoday : "2024-02" ≠ "d" ∧ "2024-02" ≠ "@d" := by decide
  obtain ⟨hfound, hdays⟩ := unit_means_its_prefix htrim hdots htoday epoch
  have hshape : UnitShape "2024-02".toList :=
    .month (y := ['2', '0', '2', '4']) (m := ['0', '2']) ⟨rfl, List.all_eq_true.1 (by decide)⟩
      ⟨rfl, List.all_eq_true.1 (by decide)⟩
  have hleap : leapDay.FourDigitYear ∧ "2024-02".toList <+: leapDay.text.toList := by
    decide +kernel
  obtain ⟨days, hsome⟩ := Option.isSome_iff_exists.1 (hfound.2 ⟨hshape, leapDay, hleap⟩)
  refine ⟨⟨htrim, hdots, htoday⟩, days, hsome, (hdays days hsome leapDay).2 hleap, ?_⟩
  rw [← Bool.not_eq_true, hdays days hsome dayAfter]
  decide +kernel

end DayRange

end NoteVault.Calendar
