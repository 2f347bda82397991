import EntityQuery.Calendar.Civil
import Mathlib.Algebra.GroupWithZero.Nat

/-!
# Day counts and dates

A day count and its date determine each other: `Date.ofDays` gives a date that exists and that has
the day count it was made from, and a date that exists is the date of its day count. The dates that
exist are those of the proleptic Gregorian calendar (`isValid_iff`).

Proof. The guess of `yearOf` is off by at most one year, so the year it settles on is the one whose
first day is at or before the day in question while the next year's is after it (`yearOf_spec`), and
there is only one such year (`yearOf_eq`). The months of a year add up to its length, so walking
through them ends in one of them (`locateMonth_spec`), at the day that is left; which one it is, is
known from the days of the months before it (`locateMonth_take`).
-/

namespace EntityQuery.Calendar

/-! ## Years -/

/-- The length of a year. -/
def yearLength (year : Int) : Nat :=
  if isLeap year then 366 else 365

theorem isLeap_iff (year : Int) :
    isLeap year = true ↔ year % 4 = 0 ∧ (year % 100 ≠ 0 ∨ year % 400 = 0) := by
  simp [isLeap]

theorem daysBeforeYear_succ (year : Int) :
    daysBeforeYear (year + 1) = daysBeforeYear year + yearLength year := by
  unfold yearLength daysBeforeYear
  dsimp only
  split <;> rename_i hleap <;> rw [isLeap_iff] at hleap <;> omega

/-- The year of a day is the one that has begun by then while the next one has not. -/
theorem yearOf_spec (n : Int) :
    daysBeforeYear (yearOf n) ≤ n ∧ n < daysBeforeYear (yearOf n + 1) := by
  unfold yearOf daysBeforeYear
  dsimp only
  split
  · omega
  · split <;> omega

/-- Later years begin later. -/
theorem daysBeforeYear_lt_iff {year year' : Int} :
    daysBeforeYear year < daysBeforeYear year' ↔ year < year' := by
  unfold daysBeforeYear
  dsimp only
  omega

theorem daysBeforeYear_mono {year year' : Int} (h : year ≤ year') :
    daysBeforeYear year ≤ daysBeforeYear year' := by
  have hlt : ¬ daysBeforeYear year' < daysBeforeYear year := by
    rw [daysBeforeYear_lt_iff]
    omega
  omega

/-- No other year has begun while the next one has not. -/
theorem yearOf_eq {n year : Int} (hlow : daysBeforeYear year ≤ n)
    (hhigh : n < daysBeforeYear (year + 1)) : yearOf n = year := by
  obtain ⟨hstart, hend⟩ := yearOf_spec n
  have hle := daysBeforeYear_lt_iff.mp (Int.lt_of_le_of_lt hstart hhigh)
  have hge := daysBeforeYear_lt_iff.mp (Int.lt_of_le_of_lt hlow hend)
  omega

theorem sum_monthLengths (year : Int) : (monthLengths year).sum = yearLength year := by
  unfold monthLengths yearLength
  split <;> rfl

theorem length_monthLengths (year : Int) : (monthLengths year).length = 12 := rfl

theorem monthLengths_le {year : Int} {n : Nat} (h : n ∈ monthLengths year) : n ≤ 31 := by
  unfold monthLengths at h
  split at h <;> revert n <;> decide

theorem monthLength_eq (year : Int) {month : Nat} (hhigh : month < 13) (hlow : 1 ≤ month) :
    monthLength year month =
      if month = 2 then if isLeap year = true then 29 else 28
      else if month = 4 ∨ month = 6 ∨ month = 9 ∨ month = 11 then 30 else 31 := by
  unfold monthLength monthLengths
  generalize isLeap year = leap
  revert leap hlow hhigh month
  decide

theorem monthLength_of_not_month (year : Int) {month : Nat} (h : month = 0 ∨ 12 < month) :
    monthLength year month = 0 := by
  cases month with
  | zero => rfl
  | succ m =>
    have hnone : (monthLengths year)[m]? = none := by
      rw [List.getElem?_eq_none_iff, length_monthLengths]
      omega
    rw [monthLength, hnone]
    rfl

/-! ## Months -/

/-- Walking through month lengths ends in the month that holds the day, the days of the months
before it used up. -/
theorem locateMonth_spec (month : Nat) {lens : List Nat} {n : Nat} (h : n < lens.sum) :
    ∃ i day, locateMonth month lens n = (month + i, day + 1) ∧
      (∃ len, lens[i]? = some len ∧ day < len) ∧ (lens.take i).sum + day = n := by
  induction lens generalizing month n with
  | nil => simp at h
  | cons len lens ih =>
    unfold locateMonth
    by_cases hn : n < len
    · exact ⟨0, n, by simp [hn], ⟨len, rfl, hn⟩, by simp⟩
    · have hrest : n - len < lens.sum := by
        rw [List.sum_cons] at h
        omega
      obtain ⟨i, day, hwalk, hlen, hsum⟩ := ih (month + 1) hrest
      refine ⟨i + 1, day, ?_, hlen, ?_⟩
      · rw [if_neg hn, hwalk, Nat.add_assoc, Nat.add_comm 1 i]
      · rw [List.take_succ_cons, List.sum_cons]
        omega

/-- Walking through month lengths with the days before a month and some of its own ends in that
month. -/
theorem locateMonth_take (month : Nat) {lens : List Nat} {i len day : Nat}
    (hlen : lens[i]? = some len) (hday : day < len) :
    locateMonth month lens ((lens.take i).sum + day) = (month + i, day + 1) := by
  induction lens generalizing month i with
  | nil => simp at hlen
  | cons l lens ih =>
    cases i with
    | zero =>
      rw [List.getElem?_cons_zero, Option.some.injEq] at hlen
      simp [locateMonth, hlen, hday]
    | succ i =>
      rw [List.getElem?_cons_succ] at hlen
      have hrest := ih (month + 1) hlen
      have hnot : ¬ l + (lens.take i).sum + day < l := by omega
      have hleft : l + (lens.take i).sum + day - l = (lens.take i).sum + day := by omega
      rw [List.take_succ_cons, List.sum_cons, locateMonth, if_neg hnot, hleft, hrest,
        Nat.add_assoc, Nat.add_comm 1 i]

namespace Date

/-- The date of a day: its year holds the day, its month is one of that year, and the day of the
month follows the days of the months before. -/
theorem ofDays_spec (days : Int) :
    ∃ year i day, ofDays days = ⟨year, i + 1, day + 1⟩ ∧
      (∃ len, (monthLengths year)[i]? = some len ∧ day < len) ∧
      daysBeforeYear year + (((monthLengths year).take i).sum + day : Nat) = days + epochDays := by
  have hyear := yearOf_spec (days + epochDays)
  have hnext := daysBeforeYear_succ (yearOf (days + epochDays))
  have hlt : (days + epochDays - daysBeforeYear (yearOf (days + epochDays))).toNat <
      (monthLengths (yearOf (days + epochDays))).sum := by
    rw [sum_monthLengths]
    omega
  obtain ⟨i, day, hwalk, hlen, hsum⟩ := locateMonth_spec 1 hlt
  refine ⟨_, i, day, ?_, hlen, ?_⟩
  · rw [ofDays, hwalk, Nat.add_comm 1 i]
  · rw [hsum]
    omega

/-- **The date of a day exists.** -/
theorem isValid_ofDays (days : Int) : (ofDays days).isValid = true := by
  obtain ⟨year, i, day, hdate, ⟨len, hlen, hday⟩, -⟩ := ofDays_spec days
  rw [hdate, isValid, Bool.and_eq_true, decide_eq_true_eq, decide_eq_true_eq, monthLength, hlen,
    Option.getD_some]
  exact ⟨Nat.le_add_left 1 day, hday⟩

/-- **Counting the days to the date of a day gives that day.** -/
theorem toDays_ofDays (days : Int) : (ofDays days).toDays = days := by
  obtain ⟨year, i, day, hdate, -, hsum⟩ := ofDays_spec days
  rw [hdate, toDays, dayOfYear, ← List.sum_eq_foldl]
  dsimp only
  rw [Nat.add_sub_cancel, Nat.add_sub_cancel]
  omega

/-- The month of a date that exists, counted from 0, and the day in it. -/
theorem exists_month {d : Date} (h : d.isValid = true) :
    ∃ i len, d.month = i + 1 ∧ (monthLengths d.year)[i]? = some len ∧ d.day - 1 < len ∧
      1 ≤ d.day := by
  rw [isValid, Bool.and_eq_true, decide_eq_true_eq, decide_eq_true_eq] at h
  obtain ⟨hlow, hhigh⟩ := h
  cases hmonth : d.month with
  | zero =>
    rw [hmonth, monthLength] at hhigh
    omega
  | succ i =>
    rw [hmonth, monthLength] at hhigh
    cases hlen : (monthLengths d.year)[i]? with
    | none =>
      rw [hlen, Option.getD_none] at hhigh
      omega
    | some len =>
      rw [hlen, Option.getD_some] at hhigh
      exact ⟨i, len, rfl, hlen, by omega, hlow⟩

/-- **A date that exists is the date of its day count.** -/
theorem ofDays_toDays {d : Date} (h : d.isValid = true) : ofDays d.toDays = d := by
  obtain ⟨i, len, hmonth, hlen, hday, hone⟩ := exists_month h
  have hdays : d.toDays + epochDays =
      daysBeforeYear d.year + (((monthLengths d.year).take i).sum + (d.day - 1) : Nat) := by
    rw [toDays, dayOfYear, hmonth, ← List.sum_eq_foldl, Nat.add_sub_cancel]
    omega
  have hyear : yearOf (d.toDays + epochDays) = d.year := by
    refine yearOf_eq (by omega) ?_
    have hsum : ((monthLengths d.year).take i).sum + len ≤ (monthLengths d.year).sum := by
      obtain ⟨hi, hget⟩ := List.getElem?_eq_some_iff.mp hlen
      have hsplit := congrArg List.sum (List.take_append_drop i (monthLengths d.year))
      rw [List.sum_append, List.drop_eq_getElem_cons hi, List.sum_cons, hget] at hsplit
      omega
    rw [sum_monthLengths] at hsum
    rw [hdays, daysBeforeYear_succ]
    omega
  have hwalk := locateMonth_take 1 hlen hday
  have hleft : (d.toDays + epochDays - daysBeforeYear d.year).toNat =
      ((monthLengths d.year).take i).sum + (d.day - 1) := by
    omega
  rw [ofDays, hyear, hleft, hwalk, Nat.add_comm 1 i, ← hmonth, Nat.sub_add_cancel hone]

theorem toDays_injective {d e : Date} (hd : d.isValid = true) (he : e.isValid = true)
    (h : d.toDays = e.toDays) : d = e := by
  rw [← ofDays_toDays hd, h, ofDays_toDays he]

theorem toDays_bounds {d : Date} (h : d.isValid = true) :
    daysBeforeYear d.year ≤ d.toDays + epochDays ∧
      d.toDays + epochDays < daysBeforeYear (d.year + 1) := by
  have hspec := yearOf_spec (d.toDays + epochDays)
  have hyear : yearOf (d.toDays + epochDays) = d.year := congrArg Date.year (ofDays_toDays h)
  rwa [hyear] at hspec

/-- The fields of a date fit two digits. -/
theorem ofDays_lt (days : Int) : (ofDays days).month < 100 ∧ (ofDays days).day < 100 := by
  obtain ⟨year, i, day, hdate, ⟨len, hlen, hday⟩, -⟩ := ofDays_spec days
  have hi : i < (monthLengths year).length := (List.getElem?_eq_some_iff.mp hlen).1
  have hle : len ≤ 31 := monthLengths_le (List.mem_of_getElem? hlen)
  rw [length_monthLengths] at hi
  rw [hdate]
  dsimp only
  omega

/-! ## The rules of the calendar -/

/-- The dates of the proleptic Gregorian calendar: every fourth year has a 29th of February, of the
full centuries only every fourth one. -/
def IsGregorian (d : Date) : Prop :=
  1 ≤ d.month ∧ d.month ≤ 12 ∧ 1 ≤ d.day ∧ d.day ≤
    if d.month = 2 then
      if d.year % 4 = 0 ∧ (d.year % 100 ≠ 0 ∨ d.year % 400 = 0) then 29 else 28
    else if d.month = 4 ∨ d.month = 6 ∨ d.month = 9 ∨ d.month = 11 then 30 else 31

instance (d : Date) : Decidable d.IsGregorian :=
  inferInstanceAs (Decidable (_ ∧ _))

theorem isValid_iff {d : Date} : d.isValid = true ↔ d.IsGregorian := by
  rw [isValid, Bool.and_eq_true, decide_eq_true_eq, decide_eq_true_eq, IsGregorian]
  by_cases hmonth : 1 ≤ d.month ∧ d.month ≤ 12
  · rw [monthLength_eq d.year (by omega) hmonth.1]
    simp only [hmonth, true_and, isLeap_iff]
  · rw [monthLength_of_not_month d.year (by omega)]
    omega

end Date

end EntityQuery.Calendar
