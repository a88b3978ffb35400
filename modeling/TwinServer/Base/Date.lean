-- SUMMARY: The text of a time in the format of ISO 8601, as toISOString writes it.
import TwinServer.Base.Serial

/-!
# Times as texts

`Date.prototype.toISOString` for times since the epoch, which are milliseconds of days that all have the same
length.
-/

namespace Js

/-! ## Days -/

/-- The last time a date can hold. -/
def maxTime : Nat := 8640000000000000

/-- The year, the month and the day of a day since the epoch. A year is taken to begin in March here, so that the
day that may be missing is its last, and four centuries have always the same number of days. -/
def civil (days : Nat) : Nat × Nat × Nat :=
  let z := days + 719468
  let dayOfEra := z % 146097
  let yearOfEra := (dayOfEra - dayOfEra / 1460 + dayOfEra / 36524 - dayOfEra / 146096) / 365
  let dayOfYear := dayOfEra - (365 * yearOfEra + yearOfEra / 4 - yearOfEra / 100)
  let m := (5 * dayOfYear + 2) / 153
  let year := yearOfEra + z / 146097 * 400
  (if m < 10 then year else year + 1, if m < 10 then m + 3 else m - 9, dayOfYear - (153 * m + 2) / 5 + 1)

/-! ## Texts -/

/-- The digits of a number, with zeros in front up to a length. -/
def padded (length n : Nat) : String := .ofList (List.replicate (length - n.repr.length) '0') ++ n.repr

/-- A year of more than four digits has a sign and six digits. -/
def yearText (year : Nat) : String := if year ≤ 9999 then padded 4 year else "+" ++ padded 6 year

/-- A day of a month. -/
def dayText (date : Nat × Nat × Nat) : String :=
  yearText date.1 ++ "-" ++ padded 2 date.2.1 ++ "-" ++ padded 2 date.2.2

/-- The time of a day. -/
def clockText (t : Nat) : String :=
  padded 2 (t / 3600000 % 24) ++ ":" ++ padded 2 (t / 60000 % 60) ++ ":" ++ padded 2 (t / 1000 % 60) ++ "." ++
    padded 3 (t % 1000)

/-- `new Date(t).toISOString()`, where `none` is a `RangeError`. -/
def toISOString (t : Nat) : Option String :=
  if t ≤ maxTime then some (dayText (civil (t / 86400000)) ++ "T" ++ clockText t ++ "Z") else none

example : toISOString 951782400000 = some "2000-02-29T00:00:00.000Z" := by decide

example : toISOString 253402300800001 = some "+010000-01-01T00:00:00.001Z" := by decide

/-- A character of a time. -/
def isTimeCharacter (c : Char) : Bool := c.isDigit || ['+', '-', ':', '.', 'T', 'Z'].contains c

theorem all_padded (length n : Nat) : (padded length n).toList.all isTimeCharacter := by
  rw [padded, String.toList_append, String.toList_ofList, List.all_append, Bool.and_eq_true]
  refine ⟨?_, List.all_eq_true.mpr fun c hc => ?_⟩
  · exact List.all_eq_true.mpr fun c hc => (List.eq_of_mem_replicate hc).symm ▸ rfl
  · rw [isTimeCharacter, isDigit_of_mem_repr hc, Bool.true_or]

theorem all_dayText (date : Nat × Nat × Nat) : (dayText date).toList.all isTimeCharacter := by
  have hyear : (yearText date.1).toList.all isTimeCharacter := by
    unfold yearText
    split
    · exact all_padded 4 date.1
    · rw [String.toList_append, List.all_append, all_padded 6 date.1]
      rfl
  simp [dayText, List.all_append, all_padded, hyear, isTimeCharacter]

theorem all_clockText (t : Nat) : (clockText t).toList.all isTimeCharacter := by
  simp [clockText, List.all_append, all_padded, isTimeCharacter]

theorem all_toISOString {t : Nat} {s : String} (h : toISOString t = some s) : s.toList.all isTimeCharacter := by
  obtain ⟨-, h⟩ := Option.ite_none_right_eq_some.mp h
  obtain rfl := Option.some.inj h
  simp [List.all_append, all_dayText, all_clockText, isTimeCharacter]

end Js
