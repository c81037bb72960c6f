import SlashGuard.Text.Decimal

/-! Moments of Coordinated Universal Time as text: the date and the time of day, in digits, such as
20000229T123456Z. -/
namespace SlashGuard.Text.Moment

def isLeap (year : Nat) : Bool := year % 4 == 0 && (year % 100 != 0 || year % 400 == 0)

def yearLength (year : Nat) : Nat := if isLeap year then 366 else 365

def monthLengths (year : Nat) : List Nat :=
  [31, if isLeap year then 29 else 28, 31, 30, 31, 30, 31, 31, 30, 31, 30, 31]

theorem yearLength_pos (year : Nat) : 0 < yearLength year := by
  unfold yearLength
  split <;> decide

/-- The year of the day `days` after the first of a year, and how many days of it went before. -/
def yearOf (year days : Nat) : Nat × Nat :=
  if days < yearLength year then (year, days)
  else yearOf (year + 1) (days - yearLength year)
termination_by days
decreasing_by
  have := yearLength_pos year
  omega

def monthOf (month days : Nat) : List Nat → Nat × Nat
  | [] => (month, days)
  | length :: lengths =>
    if days < length then (month, days) else monthOf (month + 1) (days - length) lengths

def digits (width n : Nat) : List Char := (Decimal.write n).leftpad width '0'

def write (seconds : Nat) : List Char :=
  let (year, ofYear) := yearOf 1970 (seconds / 86400)
  let (month, ofMonth) := monthOf 1 ofYear (monthLengths year)
  digits 4 year ++ digits 2 month ++ digits 2 (ofMonth + 1) ++ 'T' ::
    digits 2 (seconds / 3600 % 24) ++ digits 2 (seconds / 60 % 60) ++ digits 2 (seconds % 60) ++
    ['Z']

end SlashGuard.Text.Moment
