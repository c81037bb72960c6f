/-! Unsigned decimal numbers with a limit: an optional plus sign, then one or more ASCII digits. -/
namespace SlashGuard.Text.Decimal

inductive Fault
  | empty
  | badDigit
  | tooLarge
deriving DecidableEq, Repr

def Fault.message : Fault → String
  | .empty => "cannot parse integer from empty string"
  | .badDigit => "invalid digit found in string"
  | .tooLarge => "number too large to fit in target type"

def digit? (c : Char) : Option Nat :=
  if '0' ≤ c ∧ c ≤ '9' then some (c.toNat - 48) else none

/-- Reads digits onto `n`, stopping at the first one that is bad or leads past the limit. -/
def extend (limit : Nat) (n : Nat) : List Char → Except Fault Nat
  | [] => .ok n
  | c :: cs =>
    match digit? c with
    | none => .error .badDigit
    | some d => if 10 * n + d < limit then extend limit (10 * n + d) cs else .error .tooLarge

def read (limit : Nat) : List Char → Except Fault Nat
  | [] => .error .empty
  | ['+'] => .error .badDigit
  | '+' :: cs => extend limit 0 cs
  | cs => extend limit 0 cs

def write (n : Nat) : List Char := Nat.toDigits 10 n

end SlashGuard.Text.Decimal
