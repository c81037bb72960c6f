/-!
Binary numbers of 53 bits, as `significand * 2 ^ exponent`, with products and quotients rounded
to the nearest, a tie to the even significand. Results of 2 ^ 1024 and more are `none`.
-/
namespace SlashGuard.Json

/-- A number that is not negative. Below 2 ^ 52 the significand only goes with the least
exponent, so equal numbers are equal records. -/
structure Binary where
  significand : Nat
  exponent : Int
deriving DecidableEq, Repr

namespace Binary

def twoTo (k : Nat) : Nat := Nat.pow 2 k

def tenTo (k : Nat) : Nat := Nat.pow 10 k

def leastExponent : Int := -1074

def divideNearest (num den : Nat) : Nat :=
  let q := num / den
  let r := num % den
  if den < 2 * r ∨ (2 * r = den ∧ q % 2 = 1) then q + 1 else q

def inUnits (num den : Nat) (e : Int) : Nat :=
  if 0 ≤ e then divideNearest num (den * twoTo e.toNat)
  else divideNearest (num * twoTo (-e).toNat) den

def round (num den : Nat) : Option Binary :=
  if num = 0 then some ⟨0, leastExponent⟩
  else
    let e : Int := (num.log2 : Int) - (den.log2 : Int) - 52
    let low :=
      if 0 ≤ e then num < den * twoTo (52 + e.toNat) else num * twoTo (-e).toNat < den * twoTo 52
    let e := max (if low then e - 1 else e) leastExponent
    let m := inUnits num den e
    let (m, e) := if m = twoTo 53 then (twoTo 52, e + 1) else (m, e)
    if 971 < e then none else some ⟨m, e⟩

def ofNat (n : Nat) : Option Binary := round n 1

def ratio (b : Binary) : Nat × Nat :=
  if 0 ≤ b.exponent then (b.significand * twoTo b.exponent.toNat, 1)
  else (b.significand, twoTo (-b.exponent).toNat)

def mul (a b : Binary) : Option Binary :=
  round (a.ratio.1 * b.ratio.1) (a.ratio.2 * b.ratio.2)

def div (a b : Binary) : Option Binary :=
  round (a.ratio.1 * b.ratio.2) (a.ratio.2 * b.ratio.1)

/-- `f` divided by powers of ten, at most 308 places at a time, until nothing is left of
either. Four rounds bring every number below 2 ^ 64 to zero. -/
def scaleDown : Nat → Binary → Nat → Option Binary
  | 0, f, _ => some f
  | rounds + 1, f, places =>
    if f.significand = 0 then some f
    else do
      let g ← f.div (← ofNat (tenTo (min places 308)))
      if places ≤ 308 then some g else scaleDown rounds g (places - 308)

def ofDecimal (n : Nat) (places : Int) : Option Binary := do
  let f ← ofNat n
  if 0 ≤ places then
    if f.significand = 0 then some f
    else if 308 < places then none
    else f.mul (← ofNat (tenTo places.toNat))
  else scaleDown 4 f (-places).toNat

end Binary

end SlashGuard.Json
