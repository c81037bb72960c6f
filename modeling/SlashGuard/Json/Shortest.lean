import SlashGuard.Json.Binary

/-!
The decimal text of a binary number: the fewest digits that read back, and of those the nearest.
A number between `1e-5` and `1e16` is written with a point, any other with an exponent.
-/
namespace SlashGuard.Json.Shortest

structure Tens where
  digits : Nat
  places : Int
deriving DecidableEq, Repr

/-- The point of the grid of multiples of `10 ^ places` nearest to the number, if one rounds to
it. Both sides are counted in common units, a quarter of the last binary place. -/
def onGrid (b : Binary) (places : Int) : Option Tens :=
  let e := b.exponent - 2
  let unit := Binary.tenTo places.toNat * Binary.twoTo (-e).toNat
  let quarter := Binary.twoTo e.toNat * Binary.tenTo (-places).toNat
  let value := 4 * b.significand * quarter
  let halfStep := b.significand = Binary.twoTo 52 ∧ Binary.leastExponent < b.exponent
  let low := (4 * b.significand - if halfStep then 1 else 2) * quarter
  let high := (4 * b.significand + 2) * quarter
  let fits (d : Nat) : Bool :=
    if b.significand % 2 = 0 then low ≤ d * unit && d * unit ≤ high
    else low < d * unit && d * unit < high
  let d := value / unit
  let below := value - d * unit
  let above := (d + 1) * unit - value
  match fits d && 0 < d, fits (d + 1) with
  | true, true =>
    some ⟨if above < below ∨ (above = below ∧ d % 2 = 1) then d + 1 else d, places⟩
  | true, false => some ⟨d, places⟩
  | false, true => some ⟨d + 1, places⟩
  | false, false => none

def tens (b : Binary) : Tens :=
  if b.significand = 0 then ⟨0, 0⟩
  else ((List.range 640).findSome? fun (i : Nat) => onGrid b (309 - i)).getD ⟨0, 0⟩

def zeros (n : Nat) : List Char := List.replicate n '0'

def layout (t : Tens) : List Char :=
  let ds := Nat.toDigits 10 t.digits
  let top : Int := t.places + ds.length - 1
  if -5 ≤ top ∧ top < 16 then
    if 0 ≤ t.places then ds ++ zeros t.places.toNat ++ ['.', '0']
    else if 0 ≤ top then ds.take (top.toNat + 1) ++ ['.'] ++ ds.drop (top.toNat + 1)
    else ['0', '.'] ++ zeros (-top - 1).toNat ++ ds
  else
    ds.take 1 ++ (if ds.length = 1 then [] else '.' :: ds.drop 1) ++
      ['e', if 0 ≤ top then '+' else '-'] ++ Nat.toDigits 10 top.natAbs

def write (negative : Bool) (b : Binary) : List Char :=
  (if negative then ['-'] else []) ++ layout (tens b)

end SlashGuard.Json.Shortest
