import SlashGuard.Json.Shortest
import SlashGuard.Text.Decimal

/-!
Numbers of a JSON text. Whole numbers of 64 bits are exact; any other is a binary number.
-/
namespace SlashGuard.Json

inductive Number
  | whole (n : Int)
  | binary (negative : Bool) (b : Binary)
deriving DecidableEq, Repr

namespace Number

def signedLimit : Nat := 9223372036854775808

def write : Number → List Char
  | .whole n => (if n < 0 then ['-'] else []) ++ Nat.toDigits 10 n.natAbs
  | .binary negative b => Shortest.write negative b

structure Parts where
  negative : Bool
  whole : List Nat
  fraction : Option (List Nat)
  exponent : Option (Bool × List Nat)
deriving DecidableEq, Repr

def gather (n : Nat) : List Nat → Nat × List Nat
  | [] => (n, [])
  | d :: ds => if 10 * n + d < UInt64.size then gather (10 * n + d) ds else (n, d :: ds)

def total (ds : List Nat) : Nat := ds.foldl (fun n d => 10 * n + d) 0

/-- The binary number of a significand and its places, moved by the exponent of the text. An
exponent past 31 bits leaves zero, or nothing if it is positive and the significand is not
zero. -/
def scale (n : Nat) (places : Int) : Option (Bool × List Nat) → Option Binary
  | none => Binary.ofDecimal n places
  | some (down, ds) =>
    let e := total ds
    if 2147483648 ≤ e then
      if n ≠ 0 ∧ ¬ down then none else some ⟨0, Binary.leastExponent⟩
    else Binary.ofDecimal n (if down then places - e else places + e)

/-- The number of a text, `none` if it is too large to be one. Digits that no longer fit the
significand count as places before the point and for nothing after it. -/
def ofParts (p : Parts) : Option Number :=
  let (n, left) := gather 0 p.whole
  match p.fraction, p.exponent, left with
  | none, none, [] =>
    if ¬ p.negative then some (.whole n)
    else if 0 < n ∧ n ≤ signedLimit then some (.whole (-n))
    else (Binary.ofNat n).map (.binary true)
  | fraction, exponent, _ =>
    let ds := fraction.getD []
    let (m, rest) := gather n ds
    let places : Int := left.length - (ds.length - rest.length)
    (scale m places exponent).map (.binary p.negative)

end Number

end SlashGuard.Json
