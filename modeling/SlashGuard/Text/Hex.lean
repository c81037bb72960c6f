/-!
Bytes as hexadecimal text. A leading `0x` may stand before the digits; digits of either case are
read and lower case is written.
-/
namespace SlashGuard.Text.Hex

/-- Why a text is not the digits of some bytes: its length in bytes is odd, or the byte at an
index is no digit. -/
inductive Fault
  | oddLength
  | badDigit (byte : UInt8) (index : Nat)
deriving DecidableEq, Repr

def digit (n : Nat) : Char := Nat.digitChar n

def digit? (c : Char) : Option Nat :=
  if '0' ≤ c ∧ c ≤ '9' then some (c.toNat - 48)
  else if 'a' ≤ c ∧ c ≤ 'f' then some (c.toNat - 87)
  else if 'A' ≤ c ∧ c ≤ 'F' then some (c.toNat - 55)
  else none

def encode : List UInt8 → List Char
  | [] => []
  | b :: bs => digit (b.toNat / 16) :: digit (b.toNat % 16) :: encode bs

def write (bs : List UInt8) : List Char := '0' :: 'x' :: encode bs

def strip : List Char → List Char
  | '0' :: 'x' :: cs => cs
  | cs => cs

/-- The first character that is no digit, with its index. All before it take one byte each. -/
def firstBad (index : Nat) : List Char → Option (Char × Nat)
  | [] => none
  | c :: cs => if (digit? c).isSome then firstBad (index + 1) cs else some (c, index)

def pairs : List Char → List UInt8
  | a :: b :: cs => UInt8.ofNat ((digit? a).getD 0 * 16 + (digit? b).getD 0) :: pairs cs
  | _ => []

def byteLength : List Char → Nat
  | [] => 0
  | c :: cs => c.utf8Size + byteLength cs

def decode (cs : List Char) : Except Fault (List UInt8) :=
  if byteLength cs % 2 = 1 then .error .oddLength
  else match firstBad 0 cs with
  | some (c, index) => .error (.badDigit ((String.utf8EncodeChar c).headD 0) index)
  | none => .ok (pairs cs)

def read (cs : List Char) : Except Fault (List UInt8) := decode (strip cs)

end SlashGuard.Text.Hex
