import SlashGuard.Ledger.Ledger
import SlashGuard.Text.Utf8

/-!
The first page of a stored ledger, as far as a text can be one. The page says how the rest is laid
out and whether changes go to a log; a text is taken for a ledger only if no row stands on it.
Beyond the end of a text all bytes are zero.
-/
namespace SlashGuard

/-- What the first page says. The faults of `content` are found after those of the page itself, and
what is not sound is found when the page is written. -/
structure Sheet where
  content : Except StoreFault Ledger
  isLogged : Bool
  isWritable : Bool
  isSound : Bool

namespace Sheet

def heading : List UInt8 := Text.Utf8.encode "SQLite format 3\x00".toList

def number (bs : List UInt8) : Nat := bs.foldl (fun n b => n * 256 + b.toNat) 0

def field (bs : List UInt8) (offset count : Nat) : Nat :=
  let part := (bs.drop offset).take count
  number (part ++ List.replicate (count - part.length) 0)

def sizes : List Nat := [512, 1024, 2048, 4096, 8192, 16384, 32768, 65536]

/-- The bytes of a page that hold a ledger's rows at least. -/
def roomLimit : Nat := 480

def size (bs : List UInt8) : Nat := field bs 16 1 * 256 + field bs 17 1 * 65536

/-- The pages that the first one says there are, if it has been kept up to date, and those that
there are. -/
def pageCounts (bs : List UInt8) : Nat × Nat :=
  let there := (bs.length + size bs - 1) / size bs
  let said := field bs 28 4
  (if said = 0 ∨ field bs 24 4 ≠ field bs 92 4 then there else said, there)

def blank (bs : List UInt8) : Except StoreFault Ledger := do
  if [field bs 21 1, field bs 22 1, field bs 23 1] ≠ [64, 32, 32] then .error .notDatabase
  if ¬ sizes.contains (size bs) then .error .notDatabase
  let (said, there) := pageCounts bs
  if there < said then .error .damaged
  if size bs - field bs 20 1 < roomLimit then .error .notDatabase
  if 4 < field bs 44 4 then .error .badFormat
  if field bs 100 1 ≠ 13 ∨ field bs 103 2 ≠ 0 then .error .damaged
  return .blank

def hasRoom (bs : List UInt8) : Bool :=
  let top := if field bs 105 2 = 0 then 65536 else field bs 105 2
  let free := top + field bs 107 1
  field bs 36 4 = 0 && field bs 101 2 = 0 && 108 ≤ free && free ≤ size bs - field bs 20 1

def ofText (s : String) : Except StoreFault Sheet :=
  let bs := Text.Utf8.encode s.toList
  if heading.isPrefixOf bs ∧ field bs 19 1 ≤ 2 then
    .ok ⟨blank bs, field bs 19 1 = 2, field bs 18 1 ≤ 2, hasRoom bs⟩
  else .error .notDatabase

end Sheet

end SlashGuard
