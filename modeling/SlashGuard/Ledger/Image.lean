import SlashGuard.Ledger.Ledger

/-!
The text of a ledger between two runs: a heading, then a line for each thing stored, the rows of a
validator after the validator.
-/
namespace SlashGuard.Ledger.Image

def heading : String := "slashing protection ledger"

def bytes (bs : List UInt8) : String := String.ofList (Text.Hex.write bs)

def mark : Option Int → String
  | none => "-"
  | some v => toString v

def floorLine (f : Floor) : String :=
  "floor " ++ mark f.slot ++ " " ++ mark f.source ++ " " ++ mark f.target

def accountLines (a : Account) : List String :=
  ["validator " ++ toString a.id ++ " " ++ bytes a.key] ++
    a.history.blocks.map (fun b => "block " ++ toString b.slot ++ " " ++ bytes b.root) ++
    a.history.attestations.map (fun v =>
      "attestation " ++ toString v.source ++ " " ++ toString v.target ++ " " ++ bytes v.root) ++
    (a.history.floor.map floorLine).toList

def write (l : Ledger) : String :=
  String.intercalate "\n" ([heading, "issued " ++ toString l.issued] ++
    (l.version.map fun v => "version " ++ toString v).toList ++
    (l.network.map fun bs => "network " ++ bytes bs).toList ++
    l.accounts.flatMap accountLines) ++ "\n"

def readBytes (s : String) : Option (List UInt8) := (Text.Hex.read s.toList).toOption

def readMark (s : String) : Option (Option Int) := if s = "-" then some none else s.toInt?.map some

def amendLast (f : History → History) (l : Ledger) : Option Ledger :=
  match l.accounts.reverse with
  | [] => none
  | a :: before =>
    some { l with accounts := before.reverse ++ [{ a with history := f a.history }] }

def readLine (l : Ledger) (line : String) : Option Ledger :=
  match line.splitOn " " with
  | ["issued", v] => do return { l with issued := ← v.toInt? }
  | ["version", v] => do return { l with version := some (← v.toInt?) }
  | ["network", bs] => do return { l with network := some (← readBytes bs) }
  | ["validator", id, bs] => do
    return { l with accounts := l.accounts ++ [⟨← id.toInt?, ← readBytes bs, .empty⟩] }
  | ["block", slot, bs] => do
    amendLast (History.addBlock ⟨← slot.toInt?, ← readBytes bs⟩) l
  | ["attestation", s, t, bs] => do
    amendLast (History.addAttestation ⟨← s.toInt?, ← t.toInt?, ← readBytes bs⟩) l
  | ["floor", slot, s, t] => do
    let f : Floor := ⟨← readMark slot, ← readMark s, ← readMark t⟩
    amendLast (fun h => { h with floor := some f }) l
  | _ => none

def read (s : String) : Option Ledger :=
  match (s.splitOn "\n").filter (· ≠ "") with
  | [] => none
  | h :: ls => if h = heading then ls.foldlM readLine .blank else none

end SlashGuard.Ledger.Image
