import SlashGuard.Ledger.Ledger

/-!
The network of a ledger. The first operation that succeeds stores its network; from then on the
guard holds it too and answers without the ledger.
-/
namespace SlashGuard

/-- The network that operations are held to, once one has succeeded. -/
structure Guard where
  pinned : Option Root
deriving DecidableEq, Repr

namespace Guard

def empty : Guard := ⟨none⟩

def compare (supplied stored : Root) : Except Failure Unit :=
  if supplied = stored then .ok () else .error (.otherNetwork supplied stored)

def check (g : Guard) (l : Ledger) (r : Root) : Except Failure Unit :=
  match g.pinned with
  | some p => compare r p
  | none => do
    match ← l.readNetwork with
    | some stored => compare r stored
    | none => return ()

def accept (g : Guard) (l : Ledger) (r : Root) : Except Failure Ledger :=
  match g.pinned with
  | some p => do
    compare r p
    return l
  | none => do
    match ← l.readNetwork with
    | some stored =>
      compare r stored
      return l
    | none => return (l.recordNetwork r).2

def pin (g : Guard) (r : Root) : Guard := ⟨some (g.pinned.getD r)⟩

end Guard

end SlashGuard
