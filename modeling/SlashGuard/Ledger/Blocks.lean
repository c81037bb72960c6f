import SlashGuard.Ledger.Ledger

/-! The signed blocks of a validator in a ledger. -/
namespace SlashGuard.Ledger

def blockRow (b : Block) : Except Failure BlockRow := do
  return ⟨← storable .slot b.slot.number, b.root.bytes⟩

def conflictingBlock (l : Ledger) (id : Int) (b : Block) : Except Failure (Option Block) := do
  match (l.history id).otherBlock (← blockRow b) with
  | none => return none
  | some row => return some (← row.read)

def hasBlock (l : Ledger) (id : Int) (b : Block) : Except Failure Bool := do
  return (l.history id).hasBlock (← blockRow b)

def addBlock (l : Ledger) (id : Int) (b : Block) : Except Failure (Bool × Ledger) := do
  let row ← blockRow b
  return (!(l.history id).hasBlock row, ← l.write id (History.addBlock row))

def blockCount (l : Ledger) (id : Int) : Nat := (l.history id).blocks.length

def slotAt (l : Ledger) (id : Int) (offset : UInt64) : Except Failure (Option Slot) := do
  match (l.history id).blocks[(← storable .offset offset).toNat]? with
  | none => return none
  | some row => return some ⟨← readStored 0 row.slot⟩

def topSlot (l : Ledger) (id : Int) : Option Slot :=
  (l.history id).topSlot.map fun v => ⟨UInt64.ofNat v.natAbs⟩

def dropBlocks (l : Ledger) (id : Int) (slot : Slot) : Except Failure (Nat × Ledger) := do
  let v ← storable .slot slot.number
  let after := l.amend id (History.dropBlocks v)
  return (l.blockCount id - after.blockCount id, after)

def blocks (l : Ledger) (id : Int) : Except Failure (List Block) :=
  (l.history id).blocks.mapM BlockRow.read

end SlashGuard.Ledger
