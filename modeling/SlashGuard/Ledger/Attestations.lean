import SlashGuard.Ledger.Ledger

/-! The signed attestations of a validator in a ledger, and the questions of slashing. -/
namespace SlashGuard.Ledger

def attestationRow (a : Attestation) : Except Failure AttestationRow := do
  return ⟨← storable .source a.source.number, ← storable .target a.target.number, a.root.bytes⟩

def readFound : Option AttestationRow → Except Failure (Option Attestation)
  | none => .ok none
  | some row => row.read.map some

def doubleVote (l : Ledger) (id : Int) (target : Epoch) (root : Root) :
    Except Failure (Option Attestation) := do
  let t ← storable .target target.number
  readFound ((l.history id).otherVote t root.bytes)

def surrounding (l : Ledger) (id : Int) (source target : Epoch) :
    Except Failure (Option Attestation) := do
  let s ← storable .source source.number
  let t ← storable .target target.number
  readFound ((l.history id).surrounding s t)

def surrounded (l : Ledger) (id : Int) (source target : Epoch) :
    Except Failure (Option Attestation) := do
  let s ← storable .source source.number
  let t ← storable .target target.number
  readFound ((l.history id).surrounded s t)

def hasAttestation (l : Ledger) (id : Int) (a : Attestation) : Except Failure Bool := do
  return (l.history id).hasAttestation (← attestationRow a)

def addAttestation (l : Ledger) (id : Int) (a : Attestation) : Except Failure (Bool × Ledger) := do
  let row ← attestationRow a
  return (!(l.history id).hasAttestation row, ← l.write id (History.addAttestation row))

def attestationCount (l : Ledger) (id : Int) : Nat := (l.history id).attestations.length

def epochsAt (l : Ledger) (id : Int) (offset : UInt64) :
    Except Failure (Option (Epoch × Epoch)) := do
  match (l.history id).attestations[(← storable .offset offset).toNat]? with
  | none => return none
  | some row => return some (⟨← readStored 0 row.source⟩, ⟨← readStored 1 row.target⟩)

/-- The distances from zero of the highest source and the highest target. -/
def topEpochs (l : Ledger) (id : Int) : Option Epoch × Option Epoch :=
  let epoch (v : Int) : Epoch := ⟨UInt64.ofNat v.natAbs⟩
  let (source, target) := (l.history id).topEpochs
  (source.map epoch, target.map epoch)

def dropAttestations (l : Ledger) (id : Int) (target : Epoch) : Except Failure (Nat × Ledger) := do
  let v ← storable .target target.number
  let after := l.amend id (History.dropAttestations v)
  return (l.attestationCount id - after.attestationCount id, after)

def attestations (l : Ledger) (id : Int) : Except Failure (List Attestation) :=
  (l.history id).attestations.mapM AttestationRow.read

end SlashGuard.Ledger
