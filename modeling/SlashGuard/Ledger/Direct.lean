import SlashGuard.Ledger.Ledger

/-!
Rows put into a ledger directly, without the rules of signing. Only the constraints of the store
hold for them: a row belongs to a registered validator, and no row is there twice.
-/
namespace SlashGuard.Ledger

def putVersion (l : Ledger) (v : Option Int) : Ledger := { l with version := v }

def putNetwork (l : Ledger) (bytes : List UInt8) : Ledger := { l with network := some bytes }

def putValidator (l : Ledger) (key : List UInt8) : Except Failure Ledger :=
  if l.accounts.any fun a => a.key = key then .error (.store (.duplicate "validators.public_key"))
  else
    .ok { l with
      issued := l.issued + 1, accounts := l.accounts ++ [⟨l.issued + 1, key, .empty⟩] }

def putBlock (l : Ledger) (id : Int) (b : BlockRow) : Except Failure Ledger :=
  if (l.history id).hasBlock b then
    .error (.store (.duplicate
      "signed_blocks.validator_id, signed_blocks.slot, signed_blocks.signing_root"))
  else l.write id (History.addBlock b)

def putAttestation (l : Ledger) (id : Int) (a : AttestationRow) : Except Failure Ledger :=
  if (l.history id).hasAttestation a then
    .error (.store (.duplicate ("signed_attestations.validator_id, " ++
      "signed_attestations.source_epoch, signed_attestations.target_epoch, " ++
      "signed_attestations.signing_root")))
  else l.write id (History.addAttestation a)

def putFloor (l : Ledger) (id : Int) (f : Floor) : Except Failure Ledger :=
  l.write id fun h => { h with floor := some f }

end SlashGuard.Ledger
