import SlashGuard.Ledger.Blocks
import SlashGuard.Ledger.Attestations
import SlashGuard.Ledger.Watermark
import SlashGuard.Verdict

/-!
The rules of signing. A request that would make a slashable pair with what is stored is refused,
a request for the very same data is allowed again, and any other must lie above the watermark;
only then is it stored. Conflicts are found before the watermark is asked, so that they are named
as what they are.
-/
namespace SlashGuard.Signing

def requireRegistered (l : Ledger) (id : Int) : Except Failure Unit :=
  if l.isRegistered id then .ok () else .error (.unregistered id)

/-- Decides on a block and stores it if it is approved. -/
def checkBlock (l : Ledger) (id : Int) (b : Block) : Except Failure (Verdict × Ledger) := do
  requireRegistered l id
  if (← l.conflictingBlock id b).isSome then return (.refused .doubleProposal, l)
  if ← l.hasBlock id b then return (.allowed .sameData, l)
  let mark ← l.watermarkOrUnset id
  if mark.slot.any fun low => b.slot.number ≤ low.number then return (.refused .tooOld, l)
  let (_, l) ← l.addBlock id b
  let l ← l.initSlot id b.slot
  return (.allowed .valid, l)

def checkRange (source target : Epoch) : Option Verdict :=
  if target.number < source.number then some (.refused .invalidRange) else none

def checkAttestation (l : Ledger) (id : Int) (a : Attestation) :
    Except Failure (Verdict × Ledger) := do
  if let some refused := checkRange a.source a.target then return (refused, l)
  requireRegistered l id
  if (← l.doubleVote id a.target a.root).isSome then return (.refused .doubleVote, l)
  if (← l.surrounding id a.source a.target).isSome then return (.refused .surrounded, l)
  if (← l.surrounded id a.source a.target).isSome then return (.refused .surrounds, l)
  if ← l.hasAttestation id a then return (.allowed .sameData, l)
  let mark ← l.watermarkOrUnset id
  if mark.source.any (fun low => a.source.number < low.number) ||
      mark.target.any (fun low => a.target.number ≤ low.number) then
    return (.refused .tooOld, l)
  let (_, l) ← l.addAttestation id a
  let l ← l.initEpochs id a.source a.target
  return (.allowed .valid, l)

end SlashGuard.Signing
