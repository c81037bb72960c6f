import SlashGuard.Interchange.Document
import SlashGuard.Ledger.Blocks
import SlashGuard.Ledger.Attestations
import SlashGuard.Ledger.Watermark
import SlashGuard.Ledger.Network

/-!
Import of a document. A record is a fact of the past, so one that conflicts with what is stored is
stored all the same, and counted; one that is stored already is passed over. Afterwards the
watermark stands at the highest slot and epochs known of each validator in the document.
-/
namespace SlashGuard

structure ImportSummary where
  validators : Nat
  blocksImported : Nat
  blocksSkipped : Nat
  attestationsImported : Nat
  attestationsSkipped : Nat
  conflicts : Nat
deriving DecidableEq, Repr

namespace ImportSummary

def none : ImportSummary := ⟨0, 0, 0, 0, 0, 0⟩

structure Draft where
  validators : Option Nat
  blocksImported : Option Nat
  blocksSkipped : Option Nat
  attestationsImported : Option Nat
  attestationsSkipped : Option Nat
  conflicts : Option Nat

open Json.Decoder in
def decoder : Json.Decoder ImportSummary :=
  record "struct ImportSummary"
    [field "validators" (natural "usize") Draft.validators
        fun x d => { d with validators := some x },
      field "blocks_imported" (natural "usize") Draft.blocksImported
        fun x d => { d with blocksImported := some x },
      field "blocks_skipped" (natural "usize") Draft.blocksSkipped
        fun x d => { d with blocksSkipped := some x },
      field "attestations_imported" (natural "usize") Draft.attestationsImported
        fun x d => { d with attestationsImported := some x },
      field "attestations_skipped" (natural "usize") Draft.attestationsSkipped
        fun x d => { d with attestationsSkipped := some x },
      field "conflicts" (natural "usize") Draft.conflicts
        fun x d => { d with conflicts := some x }]
    ⟨.none, .none, .none, .none, .none, .none⟩ fun d => do
      return ⟨← need "validators" d.validators, ← need "blocks_imported" d.blocksImported,
        ← need "blocks_skipped" d.blocksSkipped,
        ← need "attestations_imported" d.attestationsImported,
        ← need "attestations_skipped" d.attestationsSkipped, ← need "conflicts" d.conflicts⟩

def toValue (s : ImportSummary) : Json.Value :=
  .object [("validators", .whole s.validators), ("blocks_imported", .whole s.blocksImported),
    ("blocks_skipped", .whole s.blocksSkipped),
    ("attestations_imported", .whole s.attestationsImported),
    ("attestations_skipped", .whole s.attestationsSkipped), ("conflicts", .whole s.conflicts)]

end ImportSummary

namespace Import

def addBlock (id : Int) (s : ImportSummary) (l : Ledger) (b : Block) :
    Except Failure (ImportSummary × Ledger) := do
  if ← l.hasBlock id b then
    return ({ s with blocksSkipped := s.blocksSkipped + 1 }, l)
  else
    let clash ← l.conflictingBlock id b
    let (_, l) ← l.addBlock id b
    return ({ s with
      blocksImported := s.blocksImported + 1,
      conflicts := s.conflicts + if clash.isSome then 1 else 0 }, l)

def addBlocks (id : Int) : ImportSummary → Ledger → List Block →
    Except Failure (ImportSummary × Ledger)
  | s, l, [] => .ok (s, l)
  | s, l, b :: bs => do
    let (s, l) ← addBlock id s l b
    addBlocks id s l bs

/-- Whether an attestation votes twice for a target, surrounds another or is surrounded. -/
def clashes (l : Ledger) (id : Int) (a : Attestation) : Except Failure Bool := do
  if (← l.doubleVote id a.target a.root).isSome then return true
  else if (← l.surrounding id a.source a.target).isSome then return true
  else return (← l.surrounded id a.source a.target).isSome

def addAttestation (key : PublicKey) (id : Int) (index : Nat) (s : ImportSummary) (l : Ledger)
    (a : Attestation) : Except Failure (ImportSummary × Ledger) := do
  if a.target.number < a.source.number then .error (.badRange index key)
  else if ← l.hasAttestation id a then
    return ({ s with attestationsSkipped := s.attestationsSkipped + 1 }, l)
  else
    let clash ← clashes l id a
    let (_, l) ← l.addAttestation id a
    return ({ s with
      attestationsImported := s.attestationsImported + 1,
      conflicts := s.conflicts + if clash then 1 else 0 }, l)

def addAttestations (key : PublicKey) (id : Int) : Nat → ImportSummary → Ledger →
    List Attestation → Except Failure (ImportSummary × Ledger)
  | _, s, l, [] => .ok (s, l)
  | index, s, l, a :: as => do
    let (s, l) ← addAttestation key id index s l a
    addAttestations key id (index + 1) s l as

def raiseToTopSlot (l : Ledger) (id : Int) : Except Failure Ledger :=
  match l.topSlot id with
  | some slot => l.raiseSlot id slot
  | none => .ok l

def raiseToTopEpochs (l : Ledger) (id : Int) : Except Failure Ledger :=
  match l.topEpochs id with
  | (some source, some target) => l.raiseEpochs id source target
  | _ => .ok l

def addHistory (s : ImportSummary) (l : Ledger) (h : KeyHistory) :
    Except Failure (ImportSummary × Ledger) := do
  let (id, l) := l.enroll h.key
  let (s, l) ← addBlocks id { s with validators := s.validators + 1 } l h.blocks
  -- A mark is raised to all that is stored, but only where the entry tells of its kind.
  let l ← if h.blocks.isEmpty then .ok l else raiseToTopSlot l id
  let (s, l) ← addAttestations h.key id 0 s l h.attestations
  let l ← if h.attestations.isEmpty then .ok l else raiseToTopEpochs l id
  return (s, l)

def addHistories : ImportSummary → Ledger → List KeyHistory →
    Except Failure (ImportSummary × Ledger)
  | s, l, [] => .ok (s, l)
  | s, l, h :: hs => do
    let (s, l) ← addHistory s l h
    addHistories s l hs

/-- Imports a document. One without histories is only compared with the network. -/
def document (g : Guard) (l : Ledger) (d : Document) :
    Except Failure (ImportSummary × Guard × Ledger) := do
  let network := d.metadata.network
  match d.histories with
  | [] =>
    g.check l network
    return (.none, g, l)
  | hs =>
    let l ← g.accept l network
    let (s, l) ← addHistories .none l hs
    return (s, g.pin network, l)

end Import

end SlashGuard
