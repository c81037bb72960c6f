import SlashGuard.Ledger.Blocks
import SlashGuard.Ledger.Attestations
import SlashGuard.Ledger.Watermark

/-!
Pruning keeps the newest records of a validator and raises its watermark to the oldest of them,
so what is removed can never be signed again. Where the watermark is already higher it stays, and
more is removed. Without a watermark nothing is removed.
-/
namespace SlashGuard

structure PruneOutcome where
  blocks : Nat
  attestations : Nat
  watermark : Option Watermark
deriving DecidableEq, Repr

structure PruneSummary where
  pruned : Nat
  failed : Nat
  blocks : Nat
  attestations : Nat
deriving DecidableEq, Repr

namespace PruneOutcome

def none : PruneOutcome := ⟨0, 0, .none⟩

structure Draft where
  blocks : Option Nat
  attestations : Option Nat
  watermark : Option (Option Watermark)

open Json.Decoder in
def decoder : Json.Decoder PruneOutcome :=
  record "struct PruneOutcome"
    [field "blocks_deleted" (natural "usize") Draft.blocks fun x d => { d with blocks := some x },
      field "attestations_deleted" (natural "usize") Draft.attestations
        fun x d => { d with attestations := some x },
      field "watermark" (option Watermark.decoder) Draft.watermark
        fun x d => { d with watermark := some x }]
    ⟨.none, .none, .none⟩ fun d => do
      return ⟨← need "blocks_deleted" d.blocks, ← need "attestations_deleted" d.attestations,
        d.watermark.getD .none⟩

def toValue (o : PruneOutcome) : Json.Value :=
  .object [("blocks_deleted", .whole o.blocks), ("attestations_deleted", .whole o.attestations),
    ("watermark", .option Watermark.toValue o.watermark)]

end PruneOutcome

namespace PruneSummary

def none : PruneSummary := ⟨0, 0, 0, 0⟩

def ofOutcome (o : PruneOutcome) : PruneSummary := ⟨1, 0, o.blocks, o.attestations⟩

structure Draft where
  pruned : Option Nat
  failed : Option Nat
  blocks : Option Nat
  attestations : Option Nat

open Json.Decoder in
def decoder : Json.Decoder PruneSummary :=
  record "struct PruneSummary"
    [field "validators_pruned" (natural "usize") Draft.pruned
        fun x d => { d with pruned := some x },
      field "validators_failed" (natural "usize") Draft.failed
        fun x d => { d with failed := some x },
      field "blocks_deleted" (natural "usize") Draft.blocks fun x d => { d with blocks := some x },
      field "attestations_deleted" (natural "usize") Draft.attestations
        fun x d => { d with attestations := some x }]
    ⟨.none, .none, .none, .none⟩ fun d => do
      return ⟨← need "validators_pruned" d.pruned, ← need "validators_failed" d.failed,
        ← need "blocks_deleted" d.blocks, ← need "attestations_deleted" d.attestations⟩

def toValue (s : PruneSummary) : Json.Value :=
  .object [("validators_pruned", .whole s.pruned), ("validators_failed", .whole s.failed),
    ("blocks_deleted", .whole s.blocks), ("attestations_deleted", .whole s.attestations)]

end PruneSummary

namespace Pruning

def pruneBlocks (l : Ledger) (keep : Nat) (id : Int) :
    Option Slot → Except Failure (Nat × Ledger)
  | none => .ok (0, l)
  | some low => do
    match ← l.slotAt id (UInt64.ofNat (l.blockCount id - keep)) with
    | none => return (0, l)
    | some mark =>
      let floor : Slot := ⟨max low.number mark.number⟩
      let l ← l.raiseSlot id floor
      l.dropBlocks id floor

def pruneAttestations (l : Ledger) (keep : Nat) (id : Int) :
    Option Epoch → Option Epoch → Except Failure (Nat × Ledger)
  | some source, some target => do
    match ← l.epochsAt id (UInt64.ofNat (l.attestationCount id - keep)) with
    | none => return (0, l)
    | some (markSource, markTarget) =>
      let sourceFloor : Epoch := ⟨max source.number markSource.number⟩
      let targetFloor : Epoch := ⟨max target.number markTarget.number⟩
      let l ← l.raiseEpochs id sourceFloor targetFloor
      l.dropAttestations id targetFloor
  | _, _ => .ok (0, l)

def prune (l : Ledger) (keep : Nat) (id : Int) : Except Failure (PruneOutcome × Ledger) :=
  if keep = 0 then .error .nothingKept
  else if l.isRegistered id then do
    match ← l.watermark id with
    | none => return (.none, l)
    | some mark =>
      let (blocks, l) ← pruneBlocks l keep id mark.slot
      let (attestations, l) ← pruneAttestations l keep id mark.source mark.target
      return (⟨blocks, attestations, ← l.watermark id⟩, l)
  else .ok (.none, l)

/-- Prunes a validator as one of several: a failure is counted and undone. -/
def pruneNext (keep : Nat) (done : PruneSummary × Ledger) (id : Int) : PruneSummary × Ledger :=
  match prune done.2 keep id with
  | .ok (o, l) =>
    ({ done.1 with
        pruned := done.1.pruned + 1, blocks := done.1.blocks + o.blocks,
        attestations := done.1.attestations + o.attestations }, l)
  | .error _ => ({ done.1 with failed := done.1.failed + 1 }, done.2)

def pruneAll (l : Ledger) (keep : Nat) : Except Failure (PruneSummary × Ledger) :=
  if keep = 0 then .error .nothingKept else .ok (l.ids.foldl (pruneNext keep) (.none, l))

/-- Whether pruning a validator writes, be it what stands there already: a part of its watermark
is set, and there are records that it covers. -/
def writes (l : Ledger) (id : Int) : Bool :=
  let h := l.history id
  match h.floor with
  | none => false
  | some f =>
    (f.slot.isSome && !h.blocks.isEmpty) ||
      (f.source.isSome && f.target.isSome && !h.attestations.isEmpty)

/-- `pruneNext` where nothing may be written. -/
def surveyNext (keep : Nat) (done : PruneSummary × Ledger) (id : Int) : PruneSummary × Ledger :=
  if writes done.2 id then ({ done.1 with failed := done.1.failed + 1 }, done.2)
  else pruneNext keep done id

def surveyAll (l : Ledger) (keep : Nat) : PruneSummary :=
  (l.ids.foldl (surveyNext keep) (.none, l)).1

end Pruning

end SlashGuard
