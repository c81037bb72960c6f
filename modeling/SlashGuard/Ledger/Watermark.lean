import SlashGuard.Ledger.Ledger

/-!
Watermarks: the slot and the epochs below which a validator signs nothing more. A mark that is
not set differs from one at zero. Marks are set when unset, or raised; nothing lowers them.
-/
namespace SlashGuard

structure Watermark where
  validator : Int
  slot : Option Slot
  source : Option Epoch
  target : Option Epoch
deriving DecidableEq, Repr

namespace Watermark

def unset (id : Int) : Watermark := ⟨id, none, none, none⟩

def hasEpochs (w : Watermark) : Bool := w.source.isSome && w.target.isSome

structure Draft where
  validator : Option Int
  slot : Option (Option Slot)
  source : Option (Option Epoch)
  target : Option (Option Epoch)

open Json.Decoder in
def decoder : Json.Decoder Watermark :=
  record "struct SigningWatermark"
    [field "validator_id" signed Draft.validator fun x d => { d with validator := some x },
      field "slot" (option Slot.decoder) Draft.slot fun x d => { d with slot := some x },
      field "source_epoch" (option Epoch.decoder) Draft.source
        fun x d => { d with source := some x },
      field "target_epoch" (option Epoch.decoder) Draft.target
        fun x d => { d with target := some x }]
    ⟨none, none, none, none⟩ fun d => do
      return ⟨← need "validator_id" d.validator, d.slot.getD none, d.source.getD none,
        d.target.getD none⟩

def toValue (w : Watermark) : Json.Value :=
  .object [("validator_id", .whole w.validator), ("slot", .option Slot.toValue w.slot),
    ("source_epoch", .option Epoch.toValue w.source),
    ("target_epoch", .option Epoch.toValue w.target)]

end Watermark

namespace Ledger

def watermark (l : Ledger) (id : Int) : Except Failure (Option Watermark) := do
  match (l.history id).floor with
  | none => return none
  | some f =>
    return some ⟨id, (← readOptional 0 f.slot).map .mk, (← readOptional 1 f.source).map .mk,
      (← readOptional 2 f.target).map .mk⟩

def watermarkOrUnset (l : Ledger) (id : Int) : Except Failure Watermark := do
  return (← l.watermark id).getD (.unset id)

def initSlot (l : Ledger) (id : Int) (slot : Slot) : Except Failure Ledger := do
  l.write id (History.initSlot (← storable .slot slot.number))

def initEpochs (l : Ledger) (id : Int) (source target : Epoch) : Except Failure Ledger := do
  let s ← storable .source source.number
  let t ← storable .target target.number
  l.write id (History.initEpochs s t)

def raiseSlot (l : Ledger) (id : Int) (slot : Slot) : Except Failure Ledger := do
  l.write id (History.raiseSlot (← storable .slot slot.number))

def raiseEpochs (l : Ledger) (id : Int) (source target : Epoch) : Except Failure Ledger := do
  let s ← storable .source source.number
  let t ← storable .target target.number
  l.write id (History.raiseEpochs s t)

end Ledger

end SlashGuard
