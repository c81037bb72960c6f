import SlashGuard.Root
import SlashGuard.Slot

/-! What a validator signs: blocks, each at a slot, and attestations, each from a source epoch to
a target epoch. The root says what exactly was signed. -/
namespace SlashGuard

structure Block where
  slot : Slot
  root : Root
deriving DecidableEq, Repr

structure Attestation where
  source : Epoch
  target : Epoch
  root : Root
deriving DecidableEq, Repr

namespace Block

structure Draft where
  slot : Option Slot
  root : Option Root

open Json.Decoder in
def decoder : Json.Decoder Block :=
  record "struct InterchangeBlock"
    [field "slot" Slot.decoder Draft.slot fun x d => { d with slot := some x },
      field "signing_root" Root.decoder Draft.root fun x d => { d with root := some x }]
    ⟨none, none⟩ fun d => do
      return ⟨← need "slot" d.slot, ← need "signing_root" d.root⟩

def toValue (b : Block) : Json.Value :=
  .object [("slot", b.slot.toValue), ("signing_root", b.root.toValue)]

end Block

namespace Attestation

structure Draft where
  source : Option Epoch
  target : Option Epoch
  root : Option Root

open Json.Decoder in
def decoder : Json.Decoder Attestation :=
  record "struct InterchangeAttestation"
    [field "source_epoch" Epoch.decoder Draft.source fun x d => { d with source := some x },
      field "target_epoch" Epoch.decoder Draft.target fun x d => { d with target := some x },
      field "signing_root" Root.decoder Draft.root fun x d => { d with root := some x }]
    ⟨none, none, none⟩ fun d => do
      return ⟨← need "source_epoch" d.source, ← need "target_epoch" d.target,
        ← need "signing_root" d.root⟩

def toValue (a : Attestation) : Json.Value :=
  .object [("source_epoch", a.source.toValue), ("target_epoch", a.target.toValue),
    ("signing_root", a.root.toValue)]

end Attestation

end SlashGuard
