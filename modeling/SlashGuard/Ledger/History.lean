import SlashGuard.Failure
import SlashGuard.Record

/-!
What is stored of one validator: the blocks and attestations it has signed and the floor below
which it signs nothing more. Rows are kept in one order, so two histories with the same rows are
equal. A row holds numbers and bytes as they are stored; reading it can fail.
-/
namespace SlashGuard

structure BlockRow where
  slot : Int
  root : List UInt8
deriving DecidableEq, Repr

structure AttestationRow where
  source : Int
  target : Int
  root : List UInt8
deriving DecidableEq, Repr

/-- The highest slot and target that are closed for signing and the lowest source that is open, as
far as they are set. -/
structure Floor where
  slot : Option Int
  source : Option Int
  target : Option Int
deriving DecidableEq, Repr

structure History where
  blocks : List BlockRow
  attestations : List AttestationRow
  floor : Option Floor
deriving DecidableEq, Repr

def History.empty : History := ⟨[], [], none⟩

/-- The store keeps numbers of 63 bits, which are those below this limit. -/
def storeLimit : Nat := 9223372036854775808

def storable (quantity : Quantity) (n : UInt64) : Except Failure Int :=
  if n.toNat < storeLimit then .ok n.toNat else .error (.outOfRange quantity n)

def readStored (column : Nat) (v : Int) : Except Failure UInt64 :=
  if v < 0 then .error (.store (.negative v column)) else .ok (UInt64.ofNat v.toNat)

def readRoot (role : Root.Role) (column : Nat) (bytes : List UInt8) : Except Failure Root :=
  (Root.ofBytes role bytes).mapError fun fault => .store (.badRoot column fault)

def readOptional (column : Nat) : Option Int → Except Failure (Option UInt64)
  | none => .ok none
  | some v => (readStored column v).map some

def rank (bytes : List UInt8) : List Int := bytes.map fun b => (b.toNat : Int)

def BlockRow.place (b : BlockRow) : List Int := b.slot :: rank b.root

def AttestationRow.place (a : AttestationRow) : List Int := a.target :: a.source :: rank a.root

def AttestationRow.searchPlace (a : AttestationRow) : List Int :=
  a.source :: a.target :: rank a.root

/-- Places are ordered number by number, a place before all that it begins. -/
def notAfter : List Int → List Int → Bool
  | [], _ => true
  | _ :: _, [] => false
  | x :: xs, y :: ys => x < y || (x = y && notAfter xs ys)

def insertAt {α : Type} (place : α → List Int) (x : α) : List α → List α
  | [] => [x]
  | y :: ys => if notAfter (place x) (place y) then x :: y :: ys else y :: insertAt place x ys

def leastBy {α : Type} (place : α → List Int) : List α → Option α
  | [] => none
  | x :: xs =>
    match leastBy place xs with
    | none => some x
    | some y => if notAfter (place x) (place y) then some x else some y

def BlockRow.read (b : BlockRow) : Except Failure Block := do
  return ⟨⟨← readStored 1 b.slot⟩, ← readRoot .signing 2 b.root⟩

def AttestationRow.read (a : AttestationRow) : Except Failure Attestation := do
  return ⟨⟨← readStored 1 a.source⟩, ⟨← readStored 2 a.target⟩, ← readRoot .signing 3 a.root⟩

namespace History

def hasBlock (h : History) (b : BlockRow) : Bool := b ∈ h.blocks

def otherBlock (h : History) (b : BlockRow) : Option BlockRow :=
  h.blocks.find? fun x => x.slot = b.slot && x.root ≠ b.root

def addBlock (b : BlockRow) (h : History) : History :=
  if b ∈ h.blocks then h else { h with blocks := insertAt BlockRow.place b h.blocks }

def topSlot (h : History) : Option Int := (h.blocks.map BlockRow.slot).max?

def dropBlocks (slot : Int) (h : History) : History :=
  { h with blocks := h.blocks.filter fun b => slot ≤ b.slot }

def hasAttestation (h : History) (a : AttestationRow) : Bool := a ∈ h.attestations

def otherVote (h : History) (target : Int) (root : List UInt8) : Option AttestationRow :=
  leastBy AttestationRow.searchPlace
    (h.attestations.filter fun x => x.target = target && x.root ≠ root)

def surrounding (h : History) (source target : Int) : Option AttestationRow :=
  leastBy AttestationRow.searchPlace
    (h.attestations.filter fun x => x.source < source && target < x.target)

def surrounded (h : History) (source target : Int) : Option AttestationRow :=
  leastBy AttestationRow.searchPlace
    (h.attestations.filter fun x => source < x.source && x.target < target)

def addAttestation (a : AttestationRow) (h : History) : History :=
  if a ∈ h.attestations then h
  else { h with attestations := insertAt AttestationRow.place a h.attestations }

def topEpochs (h : History) : Option Int × Option Int :=
  ((h.attestations.map AttestationRow.source).max?,
    (h.attestations.map AttestationRow.target).max?)

def dropAttestations (target : Int) (h : History) : History :=
  { h with attestations := h.attestations.filter fun a => target ≤ a.target }

def floorOrEmpty (h : History) : Floor := h.floor.getD ⟨none, none, none⟩

def initSlot (slot : Int) (h : History) : History :=
  let f := h.floorOrEmpty
  { h with floor := some { f with slot := some (f.slot.getD slot) } }

def initEpochs (source target : Int) (h : History) : History :=
  let f := h.floorOrEmpty
  { h with floor := some { f with
      source := some (f.source.getD source), target := some (f.target.getD target) } }

def raiseSlot (slot : Int) (h : History) : History :=
  let f := h.floorOrEmpty
  { h with floor := some { f with slot := some (max (f.slot.getD slot) slot) } }

def raiseEpochs (source target : Int) (h : History) : History :=
  let f := h.floorOrEmpty
  { h with floor := some { f with
      source := some (max (f.source.getD source) source),
      target := some (max (f.target.getD target) target) } }

end History

end SlashGuard
