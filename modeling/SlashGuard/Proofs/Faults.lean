import SlashGuard.Interchange.Import
import SlashGuard.Proofs.Operations

/-! What an import objects to, in the order in which it meets it: the network, then of every entry
its blocks and its attestations. An import without faults succeeds, and any other fails with the
first. -/
namespace SlashGuard

/-- Gives a result, barring faults; the first fault if there are any. -/
def barring {α : Type} (faults : List Failure) (a : α) : Except Failure α :=
  match faults with
  | [] => .ok a
  | f :: _ => .error f

section Barring

variable {α β : Type} {fs gs : List Failure} {a : α}

/-- Faults of steps that follow one another add up. -/
theorem barring_bind {next : α → Except Failure β} {b : β}
    (step : fs = [] → next a = barring gs b) :
    (barring fs a >>= next) = barring (fs ++ gs) b := by
  cases fs with
  | nil => exact step rfl
  | cons f fs => rfl

theorem barring_last {next : α → Except Failure β} {b : β} (step : fs = [] → next a = .ok b) :
    (barring fs a >>= next) = barring fs b := by
  have whole := @barring_bind _ _ fs [] a next b step
  rwa [List.append_nil] at whole

theorem barring_eq_ok {b : α} : barring fs a = .ok b ↔ fs = [] ∧ a = b := by
  cases fs with
  | nil => simp [barring]
  | cons f fs => simp [barring]

theorem barring_eq_error {f : Failure} : barring fs a = .error f ↔ fs.head? = some f := by
  cases fs with
  | nil => simp [barring]
  | cons g gs => simp [barring]

theorem barring_map (f : α → β) :
    (barring fs a).map f = barring fs (f a) := by
  cases fs <;> rfl

theorem ite_bind {c : Prop} [Decidable c] (x y : Except Failure α)
    (next : α → Except Failure β) :
    (if c then x >>= next else y >>= next) = (if c then x else y) >>= next := by
  split <;> rfl

end Barring

def rangeFaults (quantity : Quantity) (n : UInt64) : List Failure :=
  if n.toNat < storeLimit then [] else [.outOfRange quantity n]

def Block.faults (b : Block) : List Failure := rangeFaults .slot b.slot.number

def Attestation.faults (key : PublicKey) (index : Nat) (a : Attestation) : List Failure :=
  if a.target.number < a.source.number then [.badRange index key]
  else rangeFaults .source a.source.number ++ rangeFaults .target a.target.number

def Attestation.listFaults (key : PublicKey) (index : Nat) (as : List Attestation) :
    List Failure :=
  (as.zipIdx index).flatMap fun entry => entry.1.faults key entry.2

def KeyHistory.faults (h : KeyHistory) : List Failure :=
  h.blocks.flatMap Block.faults ++ Attestation.listFaults h.key 0 h.attestations

theorem rangeFaults_eq_nil {quantity : Quantity} {n : UInt64} :
    rangeFaults quantity n = [] ↔ n.toNat < storeLimit := by
  simp [rangeFaults]

theorem rangeFaults_eq_single {quantity : Quantity} {n : UInt64}
    (high : rangeFaults quantity n ≠ []) : rangeFaults quantity n = [.outOfRange quantity n] :=
  if_neg (mt rangeFaults_eq_nil.mpr high)

theorem storable_barring (quantity : Quantity) (n : UInt64) :
    storable quantity n = barring (rangeFaults quantity n) (n.toNat : Int) := by
  simp only [storable, rangeFaults]
  split <;> rfl

theorem Block.faults_eq_nil {b : Block} : b.faults = [] ↔ b.Fits := rangeFaults_eq_nil

theorem Attestation.faults_eq_nil {key : PublicKey} {index : Nat} {a : Attestation} :
    a.faults key index = [] ↔ a.Fits ∧ a.source.number ≤ a.target.number := by
  unfold Attestation.faults
  split
  · rename_i inverted
    exact iff_of_false nofun fun good => UInt64.not_le.mpr inverted good.2
  · rename_i forward
    rw [List.append_eq_nil_iff, rangeFaults_eq_nil, rangeFaults_eq_nil]
    exact (and_iff_left (UInt64.not_lt.mp forward)).symm

theorem Block.row_barring (b : Block) : Ledger.blockRow b = barring b.faults b.row := by
  rw [Ledger.blockRow, storable_barring]
  exact barring_last fun _ => rfl

theorem Attestation.row_barring {a : Attestation} (range : ¬ a.target.number < a.source.number)
    (key : PublicKey) (index : Nat) :
    Ledger.attestationRow a = barring (a.faults key index) a.row := by
  rw [Ledger.attestationRow, storable_barring, storable_barring, faults, if_neg range]
  refine barring_bind fun _ => ?_
  exact barring_last fun _ => rfl

/-- A history that can be imported whole. -/
structure KeyHistory.Good (h : KeyHistory) : Prop where
  blocks : ∀ b ∈ h.blocks, b.Fits
  votes : ∀ a ∈ h.attestations, a.Fits ∧ a.source.number ≤ a.target.number

theorem Attestation.listFaults_cons (key : PublicKey) (index : Nat) (a : Attestation)
    (as : List Attestation) :
    listFaults key index (a :: as) = a.faults key index ++ listFaults key (index + 1) as := rfl

theorem Attestation.listFaults_eq_nil {key : PublicKey} {index : Nat} {as : List Attestation} :
    listFaults key index as = [] ↔ ∀ a ∈ as, a.Fits ∧ a.source.number ≤ a.target.number := by
  induction as generalizing index with
  | nil => exact iff_of_true rfl nofun
  | cons a as ih =>
    rw [listFaults_cons, List.append_eq_nil_iff, faults_eq_nil, ih, List.forall_mem_cons]

theorem Block.flatMap_faults_eq_nil {bs : List Block} :
    bs.flatMap faults = [] ↔ ∀ b ∈ bs, b.Fits :=
  List.flatMap_eq_nil_iff.trans (forall₂_congr fun _ _ => faults_eq_nil)

theorem KeyHistory.faults_eq_nil {h : KeyHistory} : h.faults = [] ↔ h.Good := by
  rw [faults, List.append_eq_nil_iff, Block.flatMap_faults_eq_nil, Attestation.listFaults_eq_nil]
  exact ⟨fun ⟨blocks, votes⟩ => ⟨blocks, votes⟩, fun good => ⟨good.blocks, good.votes⟩⟩

def Ledger.networkFaults (l : Ledger) (network : Root) : List Failure :=
  match l.readNetwork with
  | .ok (some stored) => if network = stored then [] else [.otherNetwork network stored]
  | _ => []

/-- All that a ledger objects to in a document. -/
def Document.faults (d : Document) (l : Ledger) : List Failure :=
  l.networkFaults d.metadata.network ++ d.histories.flatMap KeyHistory.faults

end SlashGuard
