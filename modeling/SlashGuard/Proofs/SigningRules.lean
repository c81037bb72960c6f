import SlashGuard.Signing
import SlashGuard.Proofs.Faults

/-! The rules of signing as a function of one history. Barring faults, a check answers the verdict
on the record, and only a fresh record is stored. It objects to validators that are not registered
and to numbers that do not fit the store. -/
namespace SlashGuard

/-- The history once a record was asked for, which is stored if it is fresh. -/
def History.asked (r : Record) (h : History) : History :=
  if h.judge r = .allowed .valid then h.sign r else h

def Record.rangeFaults : Record → List Failure
  | .block b => b.faults
  | .attestation a => SlashGuard.rangeFaults .target a.target.number

theorem Record.rangeFaults_eq_nil {r : Record} (range : ¬ r.Inverted) :
    r.rangeFaults = [] ↔ r.Fits := by
  cases r with
  | block b => exact Block.faults_eq_nil
  | attestation a =>
    have order := UInt64.le_iff_toNat_le.mp (UInt64.not_lt.mp range)
    refine SlashGuard.rangeFaults_eq_nil.trans ⟨fun target => ?_, fun fits => fits.2⟩
    exact ⟨Nat.lt_of_le_of_lt order target, target⟩

theorem Record.exists_rangeFault {r : Record} (range : ¬ r.Inverted) (high : ¬ r.Fits) :
    ∃ f, r.rangeFaults = [f] := by
  have objected := mt (rangeFaults_eq_nil range).mp high
  cases r with
  | block b => exact ⟨_, rangeFaults_eq_single objected⟩
  | attestation a => exact ⟨_, rangeFaults_eq_single objected⟩

namespace Signing

open Ledger

variable {l : Ledger} {id : Int}

theorem checkBlock_eq (legible : (l.history id).Legible) (distinct : l.ids.Nodup)
    (registered : l.isRegistered id = true) {b : Block} (fits : b.Fits) :
    checkBlock l id b = .ok ((l.history id).judgeBlock b.row,
      if (l.history id).judgeBlock b.row = .allowed .valid then
        l.put id ((l.history id).signBlock b.row) else l) := by
  obtain ⟨found, clash, isSome⟩ := conflictingBlock_eq legible fits
  have stored : (l.put id ((l.history id).addBlock b.row)).initSlot id b.slot =
      .ok (l.put id ((l.history id).signBlock b.row)) := by
    rw [initSlot, storable_eq fits, ok_bind, write_eq (by simpa using distinct)
      (by simpa using registered), put_put, history_put_self registered]
    rfl
  simp only [checkBlock, requireRegistered, registered, if_true, clash, ok_bind, hasBlock_eq fits,
    watermarkOrUnset_eq legible, addBlock_eq distinct registered fits, stored, isSome,
    slot_any legible.slot, History.judgeBlock]
  split
  · rfl
  · simp only [decide_eq_true_eq]
    split
    · rfl
    · split <;> rfl

theorem checkRange_eq (a : Attestation) : checkRange a.source a.target =
    if a.row.target < a.row.source then some (.refused .invalidRange) else none := by
  have order : a.row.target < a.row.source ↔ a.target.number < a.source.number := toNat_cast_lt
  simp only [checkRange, order]

theorem checkAttestation_eq (legible : (l.history id).Legible) (distinct : l.ids.Nodup)
    (registered : l.isRegistered id = true) {a : Attestation} (fits : a.Fits) :
    checkAttestation l id a = .ok ((l.history id).judgeAttestation a.row,
      if (l.history id).judgeAttestation a.row = .allowed .valid then
        l.put id ((l.history id).signAttestation a.row) else l) := by
  obtain ⟨vote, double, voteSome⟩ := doubleVote_eq legible fits
  obtain ⟨outer, outside, outerSome⟩ := surrounding_eq legible fits
  obtain ⟨inner, inside, innerSome⟩ := surrounded_eq legible fits
  have stored : (l.put id ((l.history id).addAttestation a.row)).initEpochs id a.source a.target =
      .ok (l.put id ((l.history id).signAttestation a.row)) := by
    rw [initEpochs, storable_eq fits.1, storable_eq fits.2, ok_bind, ok_bind,
      write_eq (by simpa using distinct) (by simpa using registered), put_put,
      history_put_self registered]
    rfl
  by_cases inverted : a.row.target < a.row.source
  · simp only [checkAttestation, checkRange_eq, if_pos inverted, History.judgeAttestation]
    rfl
  · simp only [checkAttestation, checkRange_eq, if_neg inverted, requireRegistered, registered,
      if_true, double, outside, inside, ok_bind, hasAttestation_eq fits,
      watermarkOrUnset_eq legible, addAttestation_eq distinct registered fits, stored, voteSome,
      outerSome, innerSome, source_any legible.source, target_any legible.target,
      History.judgeAttestation]
    split
    · rfl
    · split
      · rfl
      · split
        · rfl
        · simp only [decide_eq_true_eq]
          split
          · rfl
          · split <;> rfl

def check (l : Ledger) (id : Int) : Record → Except Failure (Verdict × Ledger)
  | .block b => checkBlock l id b
  | .attestation a => checkAttestation l id a

theorem check_eq (legible : (l.history id).Legible) (distinct : l.ids.Nodup)
    (registered : l.isRegistered id = true) {r : Record} (fits : r.Fits) :
    check l id r = .ok ((l.history id).judge r,
      if (l.history id).judge r = .allowed .valid then l.put id ((l.history id).sign r) else l) := by
  cases r with
  | block b => exact checkBlock_eq legible distinct registered fits
  | attestation a => exact checkAttestation_eq legible distinct registered fits

variable {r : Record}

def faults (registered : Bool) (id : Int) (r : Record) : List Failure :=
  if registered then r.rangeFaults else [.unregistered id]

theorem faults_eq_nil {registered : Bool} (range : ¬ r.Inverted) :
    faults registered id r = [] ↔ registered = true ∧ r.Fits := by
  cases registered <;> simp [faults, Record.rangeFaults_eq_nil range]

theorem check_unregistered (range : ¬ r.Inverted) (unknown : l.isRegistered id = false) :
    check l id r = .error (.unregistered id) := by
  have asked : requireRegistered l id = .error (.unregistered id) := by
    simp [requireRegistered, unknown]
  cases r with
  | block b => simp only [check, checkBlock, asked, error_bind]
  | attestation a =>
    have forward : ¬ a.target.number < a.source.number := range
    simp only [check, checkAttestation, checkRange, if_neg forward, asked, error_bind]

theorem check_outOfRange (range : ¬ r.Inverted) (registered : l.isRegistered id = true)
    {f : Failure} (objected : r.rangeFaults = [f]) : check l id r = .error f := by
  cases r with
  | block b =>
    have row : Ledger.blockRow b = .error f := by
      rw [b.row_barring, show b.faults = [f] from objected]
      rfl
    simp only [check, checkBlock, requireRegistered, registered, if_true, Ledger.conflictingBlock,
      row, ok_bind, error_bind]
  | attestation a =>
    have forward : ¬ a.target.number < a.source.number := range
    have target : storable .target a.target.number = .error f := by
      rw [storable_barring, show SlashGuard.rangeFaults .target a.target.number = [f] from objected]
      rfl
    simp only [check, checkAttestation, checkRange, if_neg forward, requireRegistered, registered,
      if_true, Ledger.doubleVote, target, ok_bind, error_bind]

theorem check_barring (legible : (l.history id).Legible) (distinct : l.ids.Nodup)
    (range : ¬ r.Inverted) : check l id r = barring (faults (l.isRegistered id) id r)
      ((l.history id).judge r, l.put id ((l.history id).asked r)) := by
  cases registered : l.isRegistered id with
  | false => exact check_unregistered range registered
  | true =>
    by_cases fits : r.Fits
    · rw [(faults_eq_nil range).mpr ⟨rfl, fits⟩, check_eq legible distinct registered fits]
      simp only [History.asked]
      split
      · rfl
      · rw [Ledger.put_history distinct]
        rfl
    · obtain ⟨f, objected⟩ := Record.exists_rangeFault range fits
      rw [check_outOfRange range registered objected, faults, if_pos rfl, objected]
      rfl

end Signing

end SlashGuard
