import SlashGuard.Proofs.Accounts
import SlashGuard.Proofs.Changes

/-! The operations of a ledger on one validator as functions of its history, for a registered
validator whose history is legible and records that fit the store. -/
namespace SlashGuard

theorem le_wordOf {v : Int} (h : InRange v) (n : UInt64) : n ≤ wordOf v ↔ (n.toNat : Int) ≤ v := by
  rw [UInt64.le_iff_toNat_le]
  have := toNat_wordOf h
  omega

theorem lt_wordOf {v : Int} (h : InRange v) (n : UInt64) : n < wordOf v ↔ (n.toNat : Int) < v := by
  rw [UInt64.lt_iff_toNat_lt]
  have := toNat_wordOf h
  omega

theorem max_wordOf {v w : Int} (hv : InRange v) (hw : InRange w) :
    max (wordOf v) (wordOf w) = wordOf (max v w) := by
  have back := toNat_wordOf hv
  have back' := toNat_wordOf hw
  have order : wordOf v ≤ wordOf w ↔ v ≤ w := by
    rw [UInt64.le_iff_toNat_le]
    omega
  change (if wordOf v ≤ wordOf w then wordOf w else wordOf v) = wordOf (if v ≤ w then w else v)
  by_cases le : v ≤ w
  · rw [if_pos le, if_pos (order.mpr le)]
  · rw [if_neg le, if_neg (mt order.mp le)]

theorem inRange_max {v w : Int} (hv : InRange v) (hw : InRange w) : InRange (max v w) := by
  simp only [InRange] at hv hw ⊢
  omega

namespace Ledger

variable {l : Ledger} {id : Int}

theorem conflictingBlock_eq (legible : (l.history id).Legible) {b : Block} (fits : b.Fits) :
    ∃ found, l.conflictingBlock id b = .ok found ∧
      found.isSome = ((l.history id).otherBlock b.row).isSome := by
  simp only [conflictingBlock, blockRow_eq fits, ok_bind]
  cases other : (l.history id).otherBlock b.row with
  | none => exact ⟨none, rfl, rfl⟩
  | some x =>
    obtain ⟨c, read, -⟩ := BlockRow.read_eq (legible.blocks x (List.mem_of_find?_eq_some other))
    exact ⟨some c, by simp only [read, ok_bind, pure_ok], rfl⟩

theorem readFound_eq {o : Option AttestationRow} (legible : ∀ x, o = some x → x.Legible) :
    ∃ found, readFound o = .ok found ∧ found.isSome = o.isSome := by
  cases o with
  | none => exact ⟨none, rfl, rfl⟩
  | some x =>
    obtain ⟨c, read, -⟩ := AttestationRow.read_eq (legible x rfl)
    exact ⟨some c, by rw [readFound, read]; rfl, rfl⟩

theorem readFound_leastBy (legible : (l.history id).Legible) (p : AttestationRow → Bool) :
    ∃ found, readFound (leastBy AttestationRow.searchPlace
        ((l.history id).attestations.filter p)) = .ok found ∧
      found.isSome = (leastBy AttestationRow.searchPlace
        ((l.history id).attestations.filter p)).isSome :=
  readFound_eq fun x hx => legible.attestations x (List.mem_filter.mp (leastBy_mem hx)).1

theorem doubleVote_eq (legible : (l.history id).Legible) {a : Attestation} (fits : a.Fits) :
    ∃ found, l.doubleVote id a.target a.root = .ok found ∧
      found.isSome = ((l.history id).otherVote a.row.target a.row.root).isSome := by
  simp only [doubleVote, storable_eq fits.2, ok_bind]
  exact readFound_leastBy legible _

theorem surrounding_eq (legible : (l.history id).Legible) {a : Attestation} (fits : a.Fits) :
    ∃ found, l.surrounding id a.source a.target = .ok found ∧
      found.isSome = ((l.history id).surrounding a.row.source a.row.target).isSome := by
  simp only [surrounding, storable_eq fits.1, storable_eq fits.2, ok_bind]
  exact readFound_leastBy legible _

theorem surrounded_eq (legible : (l.history id).Legible) {a : Attestation} (fits : a.Fits) :
    ∃ found, l.surrounded id a.source a.target = .ok found ∧
      found.isSome = ((l.history id).surrounded a.row.source a.row.target).isSome := by
  simp only [surrounded, storable_eq fits.1, storable_eq fits.2, ok_bind]
  exact readFound_leastBy legible _

theorem hasBlock_eq {b : Block} (fits : b.Fits) :
    l.hasBlock id b = .ok (decide (b.row ∈ (l.history id).blocks)) := by
  simp only [hasBlock, blockRow_eq fits]
  rfl

theorem hasAttestation_eq {a : Attestation} (fits : a.Fits) :
    l.hasAttestation id a = .ok (decide (a.row ∈ (l.history id).attestations)) := by
  simp only [hasAttestation, attestationRow_eq fits]
  rfl

theorem addBlock_eq (distinct : l.ids.Nodup) (registered : l.isRegistered id = true) {b : Block}
    (fits : b.Fits) : l.addBlock id b = .ok (!(l.history id).hasBlock b.row,
      l.put id ((l.history id).addBlock b.row)) := by
  simp only [addBlock, blockRow_eq fits, ok_bind, write_eq distinct registered]
  rfl

theorem addAttestation_eq (distinct : l.ids.Nodup) (registered : l.isRegistered id = true)
    {a : Attestation} (fits : a.Fits) : l.addAttestation id a =
      .ok (!(l.history id).hasAttestation a.row,
        l.put id ((l.history id).addAttestation a.row)) := by
  simp only [addAttestation, attestationRow_eq fits, ok_bind, write_eq distinct registered]
  rfl

theorem slot_any {low : Option Int} (range : ∀ v, low = some v → InRange v) (b : Block) :
    ((low.map wordOf).map Slot.mk).any (fun low => b.slot.number ≤ low.number) =
      low.any (b.row.slot ≤ ·) := by
  cases low with
  | none => rfl
  | some v => exact decide_eq_decide.mpr (le_wordOf (range v rfl) b.slot.number)

theorem source_any {low : Option Int} (range : ∀ v, low = some v → InRange v) (a : Attestation) :
    ((low.map wordOf).map Epoch.mk).any (fun low => a.source.number < low.number) =
      low.any (a.row.source < ·) := by
  cases low with
  | none => rfl
  | some v => exact decide_eq_decide.mpr (lt_wordOf (range v rfl) a.source.number)

theorem target_any {low : Option Int} (range : ∀ v, low = some v → InRange v) (a : Attestation) :
    ((low.map wordOf).map Epoch.mk).any (fun low => a.target.number ≤ low.number) =
      low.any (a.row.target ≤ ·) := by
  cases low with
  | none => rfl
  | some v => exact decide_eq_decide.mpr (le_wordOf (range v rfl) a.target.number)

theorem raiseSlot_eq (distinct : l.ids.Nodup) (registered : l.isRegistered id = true) {v : Int}
    (range : InRange v) :
    l.raiseSlot id ⟨wordOf v⟩ = .ok (l.put id ((l.history id).raiseSlot v)) := by
  simp only [raiseSlot, storable_wordOf range, ok_bind, write_eq distinct registered]

theorem raiseEpochs_eq (distinct : l.ids.Nodup) (registered : l.isRegistered id = true) {s t : Int}
    (hs : InRange s) (ht : InRange t) :
    l.raiseEpochs id ⟨wordOf s⟩ ⟨wordOf t⟩ = .ok (l.put id ((l.history id).raiseEpochs s t)) := by
  simp only [raiseEpochs, storable_wordOf hs, storable_wordOf ht, ok_bind,
    write_eq distinct registered]

end Ledger

end SlashGuard
