import SlashGuard.Proofs.Judgement

/-! Blocks and attestations as one kind of record: which two must not both be signed, which are
stored, and the verdict on one that is asked for. -/
namespace SlashGuard

inductive Record
  | block (b : Block)
  | attestation (a : Attestation)
deriving DecidableEq, Repr

def Block.Slashable (a b : Block) : Prop := a.slot = b.slot ∧ a.root ≠ b.root

def Attestation.Surrounds (a b : Attestation) : Prop :=
  a.source.number < b.source.number ∧ b.target.number < a.target.number

def Attestation.Slashable (a b : Attestation) : Prop :=
  (a.target = b.target ∧ a.root ≠ b.root) ∨ a.Surrounds b ∨ b.Surrounds a

instance (a b : Block) : Decidable (a.Slashable b) := inferInstanceAs (Decidable (_ ∧ _))

instance (a b : Attestation) : Decidable (a.Surrounds b) := inferInstanceAs (Decidable (_ ∧ _))

instance (a b : Attestation) : Decidable (a.Slashable b) := inferInstanceAs (Decidable (_ ∨ _))

theorem Root.bytes_ne {r s : Root} : r.bytes ≠ s.bytes ↔ r ≠ s :=
  not_congr ⟨Root.ext_bytes, congrArg Root.bytes⟩

theorem toNat_cast_lt {m n : UInt64} : (m.toNat : Int) < n.toNat ↔ m < n :=
  Int.ofNat_lt.trans UInt64.lt_iff_toNat_lt.symm

theorem Slot.cast_inj {s t : Slot} : (s.number.toNat : Int) = t.number.toNat ↔ s = t :=
  ⟨fun same => congrArg Slot.mk (toNat_cast_inj same), fun same => by rw [same]⟩

theorem Epoch.cast_inj {s t : Epoch} : (s.number.toNat : Int) = t.number.toNat ↔ s = t :=
  ⟨fun same => congrArg Epoch.mk (toNat_cast_inj same), fun same => by rw [same]⟩

theorem Block.slashable_row {a b : Block} : a.row.Slashable b.row ↔ a.Slashable b :=
  and_congr Slot.cast_inj Root.bytes_ne

theorem Attestation.slashable_row {a b : Attestation} : a.row.Slashable b.row ↔ a.Slashable b :=
  or_congr (and_congr Epoch.cast_inj Root.bytes_ne)
    (or_congr (and_congr toNat_cast_lt toNat_cast_lt) (and_congr toNat_cast_lt toNat_cast_lt))

namespace Record

def Fits : Record → Prop
  | .block b => b.Fits
  | .attestation a => a.Fits

def Inverted : Record → Prop
  | .block _ => False
  | .attestation a => a.target.number < a.source.number

/-- Two records that a validator must not both sign. -/
def Slashable : Record → Record → Prop
  | .block a, .block b => a.Slashable b
  | .attestation a, .attestation b => a.Slashable b
  | _, _ => False

instance : (r s : Record) → Decidable (r.Slashable s)
  | .block a, .block b => inferInstanceAs (Decidable (a.Slashable b))
  | .attestation a, .attestation b => inferInstanceAs (Decidable (a.Slashable b))
  | .block _, .attestation _ => .isFalse id
  | .attestation _, .block _ => .isFalse id

theorem Slashable.symm {r s : Record} (h : r.Slashable s) : s.Slashable r := by
  cases r with
  | block a =>
    cases s with
    | block b => exact ⟨h.1.symm, h.2.symm⟩
    | attestation b => exact h
  | attestation a =>
    cases s with
    | block b => exact h
    | attestation b =>
      rcases h with ⟨target, root⟩ | outer | inner
      · exact .inl ⟨target.symm, root.symm⟩
      · exact .inr (.inr outer)
      · exact .inr (.inl inner)

theorem not_slashable_self (r : Record) : ¬ r.Slashable r := by
  cases r with
  | block a => exact fun clash => clash.2 rfl
  | attestation a =>
    rintro (⟨-, root⟩ | ⟨begins, -⟩ | ⟨begins, -⟩)
    · exact root rfl
    · exact UInt64.lt_irrefl _ begins
    · exact UInt64.lt_irrefl _ begins

end Record

namespace History

def Stores (h : History) : Record → Prop
  | .block b => b.row ∈ h.blocks
  | .attestation a => a.row ∈ h.attestations

theorem ne_empty_of_stores {h : History} {r : Record} (stored : h.Stores r) : h ≠ .empty := by
  rintro rfl
  cases r with
  | block b => cases stored
  | attestation a => cases stored

def judge (h : History) : Record → Verdict
  | .block b => h.judgeBlock b.row
  | .attestation a => h.judgeAttestation a.row

def Apart (h : History) (r : Record) : Prop := ∀ x, h.Stores x → ¬ x.Slashable r

def Open (h : History) : Record → Prop
  | .block b => h.BlockOpen b.row
  | .attestation a => h.VoteOpen a.row

theorem Legible.apart_block {h : History} (legible : h.Legible) {b : Block} :
    h.Apart (.block b) ↔ ∀ x ∈ h.blocks, ¬ x.Slashable b.row := by
  constructor
  · intro apart x hx clash
    obtain ⟨c, -, rfl⟩ := BlockRow.read_eq (legible.blocks x hx)
    exact apart (.block c) hx (Block.slashable_row.mp clash)
  · rintro apart (c | c) stored clash
    · exact apart c.row stored (Block.slashable_row.mpr clash)
    · exact clash

theorem Legible.apart_attestation {h : History} (legible : h.Legible) {a : Attestation} :
    h.Apart (.attestation a) ↔ ∀ x ∈ h.attestations, ¬ x.Slashable a.row := by
  constructor
  · intro apart x hx clash
    obtain ⟨c, -, rfl⟩ := AttestationRow.read_eq (legible.attestations x hx)
    exact apart (.attestation c) hx (Attestation.slashable_row.mp clash)
  · rintro apart (c | c) stored clash
    · exact clash
    · exact apart c.row stored (Attestation.slashable_row.mpr clash)

theorem judge_invalidRange {h : History} {r : Record} :
    h.judge r = .refused .invalidRange ↔ r.Inverted := by
  cases r with
  | block b => exact iff_of_false judgeBlock_ne_invalidRange id
  | attestation a => exact judgeAttestation_invalidRange.trans toNat_cast_lt

theorem not_inverted_of_judge {h : History} {r : Record} {safe : Safe}
    (allowed : h.judge r = .allowed safe) : ¬ r.Inverted := by
  intro inverted
  rw [judge_invalidRange.mpr inverted] at allowed
  cases allowed

theorem judge_empty {r : Record} (range : ¬ r.Inverted) : empty.judge r = .allowed .valid := by
  cases r with
  | block b => rfl
  | attestation a =>
    have forward : ¬ a.row.target < a.row.source := mt toNat_cast_lt.mp range
    rw [judge, judgeAttestation, if_neg forward]
    rfl

theorem Legible.apart_of_judge {h : History} (legible : h.Legible) {r : Record} {safe : Safe}
    (allowed : h.judge r = .allowed safe) : h.Apart r := by
  cases r with
  | block b => exact legible.apart_block.mpr (apart_of_judgeBlock allowed)
  | attestation a => exact legible.apart_attestation.mpr (apart_of_judgeAttestation allowed)

/-- Exactly the stored records that conflict with no other are approved as the same data. -/
theorem Legible.judge_sameData {h : History} (legible : h.Legible) {r : Record} :
    h.judge r = .allowed .sameData ↔ ¬ r.Inverted ∧ h.Stores r ∧ h.Apart r := by
  cases r with
  | block b =>
    simp only [Record.Inverted, not_false_eq_true, true_and, legible.apart_block]
    exact judgeBlock_sameData
  | attestation a =>
    rw [legible.apart_attestation]
    exact judgeAttestation_sameData.trans
      (and_congr_left' (Int.not_lt.symm.trans (not_congr toNat_cast_lt)))

/-- A stored record is refused for one that conflicts with it. -/
theorem Legible.clash_of_refused {h : History} (legible : h.Legible) {r : Record} {why : Refusal}
    (range : ¬ r.Inverted) (stored : h.Stores r) (refused : h.judge r = .refused why) :
    ∃ x, h.Stores x ∧ x.Slashable r := by
  apply Classical.byContradiction
  intro none
  have apart : h.Apart r := fun x hx clash => none ⟨x, hx, clash⟩
  rw [legible.judge_sameData.mpr ⟨range, stored, apart⟩] at refused
  cases refused

theorem open_of_valid {h : History} {r : Record} (valid : h.judge r = .allowed .valid) :
    h.Open r := by
  cases r with
  | block b => exact (judgeBlock_valid.mp valid).2
  | attestation a => exact (judgeAttestation_valid.mp valid).2.2.2

theorem Legible.judge_of_open {h : History} (legible : h.Legible) {r : Record}
    (range : ¬ r.Inverted) (apart : h.Apart r) (above : h.Open r) :
    ∃ safe, h.judge r = .allowed safe := by
  by_cases stored : h.Stores r
  · exact ⟨.sameData, legible.judge_sameData.mpr ⟨range, stored, apart⟩⟩
  · refine ⟨.valid, ?_⟩
    cases r with
    | block b =>
      have rows := legible.apart_block.mp apart
      have fresh : b.row ∉ h.blocks := stored
      simp only [judge, judgeBlock_of_apart rows]
      rw [if_neg fresh, if_neg (blockOpen_iff.mp above)]
    | attestation a =>
      have forward := Int.not_lt.mp (mt toNat_cast_lt.mp range)
      have rows := legible.apart_attestation.mp apart
      exact judgeAttestation_valid.mpr ⟨forward, stored, rows, above⟩

/-- Where nothing stored conflicts, a record that is neither stored nor open is too old. -/
theorem Legible.judge_tooOld {h : History} (legible : h.Legible) {r : Record}
    (range : ¬ r.Inverted) (apart : h.Apart r) (fresh : ¬ h.Stores r) (closed : ¬ h.Open r) :
    h.judge r = .refused .tooOld := by
  cases r with
  | block b =>
    have rows := legible.apart_block.mp apart
    have below := Decidable.of_not_not (mt blockOpen_iff.mpr closed)
    have absent : b.row ∉ h.blocks := fresh
    simp only [judge, judgeBlock_of_apart rows]
    rw [if_neg absent, if_pos below]
  | attestation a =>
    have forward := Int.not_lt.mp (mt toNat_cast_lt.mp range)
    have rows := legible.apart_attestation.mp apart
    have below := Decidable.of_not_not (mt voteOpen_iff.mpr closed)
    have absent : a.row ∉ h.attestations := fresh
    simp only [judge, judgeAttestation_of_apart forward rows]
    rw [if_neg absent, if_pos below]

end History

end SlashGuard
