import SlashGuard.Proofs.Rows
import SlashGuard.Verdict

/-! What makes two records slashable, and the verdict on a record as a function of the history
alone. Allowed as valid means that no stored record speaks against it and the floor lies below;
allowed as the same data means that it is stored and no stored record speaks against it. -/
namespace SlashGuard

def AttestationRow.Spans (a b : AttestationRow) : Prop :=
  a.source < b.source ∧ b.target < a.target

/-- Two votes that must not both be signed: for one target with two roots, or one spans the
other. -/
def AttestationRow.Slashable (a b : AttestationRow) : Prop :=
  (a.target = b.target ∧ a.root ≠ b.root) ∨ a.Spans b ∨ b.Spans a

def BlockRow.Slashable (a b : BlockRow) : Prop := a.slot = b.slot ∧ a.root ≠ b.root

theorem leastBy_isSome {α : Type} (place : α → List Int) (xs : List α) :
    (leastBy place xs).isSome = true ↔ xs ≠ [] := by
  cases xs with
  | nil => simp [leastBy]
  | cons x xs =>
    simp only [leastBy]
    split
    · simp
    · split <;> simp

theorem leastBy_mem {α : Type} {place : α → List Int} {xs : List α} {x : α}
    (h : leastBy place xs = some x) : x ∈ xs := by
  induction xs generalizing x with
  | nil => simp [leastBy] at h
  | cons y ys ih =>
    simp only [leastBy] at h
    split at h
    · cases h
      exact List.mem_cons_self
    · rename_i z hz
      split at h
      · cases h
        exact List.mem_cons_self
      · cases h
        exact List.mem_cons_of_mem y (ih hz)

namespace History

theorem otherBlock_isSome {h : History} {r : BlockRow} :
    (h.otherBlock r).isSome = true ↔ ∃ x ∈ h.blocks, x.Slashable r := by
  simp [otherBlock, List.find?_isSome, BlockRow.Slashable]

theorem otherVote_isSome {h : History} {r : AttestationRow} :
    (h.otherVote r.target r.root).isSome = true ↔
      ∃ x ∈ h.attestations, x.target = r.target ∧ x.root ≠ r.root := by
  simp only [otherVote, leastBy_isSome, ne_eq, List.filter_eq_nil_iff]
  simp

theorem surrounding_isSome {h : History} {r : AttestationRow} :
    (h.surrounding r.source r.target).isSome = true ↔ ∃ x ∈ h.attestations, x.Spans r := by
  simp only [surrounding, leastBy_isSome, ne_eq, List.filter_eq_nil_iff]
  simp [AttestationRow.Spans]

theorem surrounded_isSome {h : History} {r : AttestationRow} :
    (h.surrounded r.source r.target).isSome = true ↔ ∃ x ∈ h.attestations, r.Spans x := by
  simp only [surrounded, leastBy_isSome, ne_eq, List.filter_eq_nil_iff]
  simp [AttestationRow.Spans]

def judgeBlock (h : History) (r : BlockRow) : Verdict :=
  if (h.otherBlock r).isSome then .refused .doubleProposal
  else if r ∈ h.blocks then .allowed .sameData
  else if h.floorOrEmpty.slot.any (r.slot ≤ ·) then .refused .tooOld
  else .allowed .valid

def judgeAttestation (h : History) (r : AttestationRow) : Verdict :=
  if r.target < r.source then .refused .invalidRange
  else if (h.otherVote r.target r.root).isSome then .refused .doubleVote
  else if (h.surrounding r.source r.target).isSome then .refused .surrounded
  else if (h.surrounded r.source r.target).isSome then .refused .surrounds
  else if r ∈ h.attestations then .allowed .sameData
  else if h.floorOrEmpty.source.any (r.source < ·) || h.floorOrEmpty.target.any (r.target ≤ ·)
  then .refused .tooOld
  else .allowed .valid

def BlockOpen (h : History) (r : BlockRow) : Prop :=
  ∀ low, h.floorOrEmpty.slot = some low → low < r.slot

def VoteOpen (h : History) (r : AttestationRow) : Prop :=
  (∀ low, h.floorOrEmpty.source = some low → low ≤ r.source) ∧
    ∀ low, h.floorOrEmpty.target = some low → low < r.target

theorem blockOpen_iff {h : History} {r : BlockRow} :
    h.BlockOpen r ↔ ¬ h.floorOrEmpty.slot.any (r.slot ≤ ·) = true := by
  cases hs : h.floorOrEmpty.slot with
  | none => simp [BlockOpen, hs]
  | some low => simp [BlockOpen, hs]

theorem voteOpen_iff {h : History} {r : AttestationRow} :
    h.VoteOpen r ↔ ¬ (h.floorOrEmpty.source.any (r.source < ·) ||
      h.floorOrEmpty.target.any (r.target ≤ ·)) = true := by
  cases hs : h.floorOrEmpty.source with
  | none => cases ht : h.floorOrEmpty.target with
    | none => simp [VoteOpen, hs, ht]
    | some low => simp [VoteOpen, hs, ht]
  | some low => cases ht : h.floorOrEmpty.target with
    | none => simp [VoteOpen, hs, ht]
    | some high => simp [VoteOpen, hs, ht]

/-- Where no stored block conflicts, being stored decides, and then the floor. -/
theorem judgeBlock_of_apart {h : History} {r : BlockRow}
    (apart : ∀ x ∈ h.blocks, ¬ x.Slashable r) :
    h.judgeBlock r = if r ∈ h.blocks then .allowed .sameData
      else if h.floorOrEmpty.slot.any (r.slot ≤ ·) then .refused .tooOld else .allowed .valid := by
  have none : ¬ (h.otherBlock r).isSome = true := by
    rw [otherBlock_isSome]
    exact fun ⟨x, hx, clash⟩ => apart x hx clash
  rw [judgeBlock, if_neg none]

theorem judgeBlock_ne_invalidRange {h : History} {r : BlockRow} :
    h.judgeBlock r ≠ .refused .invalidRange := by
  unfold judgeBlock
  split
  · nofun
  · split
    · nofun
    · split <;> nofun

theorem apart_of_judgeBlock {h : History} {r : BlockRow} {safe : Safe}
    (allowed : h.judgeBlock r = .allowed safe) : ∀ x ∈ h.blocks, ¬ x.Slashable r := by
  intro x hx clash
  rw [judgeBlock, if_pos (otherBlock_isSome.mpr ⟨x, hx, clash⟩)] at allowed
  cases allowed

theorem judgeBlock_sameData {h : History} {r : BlockRow} :
    h.judgeBlock r = .allowed .sameData ↔ r ∈ h.blocks ∧ ∀ x ∈ h.blocks, ¬ x.Slashable r := by
  constructor
  · intro same
    have apart := apart_of_judgeBlock same
    rw [judgeBlock_of_apart apart] at same
    split at same
    · rename_i stored
      exact ⟨stored, apart⟩
    · split at same <;> cases same
  · rintro ⟨stored, apart⟩
    rw [judgeBlock_of_apart apart, if_pos stored]

theorem judgeBlock_valid {h : History} {r : BlockRow} :
    h.judgeBlock r = .allowed .valid ↔ (∀ x ∈ h.blocks, x.slot ≠ r.slot) ∧ h.BlockOpen r := by
  constructor
  · intro valid
    have apart := apart_of_judgeBlock valid
    rw [judgeBlock_of_apart apart] at valid
    split at valid
    · cases valid
    · rename_i fresh
      split at valid
      · cases valid
      · rename_i above
        refine ⟨fun x hx slot => ?_, blockOpen_iff.mpr above⟩
        by_cases root : x.root = r.root
        · have same : x = r := by
            cases x
            cases r
            simp_all
          exact fresh (same ▸ hx)
        · exact apart x hx ⟨slot, root⟩
  · rintro ⟨empty, above⟩
    rw [judgeBlock_of_apart (fun x hx clash => empty x hx clash.1),
      if_neg (fun stored => empty r stored rfl), if_neg (blockOpen_iff.mp above)]

theorem judgeAttestation_of_apart {h : History} {r : AttestationRow}
    (range : r.source ≤ r.target) (apart : ∀ x ∈ h.attestations, ¬ x.Slashable r) :
    h.judgeAttestation r = if r ∈ h.attestations then .allowed .sameData
      else if h.floorOrEmpty.source.any (r.source < ·) || h.floorOrEmpty.target.any (r.target ≤ ·)
      then .refused .tooOld else .allowed .valid := by
  have single : ¬ (h.otherVote r.target r.root).isSome = true := by
    rw [otherVote_isSome]
    exact fun ⟨x, hx, clash⟩ => apart x hx (.inl clash)
  have inner : ¬ (h.surrounding r.source r.target).isSome = true := by
    rw [surrounding_isSome]
    exact fun ⟨x, hx, clash⟩ => apart x hx (.inr (.inl clash))
  have outer : ¬ (h.surrounded r.source r.target).isSome = true := by
    rw [surrounded_isSome]
    exact fun ⟨x, hx, clash⟩ => apart x hx (.inr (.inr clash))
  rw [judgeAttestation, if_neg (Int.not_lt.mpr range), if_neg single, if_neg inner, if_neg outer]

theorem judgeAttestation_invalidRange {h : History} {r : AttestationRow} :
    h.judgeAttestation r = .refused .invalidRange ↔ r.target < r.source := by
  unfold judgeAttestation
  split
  · rename_i inverted
    exact iff_of_true rfl inverted
  · rename_i range
    refine iff_of_false ?_ range
    grind

theorem range_of_judgeAttestation {h : History} {r : AttestationRow} {v : Verdict}
    (answered : h.judgeAttestation r = v) (other : v ≠ .refused .invalidRange) :
    r.source ≤ r.target := by
  apply Int.not_lt.mp
  intro inverted
  exact other (answered.symm.trans (judgeAttestation_invalidRange.mpr inverted))

theorem apart_of_judgeAttestation {h : History} {r : AttestationRow} {safe : Safe}
    (allowed : h.judgeAttestation r = .allowed safe) :
    ∀ x ∈ h.attestations, ¬ x.Slashable r := by
  have range := range_of_judgeAttestation allowed nofun
  rw [judgeAttestation, if_neg (Int.not_lt.mpr range)] at allowed
  rintro x hx (clash | clash | clash)
  · rw [if_pos (otherVote_isSome.mpr ⟨x, hx, clash⟩)] at allowed
    cases allowed
  · rw [if_pos (surrounding_isSome.mpr ⟨x, hx, clash⟩)] at allowed
    split at allowed <;> cases allowed
  · rw [if_pos (surrounded_isSome.mpr ⟨x, hx, clash⟩)] at allowed
    split at allowed
    · cases allowed
    · split at allowed <;> cases allowed

theorem judgeAttestation_sameData {h : History} {r : AttestationRow} :
    h.judgeAttestation r = .allowed .sameData ↔
      r.source ≤ r.target ∧ r ∈ h.attestations ∧ ∀ x ∈ h.attestations, ¬ x.Slashable r := by
  constructor
  · intro same
    have range := range_of_judgeAttestation same nofun
    have apart := apart_of_judgeAttestation same
    rw [judgeAttestation_of_apart range apart] at same
    split at same
    · rename_i stored
      exact ⟨range, stored, apart⟩
    · split at same <;> cases same
  · rintro ⟨range, stored, apart⟩
    rw [judgeAttestation_of_apart range apart, if_pos stored]

theorem judgeAttestation_valid {h : History} {r : AttestationRow} :
    h.judgeAttestation r = .allowed .valid ↔ r.source ≤ r.target ∧ r ∉ h.attestations ∧
      (∀ x ∈ h.attestations, ¬ x.Slashable r) ∧ h.VoteOpen r := by
  constructor
  · intro valid
    have range := range_of_judgeAttestation valid nofun
    have apart := apart_of_judgeAttestation valid
    rw [judgeAttestation_of_apart range apart] at valid
    split at valid
    · cases valid
    · rename_i fresh
      split at valid
      · cases valid
      · rename_i above
        exact ⟨range, fresh, apart, voteOpen_iff.mpr above⟩
  · rintro ⟨range, fresh, apart, above⟩
    rw [judgeAttestation_of_apart range apart, if_neg fresh, if_neg (voteOpen_iff.mp above)]

end History

end SlashGuard
