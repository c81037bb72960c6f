import SlashGuard.Proofs.Judgement

/-! What signing, pruning and import make of one history: rows are put in their places, once each,
and the floor is set or raised. -/
namespace SlashGuard

theorem insertAt_perm {α : Type} (place : α → List Int) (x : α) (xs : List α) :
    (insertAt place x xs).Perm (x :: xs) := by
  induction xs with
  | nil => exact List.Perm.refl _
  | cons y ys ih =>
    simp only [insertAt]
    split
    · exact List.Perm.refl _
    · exact (ih.cons y).trans (List.Perm.swap x y ys)

theorem mem_insertAt {α : Type} {place : α → List Int} {x y : α} {xs : List α} :
    y ∈ insertAt place x xs ↔ y = x ∨ y ∈ xs :=
  (insertAt_perm place x xs).mem_iff.trans List.mem_cons

theorem nodup_insertAt {α : Type} {place : α → List Int} {x : α} {xs : List α}
    (fresh : x ∉ xs) (distinct : xs.Nodup) : (insertAt place x xs).Nodup :=
  (insertAt_perm place x xs).nodup_iff.mpr (List.nodup_cons.mpr ⟨fresh, distinct⟩)

def insertNew {α : Type} [DecidableEq α] (place : α → List Int) (x : α) (xs : List α) : List α :=
  if x ∈ xs then xs else insertAt place x xs

def insertAll {α : Type} [DecidableEq α] (place : α → List Int) (rs xs : List α) : List α :=
  rs.foldl (fun xs x => insertNew place x xs) xs

section Rows

variable {α : Type} [DecidableEq α] {place : α → List Int}

theorem mem_insertNew {x y : α} {xs : List α} : y ∈ insertNew place x xs ↔ y = x ∨ y ∈ xs := by
  simp only [insertNew]
  split
  · rename_i stored
    constructor
    · exact .inr
    · rintro (rfl | hy)
      · exact stored
      · exact hy
  · exact mem_insertAt

theorem forall_mem_insertNew {P : α → Prop} {x : α} {xs : List α} (new : P x)
    (old : ∀ y ∈ xs, P y) : ∀ y ∈ insertNew place x xs, P y := by
  intro y hy
  rcases mem_insertNew.mp hy with rfl | hy
  · exact new
  · exact old y hy

theorem nodup_insertNew (x : α) {xs : List α} (distinct : xs.Nodup) :
    (insertNew place x xs).Nodup := by
  simp only [insertNew]
  split
  · exact distinct
  · rename_i fresh
    exact nodup_insertAt fresh distinct

theorem mem_insertAll {rs xs : List α} {y : α} :
    y ∈ insertAll place rs xs ↔ y ∈ rs ∨ y ∈ xs := by
  induction rs generalizing xs with
  | nil => simp [insertAll]
  | cons r rs ih =>
    rw [show insertAll place (r :: rs) xs = insertAll place rs (insertNew place r xs) from rfl, ih,
      mem_insertNew, List.mem_cons]
    constructor
    · rintro (hy | hy | hy)
      · exact .inl (.inr hy)
      · exact .inl (.inl hy)
      · exact .inr hy
    · rintro ((hy | hy) | hy)
      · exact .inr (.inl hy)
      · exact .inl hy
      · exact .inr (.inr hy)

theorem forall_mem_insertAll {P : α → Prop} {rs xs : List α} (new : ∀ y ∈ rs, P y)
    (old : ∀ y ∈ xs, P y) : ∀ y ∈ insertAll place rs xs, P y := by
  intro y hy
  rcases mem_insertAll.mp hy with hy | hy
  · exact new y hy
  · exact old y hy

theorem nodup_insertAll (rs : List α) {xs : List α} (distinct : xs.Nodup) :
    (insertAll place rs xs).Nodup := by
  induction rs generalizing xs with
  | nil => exact distinct
  | cons r rs ih => exact ih (nodup_insertNew r distinct)

end Rows

theorem exists_max {α : Type} (f : α → Int) {xs : List α} (nonempty : xs ≠ []) :
    ∃ x ∈ xs, (xs.map f).max? = some (f x) ∧ ∀ y ∈ xs, f y ≤ f x := by
  cases top : (xs.map f).max? with
  | none =>
    rw [List.max?_eq_none_iff, List.map_eq_nil_iff] at top
    exact False.elim (nonempty top)
  | some v =>
    obtain ⟨member, bound⟩ := List.max?_eq_some_iff.mp top
    obtain ⟨x, hx, rfl⟩ := List.mem_map.mp member
    exact ⟨x, hx, rfl, fun y hy => bound (f y) (List.mem_map_of_mem hy)⟩

namespace History

theorem addBlock_eq (r : BlockRow) (h : History) :
    h.addBlock r = { h with blocks := insertNew BlockRow.place r h.blocks } := by
  simp only [addBlock, insertNew]
  split <;> rfl

theorem addAttestation_eq (r : AttestationRow) (h : History) :
    h.addAttestation r =
      { h with attestations := insertNew AttestationRow.place r h.attestations } := by
  simp only [addAttestation, insertNew]
  split <;> rfl

/-- A fresh block is stored; the first one sets the slot of the floor. -/
def signBlock (r : BlockRow) (h : History) : History := (h.addBlock r).initSlot r.slot

def signAttestation (r : AttestationRow) (h : History) : History :=
  (h.addAttestation r).initEpochs r.source r.target

/-- Raises the slot of the floor to that of the block at a place, and drops what lies below. -/
def pruneBlocks (place : Nat) (h : History) : History :=
  match h.floorOrEmpty.slot, h.blocks[place]? with
  | some low, some mark => (h.raiseSlot (max low mark.slot)).dropBlocks (max low mark.slot)
  | _, _ => h

/-- Raises the epochs of the floor to those of the attestation at a place, and drops what lies
below in its target. -/
def pruneAttestations (place : Nat) (h : History) : History :=
  match h.floorOrEmpty.source, h.floorOrEmpty.target, h.attestations[place]? with
  | some source, some target, some mark =>
    (h.raiseEpochs (max source mark.source) (max target mark.target)).dropAttestations
      (max target mark.target)
  | _, _, _ => h

def prune (place place' : Nat) (h : History) : History :=
  (h.pruneBlocks place).pruneAttestations place'

def importBlocks (rs : List BlockRow) (h : History) : History :=
  let h' : History := { h with blocks := insertAll BlockRow.place rs h.blocks }
  match rs, h'.topSlot with
  | _ :: _, some top => h'.raiseSlot top
  | _, _ => h'

def importAttestations (rs : List AttestationRow) (h : History) : History :=
  let h' : History := { h with attestations := insertAll AttestationRow.place rs h.attestations }
  match rs, h'.topEpochs with
  | _ :: _, (some source, some target) => h'.raiseEpochs source target
  | _, _ => h'

end History

end SlashGuard
