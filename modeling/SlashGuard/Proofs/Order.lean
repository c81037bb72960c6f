import SlashGuard.Proofs.Changes

/-! Rows are stored in the strict order of their places, and every change of a history keeps them
so. A list in this order is the only one with its members, so the order in which rows were stored
leaves no trace. -/
namespace SlashGuard

theorem notAfter_iff {xs ys : List Int} : notAfter xs ys = true ↔ ¬ ys < xs := by
  induction xs generalizing ys with
  | nil => simp [notAfter]
  | cons x xs ih =>
    cases ys with
    | nil => simp [notAfter]
    | cons y ys =>
      simp only [notAfter, Bool.or_eq_true, Bool.and_eq_true, decide_eq_true_eq, ih,
        List.cons_lt_cons_iff, not_or]
      constructor
      · rintro (lt | ⟨rfl, rest⟩)
        · exact ⟨by omega, fun ⟨same, _⟩ => by omega⟩
        · exact ⟨by omega, fun ⟨_, later⟩ => rest later⟩
      · rintro ⟨le, rest⟩
        by_cases same : x = y
        · exact .inr ⟨same, fun later => rest ⟨same.symm, later⟩⟩
        · exact .inl (by omega)

theorem byte_cast_inj {b c : UInt8} (h : (b.toNat : Int) = c.toNat) : b = c :=
  UInt8.toNat_inj.mp (Int.ofNat_inj.mp h)

theorem rank_injective {bs cs : List UInt8} (h : rank bs = rank cs) : bs = cs := by
  induction bs generalizing cs with
  | nil =>
    cases cs with
    | nil => rfl
    | cons c cs => cases h
  | cons b bs ih =>
    cases cs with
    | nil => cases h
    | cons c cs =>
      simp only [rank, List.map_cons, List.cons.injEq] at h
      rw [byte_cast_inj h.1, ih h.2]

theorem BlockRow.place_injective {a b : BlockRow} (h : a.place = b.place) : a = b := by
  obtain ⟨slot, root⟩ := a
  obtain ⟨slot', root'⟩ := b
  simp only [place, List.cons.injEq] at h
  rw [h.1, rank_injective h.2]

theorem AttestationRow.place_injective {a b : AttestationRow} (h : a.place = b.place) : a = b := by
  obtain ⟨source, target, root⟩ := a
  obtain ⟨source', target', root'⟩ := b
  simp only [place, List.cons.injEq] at h
  rw [h.1, h.2.1, rank_injective h.2.2]

def Rising {α : Type} (place : α → List Int) (xs : List α) : Prop :=
  xs.Pairwise fun x y => place x < place y

namespace Rising

variable {α : Type} {place : α → List Int} {xs ys : List α}

theorem nil : Rising place ([] : List α) := List.Pairwise.nil

theorem nodup (rising : Rising place xs) : xs.Nodup := by
  refine rising.imp ?_
  rintro x _ before rfl
  exact List.lt_irrefl _ before

theorem filter (rising : Rising place xs) (p : α → Bool) : Rising place (xs.filter p) :=
  List.Pairwise.filter p rising

theorem insertAt {x : α} (apart : ∀ y ∈ xs, place y ≠ place x) (rising : Rising place xs) :
    Rising place (SlashGuard.insertAt place x xs) := by
  induction xs with
  | nil => exact List.pairwise_singleton _ x
  | cons y ys ih =>
    obtain ⟨first, rest⟩ := List.pairwise_cons.mp rising
    have other := apart y List.mem_cons_self
    simp only [SlashGuard.insertAt, notAfter_iff]
    split
    · rename_i le
      have before : place x < place y := by
        rcases List.le_iff_lt_or_eq.mp (List.not_lt.mp le) with lt | same
        · exact lt
        · exact False.elim (other same.symm)
      refine List.pairwise_cons.mpr ⟨?_, rising⟩
      intro z hz
      rcases List.mem_cons.mp hz with rfl | hz
      · exact before
      · exact List.lt_trans before (first z hz)
    · rename_i after
      have before : place y < place x := Classical.not_not.mp after
      refine List.pairwise_cons.mpr ⟨?_, ih (fun z hz => apart z (List.mem_cons_of_mem y hz)) rest⟩
      intro z hz
      rcases mem_insertAt.mp hz with rfl | hz
      · exact before
      · exact first z hz

theorem eq_of_mem_iff (rising : Rising place xs) (rising' : Rising place ys)
    (same : ∀ x, x ∈ xs ↔ x ∈ ys) : xs = ys := by
  have perm : xs.Perm ys := (List.perm_ext_iff_of_nodup rising.nodup rising'.nodup).mpr same
  refine perm.eq_of_pairwise ?_ rising rising'
  intro x y _ _ before after
  exact False.elim (List.lt_asymm before after)

variable [DecidableEq α]

theorem insertNew (injective : ∀ {x y}, place x = place y → x = y) (x : α)
    (rising : Rising place xs) : Rising place (SlashGuard.insertNew place x xs) := by
  simp only [SlashGuard.insertNew]
  split
  · exact rising
  · rename_i fresh
    refine rising.insertAt ?_
    intro y hy same
    exact fresh (injective same ▸ hy)

theorem insertAll (injective : ∀ {x y}, place x = place y → x = y) (rs : List α)
    (rising : Rising place xs) : Rising place (SlashGuard.insertAll place rs xs) := by
  induction rs generalizing xs with
  | nil => exact rising
  | cons r rs ih => exact ih (rising.insertNew injective r)

/-- Rows that are put in their places in any order, each once or more, give one list. -/
theorem insertAll_congr (injective : ∀ {x y}, place x = place y → x = y) {rs ss : List α}
    (rising : Rising place xs) (same : ∀ x, x ∈ rs ↔ x ∈ ss) :
    SlashGuard.insertAll place rs xs = SlashGuard.insertAll place ss xs := by
  refine (rising.insertAll injective rs).eq_of_mem_iff (rising.insertAll injective ss) ?_
  intro x
  rw [mem_insertAll, mem_insertAll, same x]

theorem insertAll_nil (injective : ∀ {x y}, place x = place y → x = y)
    (rising : Rising place xs) : SlashGuard.insertAll place xs [] = xs := by
  refine (nil.insertAll injective xs).eq_of_mem_iff rising ?_
  intro x
  simp [mem_insertAll]

end Rising

namespace History

structure Arranged (h : History) : Prop where
  blocks : Rising BlockRow.place h.blocks
  votes : Rising AttestationRow.place h.attestations

theorem Arranged.empty : History.empty.Arranged := ⟨.nil, .nil⟩

theorem Arranged.signBlock {h : History} (arranged : h.Arranged) (r : BlockRow) :
    (h.signBlock r).Arranged := by
  obtain ⟨blocks, votes, -⟩ := signBlock_parts r h
  constructor
  · rw [blocks]
    exact arranged.blocks.insertNew BlockRow.place_injective r
  · rw [votes]
    exact arranged.votes

theorem Arranged.signAttestation {h : History} (arranged : h.Arranged) (r : AttestationRow) :
    (h.signAttestation r).Arranged := by
  obtain ⟨blocks, votes, -⟩ := signAttestation_parts r h
  constructor
  · rw [blocks]
    exact arranged.blocks
  · rw [votes]
    exact arranged.votes.insertNew AttestationRow.place_injective r

theorem Arranged.pruneBlocks {h : History} (arranged : h.Arranged) (place : Nat) :
    (h.pruneBlocks place).Arranged := by
  rcases pruneBlocks_cases place h with same | ⟨low, m, -, -, blocks, votes, -⟩
  · rwa [same]
  · constructor
    · rw [blocks]
      exact arranged.blocks.filter _
    · rw [votes]
      exact arranged.votes

theorem Arranged.pruneAttestations {h : History} (arranged : h.Arranged) (place : Nat) :
    (h.pruneAttestations place).Arranged := by
  rcases pruneAttestations_cases place h with same | ⟨s, t, m, -, -, -, blocks, votes, -⟩
  · rwa [same]
  · constructor
    · rw [blocks]
      exact arranged.blocks
    · rw [votes]
      exact arranged.votes.filter _

theorem Arranged.importBlocks {h : History} (arranged : h.Arranged) (rs : List BlockRow) :
    (h.importBlocks rs).Arranged := by
  rcases importBlocks_cases rs h with ⟨-, same⟩ | ⟨top, -, -, blocks, votes, -⟩
  · rwa [same]
  · constructor
    · rw [blocks]
      exact arranged.blocks.insertAll BlockRow.place_injective rs
    · rw [votes]
      exact arranged.votes

theorem Arranged.importAttestations {h : History} (arranged : h.Arranged)
    (rs : List AttestationRow) : (h.importAttestations rs).Arranged := by
  rcases importAttestations_cases rs h with ⟨-, same⟩ | ⟨s, -, t, -, -, -, blocks, votes, -⟩
  · rwa [same]
  · constructor
    · rw [blocks]
      exact arranged.blocks
    · rw [votes]
      exact arranged.votes.insertAll AttestationRow.place_injective rs

theorem Step.arranged {told : Record → Prop} {h h' : History} (step : Step told h h')
    (arranged : h.Arranged) : h'.Arranged := by
  cases step with
  | signBlock b _ _ _ => exact arranged.signBlock b.row
  | signAttestation a _ _ _ => exact arranged.signAttestation a.row
  | prune place place' => exact (arranged.pruneBlocks place).pruneAttestations place'
  | importBlocks bs _ _ => exact arranged.importBlocks (bs.map Block.row)
  | importAttestations as _ _ => exact arranged.importAttestations (as.map Attestation.row)

end History

end SlashGuard
