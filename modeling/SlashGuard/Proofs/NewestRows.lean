import SlashGuard.Proofs.Order
import SlashGuard.Proofs.PruningRules

/-! The newest rows of a history. Rows are in order, so the newest stand at the end, and what lies
at or above a number is an end of them. Where the store can count the rows pruning never fails. -/
namespace SlashGuard

section Ends

variable {α : Type} {f : α → Int} {xs ys zs : List α} {x m : α} {i : Nat} {low : Int}

theorem exists_split (ascending : xs.Pairwise fun x y => f x ≤ f y) (low : Int) :
    ∃ ys, xs = ys ++ xs.filter (fun x => low ≤ f x) ∧ ∀ y ∈ ys, f y < low := by
  induction xs with
  | nil => exact ⟨[], rfl, nofun⟩
  | cons x xs ih =>
    obtain ⟨first, rest⟩ := List.pairwise_cons.mp ascending
    by_cases reached : low ≤ f x
    · have all : ∀ y ∈ x :: xs, decide (low ≤ f y) = true := by
        intro y hy
        rcases List.mem_cons.mp hy with rfl | hy
        · exact decide_eq_true reached
        · exact decide_eq_true (Int.le_trans reached (first y hy))
      exact ⟨[], (List.filter_eq_self.mpr all).symm, nofun⟩
    · obtain ⟨ys, whole, below⟩ := ih rest
      refine ⟨x :: ys, ?_, ?_⟩
      · rw [List.filter_cons_of_neg (by simpa using reached), List.cons_append, ← whole]
      · intro y hy
        rcases List.mem_cons.mp hy with rfl | hy
        · omega
        · exact below y hy

theorem exists_newest (ascending : xs.Pairwise fun x y => f x ≤ f y) (row : xs[i]? = some m)
    (above : low ≤ f m) : ∃ ys, xs = ys ++ xs.filter (fun x => max low (f m) ≤ f x) ∧
      ys.length ≤ i ∧ ∀ y ∈ ys, f y < f m := by
  rw [Int.max_eq_right above]
  obtain ⟨ys, whole, below⟩ := exists_split ascending (f m)
  refine ⟨ys, whole, ?_, below⟩
  apply Nat.not_lt.mp
  intro inside
  rw [whole, List.getElem?_append_left inside] at row
  exact Int.lt_irrefl _ (below m (List.mem_of_getElem? row))

theorem le_length_of_strict (strict : (ys ++ zs).Pairwise fun x y => f x < f y)
    (row : (ys ++ zs)[i]? = some m) (reached : ∀ z ∈ zs, f m ≤ f z) : i ≤ ys.length := by
  apply Nat.not_lt.mp
  intro beyond
  obtain ⟨-, behind, -⟩ := List.pairwise_append.mp strict
  rw [List.getElem?_append_right (Nat.le_of_lt beyond)] at row
  cases zs with
  | nil => cases row
  | cons z zs =>
    obtain ⟨k, later⟩ : ∃ k, i - ys.length = k + 1 := ⟨i - ys.length - 1, by omega⟩
    rw [later, List.getElem?_cons_succ] at row
    have before := (List.pairwise_cons.mp behind).1 m (List.mem_of_getElem? row)
    have := reached z List.mem_cons_self
    omega

variable {k₁ k₂ : Nat} {m₁ m₂ : α}

theorem le_max_of_places (before : xs.Pairwise fun x y => f x ≤ max low (f y)) {j : Nat} {y : α}
    (order : i ≤ j) (row : xs[i]? = some x) (later : xs[j]? = some y) : f x ≤ max low (f y) := by
  obtain ⟨inside, rfl⟩ := List.getElem?_eq_some_iff.mp row
  obtain ⟨inside', rfl⟩ := List.getElem?_eq_some_iff.mp later
  rcases Nat.lt_or_eq_of_le order with lt | rfl
  · exact List.pairwise_iff_getElem.mp before i j inside inside' lt
  · exact Int.le_max_right _ _

theorem head_before {R : α → α → Prop} (ordered : xs.Pairwise R) (first : xs.head? = some x) {y : α}
    (member : y ∈ xs) : y = x ∨ R x y := by
  obtain ⟨rest, rfl⟩ := List.head?_eq_some_iff.mp first
  rcases List.mem_cons.mp member with same | later
  · exact .inl same
  · exact .inr ((List.pairwise_cons.mp ordered).1 y later)

/-- Two cuts end where one to the fewer rows does. If fewer rows are left than the second is to
keep, it cuts at the first that is left, which the floor has reached already. -/
theorem max_max_oldest (before : xs.Pairwise fun x y => f x ≤ max low (f y)) (whole : xs = ys ++ zs)
    (dropped : ∀ y ∈ ys, f y ≤ max low (f m₁))
    (head : ∀ z, zs.head? = some z → f z ≤ max low (f m₁))
    (first : xs[xs.length - min xs.length k₁]? = some m₁)
    (second : zs[zs.length - min zs.length k₂]? = some m₂)
    (single : xs[xs.length - min xs.length (min k₁ k₂)]? = some m) :
    max (max low (f m₁)) (f m₂) = max low (f m) := by
  have total := congrArg List.length whole
  rw [List.length_append] at total
  have lower : f m₁ ≤ max low (f m) := le_max_of_places before (by omega) first single
  rcases Nat.lt_or_ge zs.length k₂ with short | enough
  · have place : zs.length - min zs.length k₂ = 0 := by omega
    rw [place, ← List.head?_eq_getElem?] at second
    have reached := head m₂ second
    have upper : f m ≤ max low (f m₁) := by
      by_cases inside : xs.length - min xs.length (min k₁ k₂) < ys.length
      · rw [whole, List.getElem?_append_left (by rwa [← whole])] at single
        exact dropped m (List.mem_of_getElem? single)
      · have same : xs.length - min xs.length (min k₁ k₂) = xs.length - min xs.length k₁ := by
          omega
        rw [same, first] at single
        cases single
        exact Int.le_max_right _ _
    omega
  · have place : zs.length - min zs.length k₂ = xs.length - min xs.length k₂ - ys.length := by
      omega
    rw [place, ← List.getElem?_append_right (by omega), ← whole] at second
    have under : f m₂ ≤ max low (f m) := le_max_of_places before (by omega) second single
    rcases Nat.le_total k₁ k₂ with fewer | fewer
    · rw [Nat.min_eq_left fewer, first] at single
      cases single
      omega
    · rw [Nat.min_eq_right fewer, second] at single
      cases single
      omega

end Ends

theorem BlockRow.slot_le {a b : BlockRow} (before : a.place < b.place) : a.slot ≤ b.slot := by
  rcases List.cons_lt_cons_iff.mp before with lower | ⟨same, -⟩
  · exact Int.le_of_lt lower
  · exact Int.le_of_eq same

theorem AttestationRow.epochs_le {a b : AttestationRow} (before : a.place < b.place) :
    a.target < b.target ∨ a.target = b.target ∧ a.source ≤ b.source := by
  rcases List.cons_lt_cons_iff.mp before with lower | ⟨same, rest⟩
  · exact .inl lower
  · rcases List.cons_lt_cons_iff.mp rest with lower | ⟨begins, -⟩
    · exact .inr ⟨same, Int.le_of_lt lower⟩
    · exact .inr ⟨same, Int.le_of_eq begins⟩

namespace History

variable {h : History} {keep : Nat}

theorem Arranged.slots (arranged : h.Arranged) :
    h.blocks.Pairwise fun x y => x.slot ≤ y.slot :=
  arranged.blocks.imp BlockRow.slot_le

theorem Arranged.epochs (arranged : h.Arranged) : h.attestations.Pairwise fun x y =>
    x.target < y.target ∨ x.target = y.target ∧ x.source ≤ y.source :=
  arranged.votes.imp AttestationRow.epochs_le

/-- No more rows of a kind than the store can number. It numbers the rows of a table within the
range of its numbers, so it never holds more. -/
structure Countable (h : History) : Prop where
  blocks : h.blocks.length < storeLimit
  votes : h.attestations.length < storeLimit

instance (h : History) : Decidable h.Countable :=
  decidable_of_iff (h.blocks.length < storeLimit ∧ h.attestations.length < storeLimit)
    ⟨fun fits => ⟨fits.1, fits.2⟩, fun countable => ⟨countable.blocks, countable.votes⟩⟩

theorem toNat_place {n : Nat} (fits : n < storeLimit) (keep : Nat) :
    (UInt64.ofNat (n - keep)).toNat = n - keep := by
  simp only [storeLimit] at fits
  simp only [UInt64.toNat_ofNat']
  omega

theorem Countable.toNat_blockPlace (countable : h.Countable) (keep : Nat) :
    (h.blockPlace keep).toNat = h.blocks.length - keep := toNat_place countable.blocks keep

theorem Countable.toNat_votePlace (countable : h.Countable) (keep : Nat) :
    (h.votePlace keep).toNat = h.attestations.length - keep := toNat_place countable.votes keep

theorem Countable.pruned_eq (countable : h.Countable) (keep : Nat) : h.pruned keep =
    h.prune (h.blocks.length - keep) (h.attestations.length - keep) := by
  rw [pruned, countable.toNat_blockPlace, countable.toNat_votePlace]

theorem Countable.pruneFaults (countable : h.Countable) (positive : 1 ≤ keep) :
    h.pruneFaults keep = [] := by
  have blocks : rangeFaults .offset (h.blockPlace keep) = [] := by
    rw [rangeFaults_eq_nil, countable.toNat_blockPlace]
    exact Nat.lt_of_le_of_lt (Nat.sub_le _ _) countable.blocks
  have votes : rangeFaults .offset (h.votePlace keep) = [] := by
    rw [rangeFaults_eq_nil, countable.toNat_votePlace]
    exact Nat.lt_of_le_of_lt (Nat.sub_le _ _) countable.votes
  have nonzero : keep ≠ 0 := Nat.ne_of_gt positive
  simp only [History.pruneFaults, if_neg nonzero, blockFaults, voteFaults, blocks, votes, ite_self,
    List.append_nil]

theorem exists_oldest {α : Type} {xs : List α} (nonempty : xs ≠ []) (positive : 1 ≤ keep) :
    ∃ m, xs[xs.length - keep]? = some m := by
  have := List.length_pos_iff.mpr nonempty
  exact ⟨_, List.getElem?_eq_getElem (by omega)⟩

end History

end SlashGuard
