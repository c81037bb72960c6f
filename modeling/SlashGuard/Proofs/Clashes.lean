import Mathlib.Data.Finset.Card
import SlashGuard.Proofs.Order
import SlashGuard.Proofs.Tallies

/-! Counting clashes as rows come, each with what is there before it, finds one exactly if a row
that came clashes with any row that is there in the end. Where clashes are between the rows of one
group, their number depends only on which rows came. -/
namespace SlashGuard

section Harmless

variable {α : Type} {clash : α → α → Bool} {xs ys zs : List α}

/-- No row of `ys` that is not in `xs` clashes with a row of `ys`. -/
def Harmless (clash : α → α → Bool) (xs ys : List α) : Prop :=
  ∀ r ∈ ys, r ∉ xs → ∀ x ∈ ys, clash x r = false

theorem Harmless.refl (xs : List α) : Harmless clash xs xs :=
  fun _ here new => absurd here new

theorem harmless_trans_iff (symm : ∀ x y, clash x y = clash y x) (early : ∀ x ∈ xs, x ∈ ys)
    (late : ∀ y ∈ ys, y ∈ zs) :
    Harmless clash xs zs ↔ Harmless clash xs ys ∧ Harmless clash ys zs := by
  constructor
  · intro all
    exact ⟨fun r hr new x hx => all r (late r hr) new x (late x hx),
      fun r hr new x hx => all r hr (fun old => new (early r old)) x hx⟩
  · rintro ⟨first, second⟩ r hr new x hx
    by_cases before : r ∈ ys
    · by_cases before' : x ∈ ys
      · exact first r before new x before'
      · -- The other row came later, and met this one when it did.
        rw [symm]
        exact second x hx before' r hr
    · exact second r hr before x hx

end Harmless

namespace Tally

variable {α : Type} [DecidableEq α] {place : α → List Int} {clash : α → α → Bool}
  {r : α} {rs rs' xs : List α}

theorem insertAll_cons (r : α) (rs xs : List α) :
    insertAll place (r :: rs) xs = insertAll place rs (insertNew place r xs) := rfl

theorem all_append : all place clash (rs ++ rs') xs =
    (all place clash rs xs).add (all place clash rs' (insertAll place rs xs)) := by
  induction rs generalizing xs with
  | nil => simp [all, add, none, insertAll]
  | cons r rs ih =>
    rw [List.cons_append, all, ih, all, insertAll_cons]
    simp only [add, Nat.add_assoc]

theorem length_insertNew (clash : α → α → Bool) (r : α) (xs : List α) :
    (insertNew place r xs).length = (one clash r xs).new + xs.length := by
  by_cases known : r ∈ xs
  · simp only [insertNew, one, if_pos known, Nat.zero_add]
  · simp only [insertNew, one, if_neg known, (insertAt_perm place r xs).length_eq,
      List.length_cons, Nat.add_comm]

theorem length_insertAll (place : α → List Int) (clash : α → α → Bool) (rs xs : List α) :
    (insertAll place rs xs).length = (all place clash rs xs).new + xs.length := by
  induction rs generalizing xs with
  | nil => simp [insertAll, all, none]
  | cons r rs ih =>
    simp only [insertAll_cons, ih, length_insertNew clash, all, add]
    omega

theorem one_clashing_le_new : (one clash r xs).clashing ≤ (one clash r xs).new := by
  unfold one
  split
  · exact Nat.le_refl 0
  · split
    · exact Nat.le_refl 1
    · exact Nat.zero_le 1

theorem clashing_le_new (rs xs : List α) :
    (all place clash rs xs).clashing ≤ (all place clash rs xs).new := by
  induction rs generalizing xs with
  | nil => exact Nat.le_refl 0
  | cons r rs ih =>
    have first : (one clash r xs).clashing ≤ (one clash r xs).new := one_clashing_le_new
    have rest := ih (insertNew place r xs)
    simp only [all, add]
    omega

section Symmetric

variable (symm : ∀ x y, clash x y = clash y x) (irrefl : ∀ x, clash x x = false)

include irrefl in
theorem one_clashing_eq_zero :
    (one clash r xs).clashing = 0 ↔ Harmless clash xs (insertNew place r xs) := by
  by_cases known : r ∈ xs
  · simp only [one, insertNew, if_pos known, true_iff]
    exact .refl xs
  · have none : (one clash r xs).clashing = 0 ↔ ∀ x ∈ xs, clash x r = false := by
      simp [one, known]
    rw [none]
    constructor
    · intro clear y hy new x hx
      obtain rfl : y = r := (mem_insertNew.mp hy).resolve_right new
      rcases mem_insertNew.mp hx with rfl | hx
      · exact irrefl x
      · exact clear x hx
    · intro harmless x hx
      exact harmless r (mem_insertNew.mpr (.inl rfl)) known x (mem_insertNew.mpr (.inr hx))

include symm irrefl in
/-- No clash is counted exactly if no row that came clashes with any row in the end, be it one that
came later. -/
theorem all_clashing_eq_zero (rs xs : List α) :
    (all place clash rs xs).clashing = 0 ↔ Harmless clash xs (insertAll place rs xs) := by
  induction rs generalizing xs with
  | nil =>
    simp only [all, none, insertAll, List.foldl_nil, true_iff]
    exact .refl xs
  | cons r rs ih =>
    have early : ∀ x ∈ xs, x ∈ insertNew place r xs := fun x hx => mem_insertNew.mpr (.inr hx)
    have late : ∀ y ∈ insertNew place r xs, y ∈ insertAll place rs (insertNew place r xs) :=
      fun y hy => mem_insertAll.mpr (.inr hy)
    rw [insertAll_cons, harmless_trans_iff symm early late, ← one_clashing_eq_zero irrefl, ← ih,
      all, add, Nat.add_eq_zero_iff]

end Symmetric

section Groups

variable {β : Type} [DecidableEq β] {group : α → β}
  (clashes : ∀ x r, clash x r = true ↔ group x = group r ∧ x ≠ r)

def groups (group : α → β) (xs : List α) : Nat := (xs.map group).toFinset.card

include clashes in
/-- A new row clashes or begins a group. -/
theorem one_clashing_add_groups (place : α → List Int) (r : α) (xs : List α) :
    (one clash r xs).clashing + groups group (insertNew place r xs) =
      (one clash r xs).new + groups group xs := by
  by_cases known : r ∈ xs
  · simp only [one, insertNew, if_pos known]
  · have members : ((insertNew place r xs).map group).toFinset =
        insert (group r) (xs.map group).toFinset := by
      ext b
      simp only [List.mem_toFinset, List.mem_map, Finset.mem_insert, mem_insertNew]
      constructor
      · rintro ⟨x, rfl | hx, rfl⟩
        · exact .inl rfl
        · exact .inr ⟨x, hx, rfl⟩
      · rintro (rfl | ⟨x, hx, rfl⟩)
        · exact ⟨r, .inl rfl, rfl⟩
        · exact ⟨x, .inr hx, rfl⟩
    have met : xs.any (clash · r) = true ↔ group r ∈ (xs.map group).toFinset := by
      rw [List.any_eq_true, List.mem_toFinset, List.mem_map]
      constructor
      · rintro ⟨x, hx, clash⟩
        exact ⟨x, hx, ((clashes x r).mp clash).1⟩
      · rintro ⟨x, hx, same⟩
        exact ⟨x, hx, (clashes x r).mpr ⟨same, fun own => known (own ▸ hx)⟩⟩
    simp only [groups, members, one, if_neg known]
    by_cases begun : group r ∈ (xs.map group).toFinset
    · rw [if_pos (met.mpr begun), Finset.insert_eq_of_mem begun]
    · rw [if_neg (mt met.mp begun), Finset.card_insert_of_notMem begun]
      omega

include clashes in
theorem clashing_add_groups (place : α → List Int) (rs xs : List α) :
    (all place clash rs xs).clashing + groups group (insertAll place rs xs) =
      (all place clash rs xs).new + groups group xs := by
  induction rs generalizing xs with
  | nil => rfl
  | cons r rs ih =>
    have first := one_clashing_add_groups clashes place r xs
    have rest := ih (insertNew place r xs)
    simp only [insertAll_cons, all, add]
    omega

include clashes in
/-- The count depends on the rows that came, not on their order or how often they came. -/
theorem clashing_congr (injective : ∀ {x y}, place x = place y → x = y)
    (rising : Rising place xs) (same : ∀ x, x ∈ rs ↔ x ∈ rs') :
    (all place clash rs xs).clashing = (all place clash rs' xs).clashing := by
  have final : insertAll place rs xs = insertAll place rs' xs :=
    rising.insertAll_congr injective same
  have more := clashing_add_groups clashes place rs xs
  have more' := clashing_add_groups clashes place rs' xs
  have size := length_insertAll place clash rs xs
  have size' := length_insertAll place clash rs' xs
  rw [final] at more size
  omega

end Groups

end Tally

end SlashGuard
