import SlashGuard.Proofs.Floors

/-! The invariant of one history, and that every change keeps it. A mark of the floor is set
exactly while records of its kind are stored, and stands at one of them. Votes below the target
mark begin at or below the source mark, and votes above it rise in both epochs; so what pruning
drops lies under the floor that it leaves. -/
namespace SlashGuard

structure BlocksKept (bs : List BlockRow) (mark : Option Int) : Prop where
  distinct : bs.Nodup
  legible : ∀ b ∈ bs, b.Legible
  unmarked : mark = none → bs = []
  marked : ∀ low, mark = some low → ∃ b ∈ bs, b.slot = low

/-- Attestations under set epochs of a floor. The first above the target mark was checked against
all that are stored below it. -/
structure EpochsHeld (vs : List AttestationRow) (source target : Int) : Prop where
  range : InRange source
  reached : ∃ a ∈ vs, a.target = target ∧ a.source ≤ source
  under : ∀ a ∈ vs, a.target < target → a.source ≤ source
  rising : ∀ a ∈ vs, ∀ b ∈ vs, target < b.target → a.target < b.target → a.source ≤ b.source

structure VotesKept (vs : List AttestationRow) (source target : Option Int) : Prop where
  distinct : vs.Nodup
  legible : ∀ a ∈ vs, a.Legible
  ordered : ∀ a ∈ vs, a.source ≤ a.target
  marks : (source = none ∧ target = none ∧ vs = []) ∨
    ∃ s t, source = some s ∧ target = some t ∧ EpochsHeld vs s t

structure History.Kept (h : History) : Prop where
  blocks : BlocksKept h.blocks h.floorOrEmpty.slot
  votes : VotesKept h.attestations h.floorOrEmpty.source h.floorOrEmpty.target

namespace BlocksKept

variable {bs : List BlockRow} {mark : Option Int}

theorem inRange (kept : BlocksKept bs mark) {low : Int} (hlow : mark = some low) :
    InRange low := by
  obtain ⟨b, hb, rfl⟩ := kept.marked low hlow
  exact (kept.legible b hb).1

theorem sign (kept : BlocksKept bs mark) {r : BlockRow} (legible : r.Legible) :
    BlocksKept (insertNew BlockRow.place r bs) (some (mark.getD r.slot)) where
  distinct := nodup_insertNew r kept.distinct
  legible := forall_mem_insertNew legible kept.legible
  unmarked := nofun
  marked := by
    intro low hlow
    cases Option.some.inj hlow
    cases hm : mark with
    | none => exact ⟨r, mem_insertNew.mpr (.inl rfl), rfl⟩
    | some low =>
      obtain ⟨b, hb, slot⟩ := kept.marked low hm
      exact ⟨b, mem_insertNew.mpr (.inr hb), slot⟩

theorem prune {low : Int} (kept : BlocksKept bs (some low)) {m : BlockRow} (hm : m ∈ bs) :
    BlocksKept (bs.filter fun b => max low m.slot ≤ b.slot) (some (max low m.slot)) where
  distinct := kept.distinct.filter _
  legible := fun b hb => kept.legible b (List.mem_filter.mp hb).1
  unmarked := nofun
  marked := by
    intro floor hfloor
    cases Option.some.inj hfloor
    obtain ⟨b, hb, slot⟩ := kept.marked low rfl
    by_cases higher : low ≤ m.slot
    · exact ⟨m, List.mem_filter.mpr ⟨hm, by simp; omega⟩, by omega⟩
    · exact ⟨b, List.mem_filter.mpr ⟨hb, by simp; omega⟩, by omega⟩

theorem merge (kept : BlocksKept bs mark) {rs : List BlockRow}
    (legible : ∀ r ∈ rs, r.Legible) {top : BlockRow}
    (member : top ∈ insertAll BlockRow.place rs bs)
    (bound : ∀ b ∈ insertAll BlockRow.place rs bs, b.slot ≤ top.slot) :
    BlocksKept (insertAll BlockRow.place rs bs) (some (max (mark.getD top.slot) top.slot)) where
  distinct := nodup_insertAll rs kept.distinct
  legible := forall_mem_insertAll legible kept.legible
  unmarked := nofun
  marked := by
    intro floor hfloor
    cases Option.some.inj hfloor
    refine ⟨top, member, ?_⟩
    cases hm : mark with
    | none => simp
    | some low =>
      obtain ⟨b, hb, slot⟩ := kept.marked low hm
      have le := bound b (mem_insertAll.mpr (.inr hb))
      simp only [Option.getD_some]
      omega

end BlocksKept

namespace EpochsHeld

variable {vs : List AttestationRow} {source target : Int}

theorem sign (held : EpochsHeld vs source target) {r : AttestationRow}
    (apart : ∀ x ∈ vs, ¬ x.Slashable r) (low : source ≤ r.source) (high : target < r.target) :
    EpochsHeld (insertNew AttestationRow.place r vs) source target where
  range := held.range
  reached := by
    obtain ⟨a, ha, reach⟩ := held.reached
    exact ⟨a, mem_insertNew.mpr (.inr ha), reach⟩
  under := by
    intro a ha below
    rcases mem_insertNew.mp ha with rfl | ha
    · omega
    · exact held.under a ha below
  rising := by
    intro a ha b hb above later
    -- Only a pair of the new vote and an old one is news, and neither spans the other.
    rcases mem_insertNew.mp ha with rfl | olda
    · rcases mem_insertNew.mp hb with rfl | oldb
      · omega
      · have inner : ¬ b.Spans a := fun spans => apart b oldb (.inr (.inl spans))
        simp only [AttestationRow.Spans] at inner
        omega
    · rcases mem_insertNew.mp hb with rfl | oldb
      · have outer : ¬ b.Spans a := fun spans => apart a olda (.inr (.inr spans))
        simp only [AttestationRow.Spans] at outer
        omega
      · exact held.rising a olda b oldb above later

/-- Each vote is kept by pruning or lies under the epochs that it leaves. -/
theorem covered (held : EpochsHeld vs source target) {m a : AttestationRow} (hm : m ∈ vs)
    (ha : a ∈ vs) (dropped : a.target < max target m.target) :
    a.source ≤ max source m.source := by
  by_cases below : a.target < target
  · have := held.under a ha below
    omega
  · -- Above the old mark the vote that pruning stops at begins no earlier.
    have := held.rising a ha m hm (by omega) (by omega)
    omega

theorem prune (held : EpochsHeld vs source target) {m : AttestationRow} (hm : m ∈ vs)
    (legible : ∀ a ∈ vs, a.Legible) :
    EpochsHeld (vs.filter fun a => max target m.target ≤ a.target) (max source m.source)
      (max target m.target) where
  range := by
    have own := held.range
    have other := (legible m hm).1
    simp only [InRange] at own other ⊢
    omega
  reached := by
    obtain ⟨a, ha, top, begins⟩ := held.reached
    by_cases higher : target ≤ m.target
    · exact ⟨m, List.mem_filter.mpr ⟨hm, by simp; omega⟩, by omega, by omega⟩
    · exact ⟨a, List.mem_filter.mpr ⟨ha, by simp; omega⟩, by omega, by omega⟩
  under := by
    intro a ha below
    have stays := (List.mem_filter.mp ha).2
    simp only [decide_eq_true_eq] at stays
    omega
  rising := by
    intro a ha b hb above later
    exact held.rising a (List.mem_filter.mp ha).1 b (List.mem_filter.mp hb).1 (by omega) later

theorem ofTop {s t : AttestationRow} (legible : ∀ a ∈ vs, a.Legible) (hs : s ∈ vs) (ht : t ∈ vs)
    (sources : ∀ a ∈ vs, a.source ≤ s.source) (targets : ∀ a ∈ vs, a.target ≤ t.target) {low : Int}
    (range : InRange low) : EpochsHeld vs (max low s.source) t.target where
  range := by
    have other := (legible s hs).1
    simp only [InRange] at range other ⊢
    omega
  reached := ⟨t, ht, rfl, by have := sources t ht; omega⟩
  under := by
    intro a ha _
    have := sources a ha
    omega
  rising := by
    intro a _ b hb above _
    have := targets b hb
    omega

end EpochsHeld

namespace VotesKept

variable {vs : List AttestationRow} {source target : Option Int}

theorem held (kept : VotesKept vs source target) {s t : Int} (hs : source = some s)
    (ht : target = some t) : EpochsHeld vs s t := by
  rcases kept.marks with ⟨none, -, -⟩ | ⟨s', t', hs', ht', held⟩
  · rw [hs] at none
    cases none
  · rw [hs] at hs'
    rw [ht] at ht'
    cases hs'
    cases ht'
    exact held

theorem inRange_source (kept : VotesKept vs source target) {low : Int}
    (hlow : source = some low) : InRange low := by
  rcases kept.marks with ⟨hs, -, -⟩ | ⟨s, t, hs, -, held⟩
  · rw [hs] at hlow
    cases hlow
  · rw [hs] at hlow
    cases hlow
    exact held.range

theorem inRange_target (kept : VotesKept vs source target) {high : Int}
    (hhigh : target = some high) : InRange high := by
  rcases kept.marks with ⟨-, ht, -⟩ | ⟨s, t, -, ht, held⟩
  · rw [ht] at hhigh
    cases hhigh
  · rw [ht] at hhigh
    cases hhigh
    obtain ⟨a, ha, rfl, -⟩ := held.reached
    exact (kept.legible a ha).2.1

theorem sign (kept : VotesKept vs source target) {r : AttestationRow} (legible : r.Legible)
    (range : r.source ≤ r.target) (apart : ∀ x ∈ vs, ¬ x.Slashable r)
    (low : ∀ s, source = some s → s ≤ r.source) (high : ∀ t, target = some t → t < r.target) :
    VotesKept (insertNew AttestationRow.place r vs) (some (source.getD r.source))
      (some (target.getD r.target)) where
  distinct := nodup_insertNew r kept.distinct
  legible := forall_mem_insertNew legible kept.legible
  ordered := forall_mem_insertNew range kept.ordered
  marks := by
    refine .inr ⟨_, _, rfl, rfl, ?_⟩
    rcases kept.marks with ⟨rfl, rfl, rfl⟩ | ⟨s, t, rfl, rfl, held⟩
    · -- The first vote is the only one, and both marks are its own.
      have only : insertNew AttestationRow.place r [] = [r] := rfl
      rw [only]
      have single : r ∈ [r] := List.mem_singleton_self r
      have first : EpochsHeld [r] (max r.source r.source) r.target :=
        .ofTop (by simpa using legible) single single (by simp) (by simp) legible.1
      simpa using first
    · exact held.sign apart (low s rfl) (high t rfl)

theorem prune {s t : Int} (kept : VotesKept vs (some s) (some t)) {m : AttestationRow}
    (hm : m ∈ vs) :
    VotesKept (vs.filter fun a => max t m.target ≤ a.target) (some (max s m.source))
      (some (max t m.target)) where
  distinct := kept.distinct.filter _
  legible := fun a ha => kept.legible a (List.mem_filter.mp ha).1
  ordered := fun a ha => kept.ordered a (List.mem_filter.mp ha).1
  marks := by
    refine .inr ⟨_, _, rfl, rfl, ?_⟩
    rcases kept.marks with ⟨hs, -, -⟩ | ⟨s', t', hs, ht, held⟩
    · cases hs
    · cases hs
      cases ht
      exact held.prune hm kept.legible

theorem merge (kept : VotesKept vs source target) {rs : List AttestationRow}
    (legible : ∀ r ∈ rs, r.Legible) (ordered : ∀ r ∈ rs, r.source ≤ r.target)
    {s t : AttestationRow} (hs : s ∈ insertAll AttestationRow.place rs vs)
    (ht : t ∈ insertAll AttestationRow.place rs vs)
    (sources : ∀ a ∈ insertAll AttestationRow.place rs vs, a.source ≤ s.source)
    (targets : ∀ a ∈ insertAll AttestationRow.place rs vs, a.target ≤ t.target) :
    VotesKept (insertAll AttestationRow.place rs vs)
      (some (max (source.getD s.source) s.source)) (some (max (target.getD t.target) t.target)) := by
  have all : ∀ a ∈ insertAll AttestationRow.place rs vs, a.Legible :=
    forall_mem_insertAll legible kept.legible
  have orders : ∀ a ∈ insertAll AttestationRow.place rs vs, a.source ≤ a.target :=
    forall_mem_insertAll ordered kept.ordered
  refine ⟨nodup_insertAll rs kept.distinct, all, orders, .inr ⟨_, _, rfl, rfl, ?_⟩⟩
  rcases kept.marks with ⟨rfl, rfl, rfl⟩ | ⟨low, high, rfl, rfl, held⟩
  · have held := EpochsHeld.ofTop all hs ht sources targets (all s hs).1
    simpa using held
  · -- The old target mark stands at a stored vote, so the highest one is no lower.
    obtain ⟨a, ha, reach, -⟩ := held.reached
    have top : max high t.target = t.target := by
      have := targets a (mem_insertAll.mpr (.inr ha))
      omega
    simp only [Option.getD_some, top]
    exact EpochsHeld.ofTop all hs ht sources targets held.range

end VotesKept

end SlashGuard
