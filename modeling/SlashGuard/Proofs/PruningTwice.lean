import SlashGuard.Proofs.PruningEffect

/-! Prunes compose. A row always stands on the floor that a prune leaves, and what it drops lies
under it; so a second prune that finds too few rows to cut any cuts where the floor is already, and
two prunes leave what one to the fewer rows leaves. -/
namespace SlashGuard

theorem PruneOutcome.eq_of_none {o : PruneOutcome} {w : Option Watermark} (blocks : o.blocks = 0)
    (votes : o.attestations = 0) (mark : o.watermark = w) : o = ⟨0, 0, w⟩ := by
  cases o
  cases blocks
  cases votes
  cases mark
  rfl

/-- In the order of their rows attestations begin no later, but for those that begin under the
mark. -/
theorem EpochsHeld.begins {vs : List AttestationRow} {s t : Int}
    (held : EpochsHeld vs s t) {x y : AttestationRow} (hx : x ∈ vs) (hy : y ∈ vs)
    (before : x.target < y.target ∨ x.target = y.target ∧ x.source ≤ y.source) :
    x.source ≤ max s y.source := by
  rcases before with earlier | ⟨-, le⟩
  · by_cases above : t < y.target
    · have := held.rising x hx y hy above earlier
      omega
    · have := held.under x hx (by omega)
      omega
  · omega

namespace History

variable {h h₁ h₂ h' : History} {keep k₁ k₂ n n₁ n₂ : Nat} {o o₁ o₂ : PruneOutcome}

theorem filter_of_higher {α : Type} (f : α → Int) {low high : Int} (rises : low ≤ high)
    (xs : List α) : (xs.filter fun x => low ≤ f x).filter (fun x => high ≤ f x) =
      xs.filter fun x => high ≤ f x := by
  rw [List.filter_filter]
  congr 1
  funext x
  simp only [Bool.and_eq_decide, decide_eq_true_eq, decide_eq_decide]
  omega

theorem BlocksTrimmed.total (trimmed : h.BlocksTrimmed keep h' n) :
    n + h'.blocks.length = h.blocks.length := by
  by_cases idle : h.floorOrEmpty.slot = none ∨ h.blocks = []
  · obtain ⟨rows, -, count⟩ := trimmed.unchanged idle
    rw [rows, count, Nat.zero_add]
  · obtain ⟨marked, nonempty⟩ := not_or.mp idle
    obtain ⟨low, mark⟩ := Option.ne_none_iff_exists'.mp marked
    obtain ⟨m, -, rows, -, count⟩ := trimmed.cut low mark nonempty
    rw [rows, count]
    exact countP_add_filter BlockRow.slot _ h.blocks

theorem VotesTrimmed.total (trimmed : h.VotesTrimmed keep h' n) :
    n + h'.attestations.length = h.attestations.length := by
  by_cases idle : h.floorOrEmpty.source = none ∨ h.floorOrEmpty.target = none ∨
      h.attestations = []
  · obtain ⟨rows, -, -, count⟩ := trimmed.unchanged idle
    rw [rows, count, Nat.zero_add]
  · obtain ⟨begins, marked⟩ := not_or.mp idle
    obtain ⟨ends, nonempty⟩ := not_or.mp marked
    obtain ⟨s, source⟩ := Option.ne_none_iff_exists'.mp begins
    obtain ⟨t, target⟩ := Option.ne_none_iff_exists'.mp ends
    obtain ⟨m, -, rows, -, -, count⟩ := trimmed.cut s t source target nonempty
    rw [rows, count]
    exact countP_add_filter AttestationRow.target _ h.attestations

theorem BlocksTrimmed.twice (kept : h.Kept) (kept₁ : h₁.Kept) (first : h.BlocksTrimmed k₁ h₁ n₁)
    (second : h₁.BlocksTrimmed k₂ h₂ n₂) (single : h.BlocksTrimmed (min k₁ k₂) h' n) :
    h₂.blocks = h'.blocks ∧ h₂.floorOrEmpty.slot = h'.floorOrEmpty.slot := by
  by_cases none : h.blocks = []
  · obtain ⟨rows₁, mark₁, -⟩ := first.unchanged (.inr none)
    obtain ⟨rows, mark, -⟩ := single.unchanged (.inr none)
    obtain ⟨rows₂, mark₂, -⟩ := second.unchanged (.inr (rows₁.trans none))
    exact ⟨(rows₂.trans rows₁).trans rows.symm, (mark₂.trans mark₁).trans mark.symm⟩
  · obtain ⟨low, marked⟩ := Option.ne_none_iff_exists'.mp (mt kept.blocks.unmarked none)
    obtain ⟨m₁, row₁, rows₁, mark₁, -⟩ := first.cut low marked none
    obtain ⟨m, row, rows, mark, -⟩ := single.cut low marked none
    obtain ⟨b, hb, standing⟩ := kept₁.blocks.marked _ mark₁
    obtain ⟨m₂, row₂, rows₂, mark₂, -⟩ := second.cut _ mark₁ (List.ne_nil_of_mem hb)
    obtain ⟨ys, whole, below⟩ := exists_split first.ascending (max low m₁.slot)
    rw [← rows₁] at whole
    have before : h.blocks.Pairwise fun x y => x.slot ≤ max low y.slot :=
      first.ascending.imp fun {x y} le => by omega
    have dropped : ∀ y ∈ ys, y.slot ≤ max low m₁.slot := fun y hy => Int.le_of_lt (below y hy)
    have head : ∀ z, h₁.blocks.head? = some z → z.slot ≤ max low m₁.slot := by
      intro z hz
      rcases head_before second.ascending hz hb with rfl | le
      · omega
      · omega
    have ends : max (max low m₁.slot) m₂.slot = max low m.slot :=
      max_max_oldest before whole dropped head row₁ row₂ row
    rw [ends] at rows₂ mark₂
    refine ⟨?_, mark₂.trans mark.symm⟩
    rw [rows₂, rows, rows₁]
    exact filter_of_higher BlockRow.slot (by omega) h.blocks

theorem VotesTrimmed.twice (kept : h.Kept) (kept₁ : h₁.Kept) (first : h.VotesTrimmed k₁ h₁ n₁)
    (second : h₁.VotesTrimmed k₂ h₂ n₂) (single : h.VotesTrimmed (min k₁ k₂) h' n) :
    h₂.attestations = h'.attestations ∧ h₂.floorOrEmpty.source = h'.floorOrEmpty.source ∧
      h₂.floorOrEmpty.target = h'.floorOrEmpty.target := by
  rcases kept.votes.marks with ⟨-, -, none⟩ | ⟨s, t, source, target, held⟩
  · obtain ⟨rows₁, source₁, target₁, -⟩ := first.unchanged (.inr (.inr none))
    obtain ⟨rows, source, target, -⟩ := single.unchanged (.inr (.inr none))
    obtain ⟨rows₂, source₂, target₂, -⟩ := second.unchanged (.inr (.inr (rows₁.trans none)))
    exact ⟨(rows₂.trans rows₁).trans rows.symm, (source₂.trans source₁).trans source.symm,
      (target₂.trans target₁).trans target.symm⟩
  · obtain ⟨a, ha, -⟩ := held.reached
    have nonempty := List.ne_nil_of_mem ha
    obtain ⟨m₁, row₁, rows₁, source₁, target₁, -⟩ := first.cut s t source target nonempty
    obtain ⟨m, row, rows, source', target', -⟩ := single.cut s t source target nonempty
    obtain ⟨b, hb, ending, begun⟩ := (kept₁.votes.held source₁ target₁).reached
    obtain ⟨m₂, row₂, rows₂, source₂, target₂, -⟩ :=
      second.cut _ _ source₁ target₁ (List.ne_nil_of_mem hb)
    have ascending : h.attestations.Pairwise fun x y => x.target ≤ y.target :=
      first.ascending.imp fun {x y} before => by omega
    obtain ⟨ys, whole, below⟩ := exists_split ascending (max t m₁.target)
    have dropped : ∀ y ∈ ys, y.target ≤ max t m₁.target ∧ y.source ≤ max s m₁.source := by
      intro y hy
      have lower := below y hy
      have stored : y ∈ h.attestations := whole ▸ List.mem_append_left _ hy
      exact ⟨Int.le_of_lt lower, held.covered (List.mem_of_getElem? row₁) stored lower⟩
    have head : ∀ z, h₁.attestations.head? = some z →
        z.target ≤ max t m₁.target ∧ z.source ≤ max s m₁.source := by
      intro z hz
      have left := List.mem_of_mem_head? hz
      rw [rows₁] at left
      have reached := of_decide_eq_true (List.mem_filter.mp left).2
      rcases head_before second.ascending hz hb with rfl | before
      · omega
      · omega
    rw [← rows₁] at whole
    have targets : max (max t m₁.target) m₂.target = max t m.target := by
      have before : h.attestations.Pairwise fun x y => x.target ≤ max t y.target :=
        ascending.imp fun {x y} le => by omega
      exact max_max_oldest before whole (fun y hy => (dropped y hy).1) (fun z hz => (head z hz).1)
        row₁ row₂ row
    have sources : max (max s m₁.source) m₂.source = max s m.source := by
      have before : h.attestations.Pairwise fun x y => x.source ≤ max s y.source :=
        first.ascending.imp_of_mem fun hx hy order => held.begins hx hy order
      exact max_max_oldest before whole (fun y hy => (dropped y hy).2) (fun z hz => (head z hz).2)
        row₁ row₂ row
    rw [targets] at rows₂ target₂
    rw [sources] at source₂
    refine ⟨?_, source₂.trans source'.symm, target₂.trans target'.symm⟩
    rw [rows₂, rows, rows₁]
    exact filter_of_higher AttestationRow.target (by omega) h.attestations

theorem ext_of_parts (blocks : h.blocks = h'.blocks) (votes : h.attestations = h'.attestations)
    (marks : h.floorOrEmpty = h'.floorOrEmpty) (floor : h.floor.isSome = h'.floor.isSome) :
    h = h' := by
  obtain ⟨bs, vs, f⟩ := h
  obtain ⟨bs', vs', f'⟩ := h'
  cases blocks
  cases votes
  cases f with
  | none =>
    cases f' with
    | none => rfl
    | some g => cases floor
  | some f =>
    cases f' with
    | none => cases floor
    | some g =>
      have same : f = g := marks
      rw [same]

theorem Trimmed.twice (kept : h.Kept) (kept₁ : h₁.Kept)
    (first : h.Trimmed k₁ h₁ o₁) (second : h₁.Trimmed k₂ h₂ o₂)
    (single : h.Trimmed (min k₁ k₂) h' o) :
    h₂ = h' ∧ o₁.blocks + o₂.blocks = o.blocks ∧
      o₁.attestations + o₂.attestations = o.attestations := by
  obtain ⟨blocks, slot⟩ := first.blocks.twice kept kept₁ second.blocks single.blocks
  obtain ⟨votes, source, target⟩ := first.votes.twice kept kept₁ second.votes single.votes
  have same : h₂ = h' := by
    apply ext_of_parts blocks votes
    · cases marks : h₂.floorOrEmpty
      cases marks' : h'.floorOrEmpty
      simp_all
    · rw [second.floor, first.floor, single.floor]
  have total₁ := first.blocks.total
  have total₂ := second.blocks.total
  have total := single.blocks.total
  have votes₁ := first.votes.total
  have votes₂ := second.votes.total
  have all := single.votes.total
  rw [same] at total₂ votes₂
  exact ⟨same, by omega, by omega⟩

theorem Trimmed.countable (trimmed : h.Trimmed keep h' o) (countable : h.Countable) :
    h'.Countable := by
  have blocks := trimmed.blocks.total
  have votes := trimmed.votes.total
  exact ⟨by have := countable.blocks; omega, by have := countable.votes; omega⟩

end History

namespace Engine

variable {e : Engine}

theorem Reached.call_prune (reached : e.Reached) {keep : Nat} {id : Int}
    (countable : (e.ledger.history id).Countable) (positive : 1 ≤ keep) :
    e.call (.prune keep id) = (.ok (.outcome ((e.ledger.history id).pruneOutcome keep id)),
      { e with ledger := e.ledger.put id ((e.ledger.history id).pruned keep) }) :=
  Engine.call_prune reached.kept.access reached.kept.ledger.distinct
    (reached.kept.ledger.histories id).legible.ranged countable positive

/-- Two prunes leave the store that one to the fewer rows leaves, and drop as many rows in all; so a
prune that is repeated changes nothing. -/
theorem Reached.prunes_compose (reached : e.Reached) (id : Int) (k₁ k₂ : Nat)
    (countable : (e.ledger.history id).Countable) (positive₁ : 1 ≤ k₁) (positive₂ : 1 ≤ k₂) :
    ∃ o₁ o₂ o e₁ e₂, e.call (.prune k₁ id) = (.ok (.outcome o₁), e₁) ∧
      e₁.call (.prune k₂ id) = (.ok (.outcome o₂), e₂) ∧
      e.call (.prune (min k₁ k₂) id) = (.ok (.outcome o), e₂) ∧
      o₁.blocks + o₂.blocks = o.blocks ∧ o₁.attestations + o₂.attestations = o.attestations ∧
      o₂.watermark = o.watermark ∧
      (k₁ = k₂ → e₂ = e₁ ∧ o₂ = ⟨0, 0, o₁.watermark⟩) := by
  have positive : 1 ≤ min k₁ k₂ := Nat.le_min.mpr ⟨positive₁, positive₂⟩
  have arranged := reached.arranged.histories id
  have first := arranged.trimmed countable positive₁ id
  have single := arranged.trimmed countable positive id
  have called₁ := reached.call_prune countable positive₁
  have called := reached.call_prune countable positive
  have between := reached.call (.prune k₁ id)
  have self := history_put_pruned e.ledger k₁ id
  rw [called₁] at between
  have countable₁ := first.countable countable
  rw [← self] at first countable₁
  have second := (between.arranged.histories id).trimmed countable₁ positive₂ id
  have called₂ := between.call_prune countable₁ positive₂
  obtain ⟨same, blocks, votes⟩ := History.Trimmed.twice (reached.kept.ledger.histories id)
    (between.kept.ledger.histories id) first second single
  have marks := congrArg (History.mark id) same
  rw [same, Ledger.put_put] at called₂
  refine ⟨_, _, _, _, _, called₁, called₂, called, blocks, votes, marks, ?_⟩
  rintro rfl
  -- The single prune is the first one, so the second has nothing left to drop.
  rw [Nat.min_self] at marks blocks votes ⊢
  exact ⟨rfl, PruneOutcome.eq_of_none (Nat.add_eq_left.mp blocks) (Nat.add_eq_left.mp votes) marks⟩

theorem prunes_compose_fewer :
    ((fresh.run (prunedRun.take 5)).ledger.history 1).Countable ∧
      (((fresh.run (prunedRun.take 5)).call (.prune 1 1)).2.call (.prune 2 1)).2 =
        ((fresh.run (prunedRun.take 5)).call (.prune (min 1 2) 1)).2 := by
  have countable : ((fresh.run (prunedRun.take 5)).ledger.history 1).Countable := by
    decide +kernel
  obtain ⟨o₁, o₂, o, e₁, e₂, first, second, single, -⟩ :=
    (reached_run .fresh (prunedRun.take 5)).prunes_compose 1 1 2 countable (by decide) (by decide)
  refine ⟨countable, ?_⟩
  rw [first, second, single]

end Engine

end SlashGuard
