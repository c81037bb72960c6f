import SlashGuard.Proofs.NewestRows
import SlashGuard.Proofs.Approvals
import SlashGuard.Proofs.Reached

/-! The exact effect of pruning. Each kind of rows is cut at the oldest of its newest rows, or at
the floor if that is higher, and the floor is left where the cut is. While nothing is imported no
row lies under the floor and no slot holds two blocks, so of the blocks exactly the newest are
left. -/
namespace SlashGuard

namespace History

variable {h h' : History} {keep : Nat} {id : Int}

/-- Blocks are left from the slot of the oldest that is to be kept on, or from the mark on. -/
structure BlocksTrimmed (keep : Nat) (h h' : History) (dropped : Nat) : Prop where
  ascending : h.blocks.Pairwise fun x y => x.slot ≤ y.slot
  cut : ∀ low, h.floorOrEmpty.slot = some low → h.blocks ≠ [] →
    ∃ m, h.blocks[h.blocks.length - min h.blocks.length keep]? = some m ∧
      h'.blocks = h.blocks.filter (fun b => max low m.slot ≤ b.slot) ∧
      h'.floorOrEmpty.slot = some (max low m.slot) ∧
      dropped = h.blocks.countP fun b => b.slot < max low m.slot
  unchanged : h.floorOrEmpty.slot = none ∨ h.blocks = [] →
    h'.blocks = h.blocks ∧ h'.floorOrEmpty.slot = h.floorOrEmpty.slot ∧ dropped = 0

/-- Attestations are left from the target of the oldest that is to be kept on, or from the mark on.
Its source raises the other mark. -/
structure VotesTrimmed (keep : Nat) (h h' : History) (dropped : Nat) : Prop where
  ascending : h.attestations.Pairwise fun x y =>
    x.target < y.target ∨ x.target = y.target ∧ x.source ≤ y.source
  cut : ∀ s t, h.floorOrEmpty.source = some s → h.floorOrEmpty.target = some t →
    h.attestations ≠ [] →
    ∃ m, h.attestations[h.attestations.length - min h.attestations.length keep]? = some m ∧
      h'.attestations = h.attestations.filter (fun a => max t m.target ≤ a.target) ∧
      h'.floorOrEmpty.source = some (max s m.source) ∧
      h'.floorOrEmpty.target = some (max t m.target) ∧
      dropped = h.attestations.countP fun a => a.target < max t m.target
  unchanged : h.floorOrEmpty.source = none ∨ h.floorOrEmpty.target = none ∨
      h.attestations = [] →
    h'.attestations = h.attestations ∧ h'.floorOrEmpty.source = h.floorOrEmpty.source ∧
      h'.floorOrEmpty.target = h.floorOrEmpty.target ∧ dropped = 0

structure Trimmed (keep : Nat) (h h' : History) (o : PruneOutcome) : Prop where
  blocks : h.BlocksTrimmed keep h' o.blocks
  votes : h.VotesTrimmed keep h' o.attestations
  floor : h'.floor.isSome = h.floor.isSome

theorem countP_add_filter {α : Type} (f : α → Int) (low : Int) (xs : List α) :
    (xs.countP fun x => f x < low) + (xs.filter fun x => low ≤ f x).length = xs.length := by
  have parts := xs.length_eq_countP_add_countP fun x => decide (low ≤ f x)
  have below : (xs.countP fun x => decide ¬ decide (low ≤ f x) = true) =
      xs.countP fun x => f x < low := by
    congr 1
    funext x
    simp
  rw [below, List.countP_eq_length_filter, Nat.add_comm] at parts
  exact parts.symm

theorem length_sub_filter {α : Type} (f : α → Int) (low : Int) (xs : List α) :
    xs.length - (xs.filter fun x => low ≤ f x).length = xs.countP fun x => f x < low :=
  Nat.sub_eq_of_eq_add (countP_add_filter f low xs).symm

theorem pruneBlocks_rowless (none : h.blocks = []) (place : Nat) : h.pruneBlocks place = h := by
  rcases pruneBlocks_cases place h with same | ⟨low, m, hm, -⟩
  · exact same
  · rw [none] at hm
    cases hm

theorem pruneAttestations_rowless (none : h.attestations = []) (place : Nat) :
    h.pruneAttestations place = h := by
  rcases pruneAttestations_cases place h with same | ⟨s, t, m, hm, -⟩
  · exact same
  · rw [none] at hm
    cases hm

theorem Arranged.trimmed_blocks (arranged : h.Arranged) (positive : 1 ≤ keep) :
    h.BlocksTrimmed keep (h.pruneBlocks (h.blocks.length - keep))
      (h.blocks.length - (h.pruneBlocks (h.blocks.length - keep)).blocks.length) where
  ascending := arranged.slots
  cut := by
    intro low mark nonempty
    obtain ⟨m, row⟩ := exists_oldest nonempty positive
    obtain ⟨blocks, -, floor⟩ := pruneBlocks_cut mark row
    have place : h.blocks.length - min h.blocks.length keep = h.blocks.length - keep := by omega
    refine ⟨m, place ▸ row, blocks, by rw [floor], ?_⟩
    rw [blocks]
    exact length_sub_filter BlockRow.slot _ h.blocks
  unchanged := by
    intro idle
    have same : h.pruneBlocks (h.blocks.length - keep) = h := by
      rcases idle with unmarked | none
      · exact pruneBlocks_unmarked unmarked _
      · exact pruneBlocks_rowless none _
    rw [same]
    exact ⟨rfl, rfl, Nat.sub_self _⟩

theorem Arranged.trimmed_votes (arranged : h.Arranged) (positive : 1 ≤ keep) :
    h.VotesTrimmed keep (h.pruneAttestations (h.attestations.length - keep))
      (h.attestations.length -
        (h.pruneAttestations (h.attestations.length - keep)).attestations.length) where
  ascending := arranged.epochs
  cut := by
    intro s t source target nonempty
    obtain ⟨m, row⟩ := exists_oldest nonempty positive
    obtain ⟨-, votes, floor⟩ := pruneAttestations_cut source target row
    have place : h.attestations.length - min h.attestations.length keep =
        h.attestations.length - keep := by
      omega
    refine ⟨m, place ▸ row, votes, by rw [floor], by rw [floor], ?_⟩
    rw [votes]
    exact length_sub_filter AttestationRow.target _ h.attestations
  unchanged := by
    intro idle
    have same : h.pruneAttestations (h.attestations.length - keep) = h := by
      rcases idle with unmarked | unmarked | none
      · exact pruneAttestations_unmarked (.inl unmarked) _
      · exact pruneAttestations_unmarked (.inr unmarked) _
      · exact pruneAttestations_rowless none _
    rw [same]
    exact ⟨rfl, rfl, rfl, Nat.sub_self _⟩

theorem Arranged.trimmed (arranged : h.Arranged) (countable : h.Countable) (positive : 1 ≤ keep)
    (id : Int) : h.Trimmed keep (h.pruned keep) (h.pruneOutcome keep id) := by
  have blocks := arranged.trimmed_blocks positive
  have votes := (arranged.pruneBlocks (h.blocks.length - keep)).trimmed_votes positive
  rw [attestations_pruneBlocks] at votes
  obtain ⟨source, target⟩ := epochs_pruneBlocks (h.blocks.length - keep) h
  simp only [pruneOutcome, countable.pruned_eq, prune]
  constructor
  · constructor
    · exact blocks.ascending
    · rw [blocks_pruneAttestations, slot_pruneAttestations]
      exact blocks.cut
    · rw [blocks_pruneAttestations, slot_pruneAttestations]
      exact blocks.unchanged
  · constructor
    · exact arranged.epochs
    · rw [← source, ← target]
      simpa only [attestations_pruneBlocks] using votes.cut
    · rw [← source, ← target]
      simpa only [attestations_pruneBlocks] using votes.unchanged
  · rw [isSome_floor_pruneAttestations, isSome_floor_pruneBlocks]

/-- As signing and pruning alone leave it: a slot holds one block, and no row lies under the
floor. -/
structure SelfSigned (h : History) : Prop where
  slots : ∀ x ∈ h.blocks, ∀ y ∈ h.blocks, x.slot = y.slot → x = y
  blocks : ∀ low, h.floorOrEmpty.slot = some low → ∀ b ∈ h.blocks, low ≤ b.slot
  votes : ∀ low, h.floorOrEmpty.target = some low → ∀ a ∈ h.attestations, low ≤ a.target

theorem SelfSigned.empty : History.empty.SelfSigned := ⟨nofun, nofun, nofun⟩

theorem getD_le_insertNew {α : Type} [DecidableEq α] {place : α → List Int} {f : α → Int}
    {mark : Option Int} {x : α} {xs : List α} (unmarked : mark = none → xs = [])
    (above : ∀ low, mark = some low → low ≤ f x)
    (old : ∀ low, mark = some low → ∀ y ∈ xs, low ≤ f y) :
    ∀ y ∈ insertNew place x xs, mark.getD (f x) ≤ f y := by
  cases mark with
  | none =>
    rw [unmarked rfl]
    exact forall_mem_insertNew (Int.le_refl _) nofun
  | some low => exact forall_mem_insertNew (above low rfl) (old low rfl)

theorem SelfSigned.signBlock (own : h.SelfSigned) (kept : h.Kept) {b : Block}
    (valid : h.judgeBlock b.row = .allowed .valid) : (h.signBlock b.row).SelfSigned := by
  obtain ⟨blocks, votes, floor⟩ := signBlock_parts b.row h
  obtain ⟨single, above⟩ := judgeBlock_valid.mp valid
  constructor
  · rw [blocks]
    intro x hx y hy same
    rcases mem_insertNew.mp hx with rfl | oldx
    · rcases mem_insertNew.mp hy with rfl | oldy
      · rfl
      · exact False.elim (single y oldy same.symm)
    · rcases mem_insertNew.mp hy with rfl | oldy
      · exact False.elim (single x oldx same)
      · exact own.slots x oldx y oldy same
  · rw [blocks, floor]
    rintro low ⟨⟩
    exact getD_le_insertNew kept.blocks.unmarked (fun low mark => Int.le_of_lt (above low mark))
      own.blocks
  · rw [votes, floor]
    exact own.votes

theorem SelfSigned.signAttestation (own : h.SelfSigned) (kept : h.Kept) {a : Attestation}
    (valid : h.judgeAttestation a.row = .allowed .valid) :
    (h.signAttestation a.row).SelfSigned := by
  obtain ⟨blocks, votes, floor⟩ := signAttestation_parts a.row h
  obtain ⟨-, -, -, -, above⟩ := judgeAttestation_valid.mp valid
  have unmarked : h.floorOrEmpty.target = none → h.attestations = [] := by
    intro unset
    rcases kept.votes.marks with ⟨-, -, none⟩ | ⟨s, t, -, set, -⟩
    · exact none
    · rw [unset] at set
      cases set
  constructor
  · rw [blocks]
    exact own.slots
  · rw [blocks, floor]
    exact own.blocks
  · rw [votes, floor]
    rintro low ⟨⟩
    exact getD_le_insertNew unmarked (fun low mark => Int.le_of_lt (above low mark)) own.votes

theorem SelfSigned.sign (own : h.SelfSigned) (kept : h.Kept) {r : Record}
    (valid : h.judge r = .allowed .valid) : (h.sign r).SelfSigned := by
  cases r with
  | block b => exact own.signBlock kept valid
  | attestation a => exact own.signAttestation kept valid

theorem SelfSigned.prune (own : h.SelfSigned) (place place' : Nat) :
    (h.prune place place').SelfSigned := by
  have blocks : (h.pruneBlocks place).SelfSigned := by
    rcases pruneBlocks_cases place h with same | ⟨low, m, -, -, rows, votes, floor⟩
    · rwa [same]
    · constructor
      · rw [rows]
        intro x hx y hy
        exact own.slots x (List.mem_filter.mp hx).1 y (List.mem_filter.mp hy).1
      · rw [rows, floor]
        rintro low ⟨⟩ b hb
        exact of_decide_eq_true (List.mem_filter.mp hb).2
      · rw [votes, floor]
        exact own.votes
  rcases pruneAttestations_cases place' (h.pruneBlocks place) with
    same | ⟨s, t, m, -, -, -, rows, votes, floor⟩
  · rwa [History.prune, same]
  · rw [History.prune]
    constructor
    · rw [rows]
      exact blocks.slots
    · rw [rows, floor]
      exact blocks.blocks
    · rw [votes, floor]
      rintro low ⟨⟩ a ha
      exact of_decide_eq_true (List.mem_filter.mp ha).2

/-- What is dropped stands before what is left, which are the newest blocks, and at least as many
attestations as are to be kept. -/
structure LeavesNewest (keep : Nat) (h h' : History) : Prop where
  blocks : ∃ dropped, h.blocks = dropped ++ h'.blocks ∧
    h'.blocks.length = min keep h.blocks.length ∧
    ∀ x ∈ dropped, ∀ y ∈ h'.blocks, x.slot < y.slot
  votes : ∃ dropped, h.attestations = dropped ++ h'.attestations ∧
    min keep h.attestations.length ≤ h'.attestations.length ∧
    ∀ x ∈ dropped, ∀ y ∈ h'.attestations, x.target < y.target

theorem SelfSigned.leaves_blocks (own : h.SelfSigned) (kept : h.Kept) {n : Nat}
    (trimmed : h.BlocksTrimmed keep h' n) : ∃ dropped, h.blocks = dropped ++ h'.blocks ∧
      h'.blocks.length = min keep h.blocks.length ∧
      ∀ x ∈ dropped, ∀ y ∈ h'.blocks, x.slot < y.slot := by
  by_cases none : h.blocks = []
  · obtain ⟨same, -⟩ := trimmed.unchanged (.inr none)
    rw [same, none]
    exact ⟨[], rfl, by simp, nofun⟩
  · obtain ⟨low, mark⟩ := Option.ne_none_iff_exists'.mp (mt kept.blocks.unmarked none)
    obtain ⟨m, row, blocks, -⟩ := trimmed.cut low mark none
    have above := own.blocks low mark m (List.mem_of_getElem? row)
    obtain ⟨dropped, whole, few, below⟩ := exists_newest trimmed.ascending row above
    have reached : ∀ y ∈ h'.blocks, m.slot ≤ y.slot := by
      rw [blocks, Int.max_eq_right above]
      exact fun y hy => of_decide_eq_true (List.mem_filter.mp hy).2
    rw [← blocks] at whole
    refine ⟨dropped, whole, ?_, fun x hx y hy => Int.lt_of_lt_of_le (below x hx) (reached y hy)⟩
    have strict : h.blocks.Pairwise fun x y => x.slot < y.slot := by
      refine (kept.blocks.distinct.and trimmed.ascending).imp_of_mem ?_
      rintro x y hx hy ⟨apart, le⟩
      have other : x.slot ≠ y.slot := fun same => apart (own.slots x hx y hy same)
      omega
    rw [whole] at strict row
    have many := le_length_of_strict strict row reached
    have total := congrArg List.length whole
    rw [List.length_append] at total many
    omega

theorem SelfSigned.leaves_votes (own : h.SelfSigned) (kept : h.Kept) {n : Nat}
    (trimmed : h.VotesTrimmed keep h' n) : ∃ dropped, h.attestations = dropped ++ h'.attestations ∧
      min keep h.attestations.length ≤ h'.attestations.length ∧
      ∀ x ∈ dropped, ∀ y ∈ h'.attestations, x.target < y.target := by
  by_cases none : h.attestations = []
  · obtain ⟨same, -⟩ := trimmed.unchanged (.inr (.inr none))
    rw [same, none]
    exact ⟨[], rfl, by simp, nofun⟩
  · rcases kept.votes.marks with ⟨-, -, empty⟩ | ⟨s, t, source, target, -⟩
    · exact False.elim (none empty)
    · obtain ⟨m, row, votes, -⟩ := trimmed.cut s t source target none
      have above := own.votes t target m (List.mem_of_getElem? row)
      have ascending : h.attestations.Pairwise fun x y => x.target ≤ y.target :=
        trimmed.ascending.imp fun {x y} before => by omega
      obtain ⟨dropped, whole, few, below⟩ := exists_newest ascending row above
      rw [← votes] at whole
      refine ⟨dropped, whole, ?_, fun x hx y hy => ?_⟩
      · have total := congrArg List.length whole
        rw [List.length_append] at total
        omega
      · rw [votes] at hy
        have := of_decide_eq_true (List.mem_filter.mp hy).2
        have := below x hx
        omega

end History

namespace Ledger

structure Framed (l l' : Ledger) : Prop where
  version : l'.version = l.version
  network : l'.network = l.network
  issued : l'.issued = l.issued
  roster : l'.roster = l.roster

theorem Framed.refl (l : Ledger) : l.Framed l := ⟨rfl, rfl, rfl, rfl⟩

theorem Framed.symm {l l' : Ledger} (framed : l.Framed l') : l'.Framed l :=
  ⟨framed.version.symm, framed.network.symm, framed.issued.symm, framed.roster.symm⟩

theorem Framed.trans {l l' l'' : Ledger} (first : l.Framed l') (second : l'.Framed l'') :
    l.Framed l'' :=
  ⟨second.version.trans first.version, second.network.trans first.network,
    second.issued.trans first.issued, second.roster.trans first.roster⟩

theorem Framed.ids {l l' : Ledger} (framed : l.Framed l') : l'.ids = l.ids := by
  rw [ids_eq_roster, framed.roster, ← ids_eq_roster]

theorem framed_put (l : Ledger) (id : Int) (h : History) : l.Framed (l.put id h) :=
  ⟨rfl, rfl, rfl, roster_put l id h⟩

structure ChangesOnly (id : Int) (l l' : Ledger) : Prop where
  frame : l.Framed l'
  others : ∀ id', id' ≠ id → l'.history id' = l.history id'

theorem changesOnly_put (l : Ledger) (id : Int) (h : History) : l.ChangesOnly id (l.put id h) :=
  ⟨framed_put l id h, fun _ apart => history_put_ne apart h⟩

theorem history_put_empty {l : Ledger} {id : Int} {h : History}
    (same : l.history id = .empty → h = .empty) : (l.put id h).history id = h := by
  cases registered : l.isRegistered id with
  | true => exact history_put_self registered h
  | false =>
    rw [same (history_of_not_registered registered)]
    exact history_of_not_registered (by simpa using registered)

end Ledger

namespace Engine

variable {e : Engine} {keep : Nat} {id : Int}

inductive ReachedAlone : Engine → Prop
  | fresh : ReachedAlone .fresh
  | call {e : Engine} (alone : ReachedAlone e) (c : Call) (own : ∀ s, c ≠ .importText s) :
      ReachedAlone (e.call c).2
  | reopen {e e' : Engine} (alone : ReachedAlone e) (opened : load e.ledger = .ok e') :
      ReachedAlone e'

theorem ReachedAlone.reached (alone : e.ReachedAlone) : e.Reached := by
  induction alone with
  | fresh => exact .fresh
  | call _ c _ ih => exact ih.call c
  | reopen _ opened ih => exact ih.reopen opened

theorem reachedAlone_run (alone : e.ReachedAlone) {cs : List Call}
    (own : ∀ s, .importText s ∉ cs) : (e.run cs).ReachedAlone := by
  induction cs generalizing e with
  | nil => exact alone
  | cons c cs ih =>
    refine ih (alone.call c ?_) fun s listed => own s (List.mem_cons_of_mem c listed)
    rintro s rfl
    exact own s List.mem_cons_self

theorem selfSigned_of_cuts {l l' : Ledger} (cuts : Pruning.Cuts l l')
    (own : ∀ id, (l.history id).SelfSigned) (id : Int) : (l'.history id).SelfSigned := by
  induction cuts generalizing id with
  | refl => exact own id
  | tail _ cut ih =>
    cases cut with
    | history who place place' registered known =>
      exact Ledger.forall_history_put (P := fun _ => History.SelfSigned) ih
        ((ih who).prune place place') id

theorem Kept.selfSigned_sign (kept : e.Kept) (own : ∀ id, (e.ledger.history id).SelfSigned)
    (who : Int) (network : Root) (r : Record) (id : Int) :
    ((e.call (.sign who network r)).2.ledger.history id).SelfSigned := by
  by_cases inverted : r.Inverted
  · rw [call_sign_inverted inverted]
    exact own id
  · by_cases decides : e.Decides who network r
    · have adopted (id' : Int) : ((e.ledger.adopt network).history id').SelfSigned := by
        rw [Ledger.history_adopt]
        exact own id'
      rw [kept.call_sign inverted decides]
      split
      · rename_i valid
        exact Ledger.forall_history_put (P := fun _ => History.SelfSigned) adopted
          ((own who).sign (kept.ledger.histories who) valid) id
      · exact adopted id
    · obtain ⟨f, fails⟩ := kept.call_sign_fails inverted decides
      rw [fails]
      exact own id

theorem history_enrollAll (keys : List PublicKey) (l : Ledger) (id : Int) :
    (l.enrollAll keys).2.history id = l.history id := by
  induction keys generalizing l with
  | nil => rfl
  | cons key keys ih => exact (ih (l.enroll key).2).trans (Ledger.history_enroll l key id)

theorem ReachedAlone.selfSigned (alone : e.ReachedAlone) (id : Int) :
    (e.ledger.history id).SelfSigned := by
  induction alone generalizing id with
  | fresh => exact .empty
  | reopen _ opened ih =>
    rw [load_ok opened]
    exact ih id
  | @call e alone c own ih =>
    have kept := alone.reached.kept
    cases c with
    | register keys =>
      rw [kept.call_register, history_enrollAll]
      exact ih id
    | lookup key =>
      rw [call_of_reading rfl]
      exact ih id
    | maySignBlock who b network => exact kept.selfSigned_sign ih who network (.block b) id
    | maySignAttestation who a network =>
      exact kept.selfSigned_sign ih who network (.attestation a) id
    | watermark id' =>
      rw [call_of_reading rfl]
      exact ih id
    | prune keep who =>
      obtain ⟨l, called, cuts⟩ := kept.prune_cuts keep who
      rw [called]
      exact selfSigned_of_cuts cuts ih id
    | pruneAll keep =>
      obtain ⟨l, called, cuts⟩ := kept.pruneAll_cuts keep
      rw [called]
      exact selfSigned_of_cuts cuts ih id
    | importText s => exact False.elim (own s rfl)
    | exportText =>
      rw [call_of_reading rfl]
      exact ih id
    | pinNetwork network =>
      rw [call_barring (kept.attempt_pin network)]
      split
      · rw [Ledger.history_adopt]
        exact ih id
      · exact ih id

theorem pruned_empty (keep : Nat) : History.empty.pruned keep = .empty :=
  Pruning.prune_empty _ _

theorem history_put_pruned (l : Ledger) (keep : Nat) (id : Int) :
    (l.put id ((l.history id).pruned keep)).history id = (l.history id).pruned keep := by
  apply Ledger.history_put_empty
  intro empty
  rw [empty, pruned_empty]

theorem call_prune (access : e.access = .full) (distinct : e.ledger.ids.Nodup)
    (ranged : (e.ledger.history id).Ranged) (countable : (e.ledger.history id).Countable)
    (positive : 1 ≤ keep) : e.call (.prune keep id) =
      (.ok (.outcome ((e.ledger.history id).pruneOutcome keep id)),
        { e with ledger := e.ledger.put id ((e.ledger.history id).pruned keep) }) := by
  have attempted := attempt_prune access distinct ranged keep
  rw [countable.pruneFaults positive] at attempted
  exact call_barring attempted

/-- Whatever a store holds, a prune trims the rows of its validator, answers how many it drops with
the watermark that is stored then, and changes nothing else. Where nothing was ever imported it
leaves exactly the newest blocks. -/
theorem pruning_exact :
    (∀ (e : Engine) (keep : Nat) (id : Int), e.access = .full → e.ledger.ids.Nodup →
      (e.ledger.history id).Ranged → (e.ledger.history id).Arranged →
      (e.ledger.history id).Countable → 1 ≤ keep →
      ∃ o l, e.call (.prune keep id) = (.ok (.outcome o), { e with ledger := l }) ∧
        (e.ledger.history id).Trimmed keep (l.history id) o ∧ e.ledger.ChangesOnly id l ∧
        ((e.call (.prune keep id)).2.call (.watermark id)).1 = .ok (.watermark o.watermark)) ∧
    ∀ (e : Engine) (keep : Nat) (id : Int), e.ReachedAlone →
      (e.ledger.history id).Countable → 1 ≤ keep →
      ∃ o e', e.call (.prune keep id) = (.ok (.outcome o), e') ∧
        (e.ledger.history id).LeavesNewest keep (e'.ledger.history id) := by
  constructor
  · intro e keep id access distinct ranged arranged countable positive
    have called := call_prune access distinct ranged countable positive
    have self := history_put_pruned e.ledger keep id
    have only := Ledger.changesOnly_put e.ledger id ((e.ledger.history id).pruned keep)
    -- Of the new ledger only these two facts are needed.
    generalize e.ledger.put id ((e.ledger.history id).pruned keep) = l at called self only
    refine ⟨_, l, called, ?_, only, ?_⟩
    · rw [self]
      exact arranged.trimmed countable positive id
    · have after : (l.history id).Ranged := self ▸ ranged.pruned keep
      rw [called, call_watermark (e := { e with ledger := l }) access after, self]
      rfl
  · intro e keep id alone countable positive
    have kept := alone.reached.kept
    have history := kept.ledger.histories id
    have called := call_prune kept.access kept.ledger.distinct history.legible.ranged countable
      positive
    refine ⟨_, _, called, ?_⟩
    rw [history_put_pruned]
    have trimmed := (alone.reached.arranged.histories id).trimmed countable positive id
    exact ⟨(alone.selfSigned id).leaves_blocks history trimmed.blocks,
      (alone.selfSigned id).leaves_votes history trimmed.votes⟩

/-- A store that no calls lead to: rows without a network, under the floor and with short roots. -/
def tornEngine : Engine := unpinned ⟨some 1, none, 7, [⟨7, [1],
  [⟨3, [1]⟩, ⟨5, []⟩, ⟨5, [7]⟩, ⟨9, [2]⟩], [⟨4, 5, []⟩, ⟨1, 6, []⟩, ⟨3, 6, []⟩],
    some ⟨some 4, some 2, some 5⟩⟩]⟩

theorem pruning_exact_torn :
    ((tornEngine.call (.prune 2 7)).1 =
        .ok (.outcome ⟨1, 1, some ⟨7, some ⟨5⟩, some ⟨2⟩, some ⟨6⟩⟩⟩) ∧
      ∃ o, (tornEngine.ledger.history 7).Trimmed 2
        ((tornEngine.call (.prune 2 7)).2.ledger.history 7) o) ∧
    ((fresh.run (prunedRun.take 5)).ledger.history 1).LeavesNewest 1
      (((fresh.run (prunedRun.take 5)).call (.prune 1 1)).2.ledger.history 1) := by
  have ranged : (tornEngine.ledger.history 7).Ranged := by
    constructor <;> simp [tornEngine, unpinned, Ledger.history, History.floorOrEmpty, InRange,
      storeLimit]
  have arranged : (tornEngine.ledger.history 7).Arranged := by
    constructor <;> unfold Rising <;> decide +kernel
  obtain ⟨o, l, called, trimmed, -⟩ := pruning_exact.1 tornEngine 2 7 rfl (by decide) ranged
    arranged (by decide +kernel) (by decide)
  have alone : (fresh.run (prunedRun.take 5)).ReachedAlone :=
    reachedAlone_run .fresh (by simp [prunedRun])
  obtain ⟨o', e', called', leaves⟩ := pruning_exact.2 (fresh.run (prunedRun.take 5)) 1 1 alone
    (by decide +kernel) (by decide)
  rw [called']
  refine ⟨⟨by decide +kernel, o, ?_⟩, leaves⟩
  rw [called]
  exact trimmed

end Engine

end SlashGuard
