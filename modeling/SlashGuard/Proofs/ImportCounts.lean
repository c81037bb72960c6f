import Mathlib.Algebra.BigOperators.Group.Finset.Piecewise
import Mathlib.Algebra.Order.BigOperators.Group.Finset
import SlashGuard.Proofs.Clashes
import SlashGuard.Proofs.ImportTightening
import SlashGuard.Proofs.PruningPasses

/-! The summary of an import counts what the document holds and what the store gained, and it counts
no conflict exactly if nothing that came clashes with anything that is then stored. -/
namespace SlashGuard

theorem BlockRow.slashable_comm (x r : BlockRow) : x.Slashable r ↔ r.Slashable x := by
  unfold Slashable
  rw [eq_comm, ne_comm]

theorem AttestationRow.slashable_comm (x r : AttestationRow) : x.Slashable r ↔ r.Slashable x := by
  unfold Slashable
  rw [eq_comm, ne_comm, or_comm (a := x.Spans r)]

theorem BlockRow.not_slashable_self (r : BlockRow) : ¬ r.Slashable r := fun clash => clash.2 rfl

theorem AttestationRow.not_slashable_self (r : AttestationRow) : ¬ r.Slashable r := by
  rintro (⟨-, root⟩ | ⟨begins, -⟩ | ⟨begins, -⟩)
  · exact root rfl
  · exact absurd begins (lt_irrefl _)
  · exact absurd begins (lt_irrefl _)

theorem BlockRow.slashable_iff (x r : BlockRow) : x.Slashable r ↔ x.slot = r.slot ∧ x ≠ r := by
  cases x
  cases r
  simp only [Slashable, ne_eq, BlockRow.mk.injEq, not_and]
  constructor
  · exact fun clash => ⟨clash.1, fun _ => clash.2⟩
  · exact fun apart => ⟨apart.1, apart.2 apart.1⟩

namespace ImportSummary

theorem blockTally_clashing_eq_zero {bs : List BlockRow} {h : History} :
    (blockTally bs h).clashing = 0 ↔
      Harmless (fun x r => x.Slashable r) h.blocks (insertAll BlockRow.place bs h.blocks) :=
  Tally.all_clashing_eq_zero (fun x r => decide_eq_decide.mpr (x.slashable_comm r))
    (fun r => decide_eq_false r.not_slashable_self) bs h.blocks

theorem voteTally_clashing_eq_zero {vs : List AttestationRow} {h : History} :
    (voteTally vs h).clashing = 0 ↔ Harmless (fun x r => x.Slashable r) h.attestations
      (insertAll AttestationRow.place vs h.attestations) :=
  Tally.all_clashing_eq_zero (fun x r => decide_eq_decide.mpr (x.slashable_comm r))
    (fun r => decide_eq_false r.not_slashable_self) vs h.attestations

theorem blockTally_clashing_congr {bs bs' : List BlockRow} {h : History} (arranged : h.Arranged)
    (same : ∀ x, x ∈ bs ↔ x ∈ bs') :
    (blockTally bs h).clashing = (blockTally bs' h).clashing :=
  Tally.clashing_congr (fun x r => decide_eq_true_iff.trans (x.slashable_iff r))
    BlockRow.place_injective arranged.blocks same

end ImportSummary

namespace Ledger

section Totals

variable {l : Ledger} {id : Int} {f : History → Nat}

def total (f : History → Nat) (l : Ledger) : Nat :=
  l.ids.foldr (fun id n => f (l.history id) + n) 0

theorem blockTotal_eq (l : Ledger) : l.blockTotal = l.total fun h => h.blocks.length := rfl

theorem voteTotal_eq (l : Ledger) : l.voteTotal = l.total fun h => h.attestations.length := rfl

theorem foldr_add_congr {g k : Int → Nat} {ids : List Int} (same : ∀ i ∈ ids, k i = g i) :
    ids.foldr (fun i n => k i + n) 0 = ids.foldr (fun i n => g i + n) 0 := by
  induction ids with
  | nil => rfl
  | cons i ids ih =>
    obtain ⟨own, others⟩ := List.forall_mem_cons.mp same
    rw [List.foldr_cons, List.foldr_cons, own, ih others]

theorem foldr_add_change {g k : Int → Nat} {ids : List Int} (distinct : ids.Nodup)
    (member : id ∈ ids) (others : ∀ i, i ≠ id → k i = g i) :
    ids.foldr (fun i n => k i + n) 0 + g id = ids.foldr (fun i n => g i + n) 0 + k id := by
  induction ids with
  | nil => cases member
  | cons i ids ih =>
    obtain ⟨absent, distinct⟩ := List.nodup_cons.mp distinct
    simp only [List.foldr_cons]
    rcases List.mem_cons.mp member with rfl | later
    · have rest : ids.foldr (fun i n => k i + n) 0 = ids.foldr (fun i n => g i + n) 0 :=
        foldr_add_congr fun j hj => others j (by rintro rfl; exact absent hj)
      omega
    · have first := others i (by rintro rfl; exact absent later)
      have rest := ih distinct later
      omega

theorem total_put (distinct : l.ids.Nodup) (registered : l.isRegistered id = true) (h : History) :
    (l.put id h).total f + f (l.history id) = l.total f + f h := by
  have change := foldr_add_change (g := fun i => f (l.history i))
    (k := fun i => f ((l.put id h).history i)) distinct (isRegistered_iff_mem_ids.mp registered)
    fun i apart => by rw [history_put_ne apart]
  rw [history_put_self registered] at change
  rw [total, ids_put]
  exact change

/-- A key that is registered has nothing stored yet, so it adds nothing. -/
theorem total_enroll (arranged : l.Arranged) (empty : f .empty = 0) (key : PublicKey) :
    (l.enroll key).2.total f = l.total f := by
  simp only [total, history_enroll]
  rcases ids_enroll l key with same | more
  · rw [same]
  · have absent : l.issued + 1 ∉ l.ids := by
      intro member
      have bound := arranged.issued _ member
      omega
    rw [more, List.foldr_append]
    simp only [List.foldr_cons, List.foldr_nil, history_of_not_mem absent, empty, Nat.add_zero]

theorem total_absorb (arranged : l.Arranged) (empty : f .empty = 0) (k : KeyHistory) :
    (l.absorb k).total f + f (l.historyOf k.key) =
      l.total f + f ((l.historyOf k.key).join (k.blocks.map Block.row)
        (k.attestations.map Attestation.row)) := by
  have put := total_put (f := f) (arranged.enroll k.key).distinct (registered_enroll l k.key)
    ((l.historyOf k.key).join (k.blocks.map Block.row) (k.attestations.map Attestation.row))
  rwa [history_enrolled arranged.issued, total_enroll arranged empty] at put

theorem blockTotal_adopt (l : Ledger) (r : Root) : (l.adopt r).blockTotal = l.blockTotal := by
  simp only [blockTotal, ids_adopt, history_adopt]

theorem voteTotal_adopt (l : Ledger) (r : Root) : (l.adopt r).voteTotal = l.voteTotal := by
  simp only [voteTotal, ids_adopt, history_adopt]

end Totals

def clashesFor (l : Ledger) (ks : List KeyHistory) (key : PublicKey) : Nat :=
  (ImportSummary.blockTally ((blocksFor key ks).map Block.row) (l.historyOf key)).clashing +
    (ImportSummary.voteTally ((votesFor key ks).map Attestation.row) (l.historyOf key)).clashing

variable {l : Ledger} {ks : List KeyHistory} {key : PublicKey}

theorem clashesFor_nil (l : Ledger) (key : PublicKey) : l.clashesFor [] key = 0 := rfl

theorem clashesFor_cons (arranged : l.Arranged) (k : KeyHistory) (ks : List KeyHistory)
    (key : PublicKey) : l.clashesFor (k :: ks) key =
      (if k.key = key then l.clashesFor [k] key else 0) + (l.absorb k).clashesFor ks key := by
  simp only [clashesFor, historyOf_absorb arranged]
  by_cases same : k.key = key
  · simp only [blocksFor, votesFor, List.filter_cons, same, decide_true, if_true,
      List.filter_nil, List.flatMap_cons, List.flatMap_nil, List.append_nil, List.map_append,
      ImportSummary.blockTally, ImportSummary.voteTally, Tally.all_append, Tally.add,
      History.blocks_join, History.attestations_join]
    omega
  · simp [blocksFor, votesFor, same]

/-- Nothing that came for the key clashes with what is stored in the end. -/
structure Peaceful (l l' : Ledger) (key : PublicKey) : Prop where
  blocks : Harmless (fun x r : BlockRow => x.Slashable r) (l.historyOf key).blocks
    (l'.historyOf key).blocks
  votes : Harmless (fun x r : AttestationRow => x.Slashable r) (l.historyOf key).attestations
    (l'.historyOf key).attestations

theorem clashesFor_eq_zero (arranged : l.Arranged) :
    l.clashesFor ks key = 0 ↔ l.Peaceful (l.absorbAll ks) key := by
  have blocks : ((l.absorbAll ks).historyOf key).blocks =
      insertAll BlockRow.place ((blocksFor key ks).map Block.row) (l.historyOf key).blocks := by
    rw [historyOf_absorbAll arranged, History.blocks_join]
  have votes : ((l.absorbAll ks).historyOf key).attestations = insertAll AttestationRow.place
      ((votesFor key ks).map Attestation.row) (l.historyOf key).attestations := by
    rw [historyOf_absorbAll arranged, History.attestations_join]
  rw [clashesFor, Nat.add_eq_zero_iff, ImportSummary.blockTally_clashing_eq_zero,
    ImportSummary.voteTally_clashing_eq_zero, ← blocks, ← votes]
  exact ⟨fun h => ⟨h.1, h.2⟩, fun h => ⟨h.blocks, h.votes⟩⟩

theorem peaceful_iff {l' : Ledger} (legible : (l'.historyOf key).Legible) :
    l.Peaceful l' key ↔ ∀ r x, (l'.historyOf key).Stores r → ¬ (l.historyOf key).Stores r →
      (l'.historyOf key).Stores x → ¬ x.Slashable r := by
  constructor
  · rintro peaceful (b | a) (c | v) stored new other clash
    · exact of_decide_eq_false (peaceful.blocks b.row stored new c.row other)
        (Block.slashable_row.mpr clash)
    · exact clash
    · exact clash
    · exact of_decide_eq_false (peaceful.votes a.row stored new v.row other)
        (Attestation.slashable_row.mpr clash)
  · intro apart
    constructor
    · intro r hr new x hx
      obtain ⟨b, -, rfl⟩ := BlockRow.read_eq (legible.blocks r hr)
      obtain ⟨c, -, rfl⟩ := BlockRow.read_eq (legible.blocks x hx)
      exact decide_eq_false (mt Block.slashable_row.mp (apart (.block b) (.block c) hr new hx))
    · intro r hr new x hx
      obtain ⟨a, -, rfl⟩ := AttestationRow.read_eq (legible.attestations r hr)
      obtain ⟨v, -, rfl⟩ := AttestationRow.read_eq (legible.attestations x hx)
      exact decide_eq_false
        (mt Attestation.slashable_row.mp (apart (.attestation a) (.attestation v) hr new hx))

theorem clashesFor_congr (arranged : l.Arranged) {ks' : List KeyHistory}
    (agree : Import.Agree ks ks') (blocksOnly : ∀ k ∈ ks, k.attestations = []) :
    l.clashesFor ks key = l.clashesFor ks' key := by
  have noVotes : votesFor key ks = [] := by
    rw [List.eq_nil_iff_forall_not_mem]
    intro a listed
    obtain ⟨k, member, -, own⟩ := mem_votesFor.mp listed
    rw [blocksOnly k member] at own
    cases own
  have noVotes' : votesFor key ks' = [] := by
    rw [List.eq_nil_iff_forall_not_mem]
    intro a listed
    have before := Import.mem_votesFor_iff.mpr
      ((agree.records key _).mpr (Import.mem_votesFor_iff.mp listed))
    rw [noVotes] at before
    cases before
  rw [clashesFor, clashesFor, noVotes, noVotes',
    ImportSummary.blockTally_clashing_congr (arranged.historyOf key) (agree.block_rows key)]

end Ledger

namespace ImportSummary

/-- What some entries add to a summary, and to the rows that are stored. -/
structure Counts (ks : List KeyHistory) (l l' : Ledger) (s t : ImportSummary) : Prop where
  validators : t.validators = s.validators + ks.length
  blocks : t.blocksImported + t.blocksSkipped =
    s.blocksImported + s.blocksSkipped + (ks.flatMap KeyHistory.blocks).length
  votes : t.attestationsImported + t.attestationsSkipped =
    s.attestationsImported + s.attestationsSkipped + (ks.flatMap KeyHistory.attestations).length
  storedBlocks : l'.blockTotal + s.blocksImported = l.blockTotal + t.blocksImported
  storedVotes : l'.voteTotal + s.attestationsImported = l.voteTotal + t.attestationsImported
  conflicts : t.conflicts + s.blocksImported + s.attestationsImported ≤
    s.conflicts + t.blocksImported + t.attestationsImported

variable {l : Ledger} {ks : List KeyHistory}

theorem Counts.cons {k : KeyHistory} {l' l'' : Ledger} {s t u : ImportSummary}
    (first : Counts [k] l l' s t) (rest : Counts ks l' l'' t u) : Counts (k :: ks) l l'' s u := by
  obtain ⟨validators, blocks, votes, storedBlocks, storedVotes, conflicts⟩ := first
  obtain ⟨validators', blocks', votes', storedBlocks', storedVotes', conflicts'⟩ := rest
  simp only [List.flatMap_cons, List.flatMap_nil, List.append_nil, List.length_cons,
    List.length_nil] at validators blocks votes
  have blocksAll : ((k :: ks).flatMap KeyHistory.blocks).length =
      k.blocks.length + (ks.flatMap KeyHistory.blocks).length := by
    rw [List.flatMap_cons, List.length_append]
  have votesAll : ((k :: ks).flatMap KeyHistory.attestations).length =
      k.attestations.length + (ks.flatMap KeyHistory.attestations).length := by
    rw [List.flatMap_cons, List.length_append]
  have size : (k :: ks).length = ks.length + 1 := rfl
  exact ⟨by omega, by omega, by omega, by omega, by omega, by omega⟩

theorem counts_addHistory (arranged : l.Arranged) (s : ImportSummary) (k : KeyHistory) :
    Counts [k] l (l.absorb k) s (s.addHistory (l.historyOf k.key) k) := by
  have blocks : (blockTally (k.blocks.map Block.row) (l.historyOf k.key)).new +
      (blockTally (k.blocks.map Block.row) (l.historyOf k.key)).known = k.blocks.length := by
    rw [← List.length_map (f := Block.row)]
    exact Tally.new_add_known
  have votes : (voteTally (k.attestations.map Attestation.row) (l.historyOf k.key)).new +
      (voteTally (k.attestations.map Attestation.row) (l.historyOf k.key)).known =
        k.attestations.length := by
    rw [← List.length_map (f := Attestation.row)]
    exact Tally.new_add_known
  have blocksClash : (blockTally (k.blocks.map Block.row) (l.historyOf k.key)).clashing ≤
      (blockTally (k.blocks.map Block.row) (l.historyOf k.key)).new := Tally.clashing_le_new _ _
  have votesClash : (voteTally (k.attestations.map Attestation.row) (l.historyOf k.key)).clashing ≤
      (voteTally (k.attestations.map Attestation.row) (l.historyOf k.key)).new :=
    Tally.clashing_le_new _ _
  have storedBlocks : (l.absorb k).blockTotal = l.blockTotal +
      (blockTally (k.blocks.map Block.row) (l.historyOf k.key)).new := by
    have change := Ledger.total_absorb arranged (f := fun h => h.blocks.length) rfl k
    rw [History.blocks_join, Tally.length_insertAll BlockRow.place fun x r => x.Slashable r]
      at change
    rw [Ledger.blockTotal_eq, Ledger.blockTotal_eq, blockTally]
    omega
  have storedVotes : (l.absorb k).voteTotal = l.voteTotal +
      (voteTally (k.attestations.map Attestation.row) (l.historyOf k.key)).new := by
    have change := Ledger.total_absorb arranged (f := fun h => h.attestations.length) rfl k
    rw [History.attestations_join,
      Tally.length_insertAll AttestationRow.place fun x r => x.Slashable r] at change
    rw [Ledger.voteTotal_eq, Ledger.voteTotal_eq, voteTally]
    omega
  have noBlocks : ([k].flatMap KeyHistory.blocks).length = k.blocks.length := by simp
  have noVotes : ([k].flatMap KeyHistory.attestations).length = k.attestations.length := by simp
  refine ⟨rfl, ?_, ?_, ?_, ?_, ?_⟩
  all_goals
    simp only [addHistory, addBlocks, addVotes, noBlocks, noVotes]
    omega

theorem counts_addHistories (arranged : l.Arranged) (s : ImportSummary) (ks : List KeyHistory) :
    Counts ks l (l.absorbAll ks) s (s.addHistories l ks) := by
  induction ks generalizing l s with
  | nil => exact ⟨rfl, rfl, rfl, rfl, rfl, Nat.le_refl _⟩
  | cons k ks ih => exact (counts_addHistory arranged s k).cons (ih (arranged.absorb k) _)

theorem conflicts_addHistories (arranged : l.Arranged) {K : Finset PublicKey}
    (named : ∀ k ∈ ks, k.key ∈ K) (s : ImportSummary) :
    (s.addHistories l ks).conflicts = s.conflicts + ∑ key ∈ K, l.clashesFor ks key := by
  induction ks generalizing l s with
  | nil => simp [addHistories, Ledger.clashesFor_nil]
  | cons k ks ih =>
    obtain ⟨own, others⟩ := List.forall_mem_cons.mp named
    have one : (s.addHistory (l.historyOf k.key) k).conflicts =
        s.conflicts + l.clashesFor [k] k.key := by
      simp [addHistory, addBlocks, addVotes, Ledger.clashesFor, Ledger.blocksFor, Ledger.votesFor,
        Nat.add_assoc]
    have spread : ∑ key ∈ K, (if k.key = key then l.clashesFor [k] key else 0) =
        l.clashesFor [k] k.key := by
      rw [Finset.sum_ite_eq, if_pos own]
    simp only [Ledger.clashesFor_cons arranged k ks, Finset.sum_add_distrib, spread]
    rw [addHistories, ih (arranged.absorb k) others, one, Nat.add_assoc]

theorem conflicts_eq_zero_iff (arranged : l.Arranged) :
    (ImportSummary.none.addHistories l ks).conflicts = 0 ↔
      ∀ key, l.Peaceful (l.absorbAll ks) key := by
  have listed : ∀ k ∈ ks, k.key ∈ (ks.map KeyHistory.key).toFinset :=
    fun k member => List.mem_toFinset.mpr (List.mem_map_of_mem member)
  simp only [← Ledger.clashesFor_eq_zero arranged]
  constructor
  · intro clear key
    have count := conflicts_addHistories arranged
      (fun k member => Finset.mem_insert_of_mem (a := k.key) (b := key) (listed k member)) .none
    rw [clear, none, Nat.zero_add, eq_comm, Finset.sum_eq_zero_iff] at count
    exact count key (Finset.mem_insert_self _ _)
  · intro clear
    rw [conflicts_addHistories arranged listed, Finset.sum_eq_zero fun key _ => clear key]
    rfl

end ImportSummary

namespace Engine

variable {e e' : Engine} {d d' : Document} {summary : ImportSummary}

/-- A ledger that has the accounts of the engine, whatever network it holds. -/
structure Holding (e : Engine) (l : Ledger) : Prop where
  arranged : l.Arranged
  histories : ∀ key, l.historyOf key = e.ledger.historyOf key
  blocks : l.blockTotal = e.ledger.blockTotal
  votes : l.voteTotal = e.ledger.voteTotal

theorem Reached.importDocument_absorbs (reached : e.Reached)
    (imported : e.importDocument d = .ok (summary, e')) :
    ∃ l, e.Holding l ∧ e'.ledger = l.absorbAll d.histories ∧
      summary = .addHistories .none l d.histories := by
  by_cases entries : d.histories = []
  · rw [reached.kept.importDocument_nothing entries, barring_eq_ok] at imported
    obtain ⟨-, same⟩ := imported
    cases same
    exact ⟨e.ledger, ⟨reached.arranged, fun _ => rfl, rfl, rfl⟩, by rw [entries]; rfl,
      by rw [entries]; rfl⟩
  · rw [reached.kept.importDocument_eq entries, barring_eq_ok] at imported
    obtain ⟨-, same⟩ := imported
    cases same
    exact ⟨_, ⟨reached.arranged.adopt _, e.ledger.historyOf_adopt _,
      e.ledger.blockTotal_adopt _, e.ledger.voteTotal_adopt _⟩, rfl, rfl⟩

theorem Holding.clashesFor {l : Ledger} (holding : e.Holding l) (ks : List KeyHistory)
    (key : PublicKey) : l.clashesFor ks key = e.ledger.clashesFor ks key := by
  rw [Ledger.clashesFor, Ledger.clashesFor, holding.histories]

theorem Reached.importDocument_conflicts (reached : e.Reached)
    (imported : e.importDocument d = .ok (summary, e')) {K : Finset PublicKey}
    (named : ∀ h ∈ d.histories, h.key ∈ K) :
    summary.conflicts = ∑ key ∈ K, e.ledger.clashesFor d.histories key := by
  obtain ⟨l, holding, -, rfl⟩ := reached.importDocument_absorbs imported
  rw [ImportSummary.conflicts_addHistories holding.arranged named, ImportSummary.none, Nat.zero_add]
  exact Finset.sum_congr rfl fun key _ => holding.clashesFor d.histories key

theorem Reached.no_conflict_iff (reached : e.Reached)
    (imported : e.importDocument d = .ok (summary, e')) :
    summary.conflicts = 0 ↔ ∀ key, e.ledger.Peaceful e'.ledger key := by
  obtain ⟨l, holding, after, rfl⟩ := reached.importDocument_absorbs imported
  rw [ImportSummary.conflicts_eq_zero_iff holding.arranged, ← after]
  refine forall_congr' fun key => ?_
  have same := holding.histories key
  exact ⟨fun h => ⟨same ▸ h.blocks, same ▸ h.votes⟩, fun h => ⟨same ▸ h.blocks, same ▸ h.votes⟩⟩

theorem Kept.importDocument_rearranged (kept : e.Kept)
    (imported : e.importDocument d = .ok (summary, e'))
    (network : d'.metadata.network = d.metadata.network)
    (agree : Import.Agree d.histories d'.histories) :
    ∃ summary' e'', e.importDocument d' = .ok (summary', e'') := by
  have nothing : d'.histories = [] ↔ d.histories = [] := by
    simp only [List.eq_nil_iff_forall_not_mem]
    constructor
    · intro none h member
      obtain ⟨h', member', -⟩ := (agree.keys h.key).mp ⟨h, member, rfl⟩
      exact none h' member'
    · intro none h member
      obtain ⟨h', member', -⟩ := (agree.keys h.key).mpr ⟨h, member, rfl⟩
      exact none h' member'
  by_cases entries : d.histories = []
  · rw [kept.importDocument_nothing entries, barring_eq_ok] at imported
    have outcome := kept.importDocument_nothing (nothing.mpr entries)
    rw [network, imported.1] at outcome
    exact ⟨_, _, outcome⟩
  · rw [kept.importDocument_eq entries, barring_eq_ok] at imported
    obtain ⟨takes, good⟩ := (faults_eq_nil kept.ledger).mp imported.1
    have none : d'.faults e.ledger = [] :=
      (faults_eq_nil kept.ledger).mpr ⟨network ▸ takes, agree.good good⟩
    have outcome := kept.importDocument_eq (mt nothing.mp entries)
    rw [none] at outcome
    exact ⟨_, _, outcome⟩

/-- The summary of an import counts the entries and records of the document, and as imported what
the store gained. It counts a conflict for none but an imported record, and no conflict exactly if
no record that came is slashable with any that its validator has in the end. If only blocks come,
the conflicts are the same in whatever order they come. -/
theorem import_counts (reached : e.Reached)
    (imported : e.importDocument d = .ok (summary, e')) :
    summary.validators = d.histories.length ∧
    summary.blocksImported + summary.blocksSkipped =
      (d.histories.flatMap KeyHistory.blocks).length ∧
    e'.ledger.blockTotal = e.ledger.blockTotal + summary.blocksImported ∧
    summary.attestationsImported + summary.attestationsSkipped =
      (d.histories.flatMap KeyHistory.attestations).length ∧
    e'.ledger.voteTotal = e.ledger.voteTotal + summary.attestationsImported ∧
    summary.conflicts ≤ summary.blocksImported + summary.attestationsImported ∧
    (summary.conflicts = 0 ↔ ∀ key r x, (e'.ledger.historyOf key).Stores r →
      ¬ (e.ledger.historyOf key).Stores r → (e'.ledger.historyOf key).Stores x →
        ¬ x.Slashable r) ∧
    ((∀ h ∈ d.histories, h.attestations = []) → ∀ d' : Document,
      d'.metadata.network = d.metadata.network → Import.Rearranged d.histories d'.histories →
        ∃ summary' e'', e.importDocument d' = .ok (summary', e'') ∧
          summary'.conflicts = summary.conflicts) := by
  have kept := reached.kept
  have legible (key : PublicKey) : (e'.ledger.historyOf key).Legible :=
    ((kept.importDocument_kept imported).ledger.historyOf key).legible
  obtain ⟨l, holding, after, counted⟩ := reached.importDocument_absorbs imported
  have counts := ImportSummary.counts_addHistories holding.arranged .none d.histories
  rw [← counted, ← after] at counts
  refine ⟨?_, ?_, ?_, ?_, ?_, ?_, ?_, ?_⟩
  · simpa [ImportSummary.none] using counts.validators
  · simpa [ImportSummary.none] using counts.blocks
  · simpa [ImportSummary.none, holding.blocks] using counts.storedBlocks
  · simpa [ImportSummary.none] using counts.votes
  · simpa [ImportSummary.none, holding.votes] using counts.storedVotes
  · simpa [ImportSummary.none] using counts.conflicts
  · rw [reached.no_conflict_iff imported]
    simp only [Ledger.peaceful_iff (legible _)]
  · intro blocksOnly d' network rearranged
    have agree := rearranged.agree
    obtain ⟨summary', e'', imported'⟩ :=
      kept.importDocument_rearranged imported network agree
    refine ⟨summary', e'', imported', ?_⟩
    -- The keys of both documents, so that both sums run over the same ones.
    let K := ((d.histories ++ d'.histories).map KeyHistory.key).toFinset
    have named : ∀ h ∈ d.histories ++ d'.histories, h.key ∈ K :=
      fun h member => List.mem_toFinset.mpr (List.mem_map_of_mem member)
    obtain ⟨first, second⟩ := List.forall_mem_append.mp named
    rw [reached.importDocument_conflicts imported first,
      reached.importDocument_conflicts imported' second]
    exact Finset.sum_congr rfl fun key _ =>
      (Ledger.clashesFor_congr reached.arranged agree blocksOnly).symm

def contradiction : Document :=
  .current (.filled 0)
    [⟨.single 1, [⟨⟨3⟩, .filled 1⟩], []⟩, ⟨.single 2, [⟨⟨3⟩, .filled 2⟩], []⟩,
      ⟨.single 1, [⟨⟨3⟩, .filled 2⟩, ⟨⟨3⟩, .filled 1⟩], []⟩]

theorem import_counts_contradiction :
    ∃ summary e', fresh.importDocument contradiction = .ok (summary, e') ∧
      summary = ⟨3, 3, 1, 0, 0, 1⟩ ∧ e'.ledger.blockTotal = fresh.ledger.blockTotal + 3 ∧
      ∃ summary' e'', fresh.importDocument (.current (.filled 0)
          [⟨.single 2, [⟨⟨3⟩, .filled 2⟩], []⟩, ⟨.single 1, [⟨⟨3⟩, .filled 1⟩], []⟩,
            ⟨.single 1, [⟨⟨3⟩, .filled 2⟩, ⟨⟨3⟩, .filled 1⟩], []⟩]) = .ok (summary', e'') ∧
        summary'.conflicts = 1 := by
  have none : contradiction.faults fresh.ledger = [] := by decide +kernel
  have entries : contradiction.histories ≠ [] := nofun
  have imported := Kept.fresh.importDocument_eq entries
  rw [none] at imported
  have counted : fresh.importSummary contradiction = ⟨3, 3, 1, 0, 0, 1⟩ := by decide +kernel
  obtain ⟨-, -, blocks, -, -, -, -, order⟩ := import_counts .fresh imported
  obtain ⟨summary', e'', imported', same⟩ := order
    (by simp [contradiction, Document.current, Document.histories])
    (.current (.filled 0)
      [⟨.single 2, [⟨⟨3⟩, .filled 2⟩], []⟩, ⟨.single 1, [⟨⟨3⟩, .filled 1⟩], []⟩,
        ⟨.single 1, [⟨⟨3⟩, .filled 2⟩, ⟨⟨3⟩, .filled 1⟩], []⟩])
    rfl (.entries (List.Perm.swap _ _ _))
  rw [counted] at blocks same
  exact ⟨_, _, imported, counted, blocks, summary', e'', imported', same⟩

end Engine

end SlashGuard
