import SlashGuard.Proofs.Exports
import SlashGuard.Proofs.ImportJoin
import SlashGuard.Proofs.PruningSafety

/-! What is exported is imported without loss: a fresh store that takes up an exported document
holds the same keys in the same order with the same rows, and exports the same text. -/
namespace SlashGuard

section Pairs

variable {α β γ : Type} {f : α → γ} {g : β → γ} {xs : List α} {ys : List β}

theorem map_eq_map_iff :
    xs.map f = ys.map g ↔ List.Forall₂ (fun x y => f x = g y) xs ys := by
  have pairs := List.forall₂_eq_eq_eq (α := γ)
  rw [← pairs]
  simp only [List.forall₂_map_left_iff, List.forall₂_map_right_iff]

theorem forall₂_of_map_eq (same : xs.map f = ys.map g) :
    List.Forall₂ (fun x y => x ∈ xs ∧ y ∈ ys ∧ f x = g y) xs ys := by
  obtain ⟨length, each⟩ := List.forall₂_iff_zip.mp (map_eq_map_iff.mp same)
  refine List.forall₂_iff_zip.mpr ⟨length, fun member => ?_⟩
  obtain ⟨left, right⟩ := List.of_mem_zip member
  exact ⟨left, right, each member⟩

theorem exists_of_forall₂ {R : α → β → Prop} (pairs : List.Forall₂ R xs ys) : ∀ y ∈ ys, ∃ x ∈ xs, R x y := by
  induction pairs with
  | nil => exact nofun
  | @cons x y xs ys first _ ih =>
    intro z hz
    rcases List.mem_cons.mp hz with rfl | hz
    · exact ⟨x, List.mem_cons_self, first⟩
    · obtain ⟨w, hw, related⟩ := ih z hz
      exact ⟨w, List.mem_cons_of_mem x hw, related⟩

end Pairs

/-- Entries with each key once and their rows in order. -/
structure Tidy (hs : List KeyHistory) : Prop where
  keys : (hs.map fun h => h.key.bytes).Nodup
  blocks : ∀ h ∈ hs, Rising BlockRow.place (h.blocks.map Block.row)
  votes : ∀ h ∈ hs, Rising AttestationRow.place (h.attestations.map Attestation.row)

theorem Tidy.tail {h : KeyHistory} {hs : List KeyHistory} (tidy : Tidy (h :: hs)) : Tidy hs :=
  ⟨(List.nodup_cons.mp tidy.keys).2, fun g hg => tidy.blocks g (List.mem_cons_of_mem h hg),
    fun g hg => tidy.votes g (List.mem_cons_of_mem h hg)⟩

theorem Tidy.key_ne {h : KeyHistory} {hs : List KeyHistory} (tidy : Tidy (h :: hs)) :
    ∀ g ∈ hs, h.key ≠ g.key := by
  intro g hg same
  apply (List.nodup_cons.mp tidy.keys).1
  exact List.mem_map.mpr ⟨g, hg, congrArg PublicKey.bytes same.symm⟩

theorem Tidy.filter_key {hs : List KeyHistory} (tidy : Tidy hs) {h : KeyHistory} (member : h ∈ hs) :
    hs.filter (fun g => g.key = h.key) = [h] := by
  induction hs with
  | nil => cases member
  | cons g hs ih =>
    have apart := tidy.key_ne
    rcases List.mem_cons.mp member with rfl | member
    · have rest : hs.filter (fun g => g.key = h.key) = [] := by
        rw [List.filter_eq_nil_iff]
        intro g hg same
        exact apart g hg (of_decide_eq_true same).symm
      simp [rest]
    · simp [apart h member, ih tidy.tail member]

theorem Tidy.blocksFor {hs : List KeyHistory} (tidy : Tidy hs) {h : KeyHistory}
    (member : h ∈ hs) : Ledger.blocksFor h.key hs = h.blocks := by
  simp [Ledger.blocksFor, tidy.filter_key member]

theorem Tidy.votesFor {hs : List KeyHistory} (tidy : Tidy hs) {h : KeyHistory}
    (member : h ∈ hs) : Ledger.votesFor h.key hs = h.attestations := by
  simp [Ledger.votesFor, tidy.filter_key member]

theorem Ledger.Arranged.tidy_of_told {l : Ledger} (arranged : l.Arranged) {hs : List KeyHistory}
    (told : List.Forall₂ Account.Told l.accounts hs) : Tidy hs where
  keys := by
    have same : l.accounts.map Account.key = hs.map fun h => h.key.bytes :=
      map_eq_map_iff.mpr (told.imp fun _ _ own => own.key.symm)
    rw [← same]
    exact arranged.keys
  blocks := by
    intro h member
    obtain ⟨a, ha, own⟩ := exists_of_forall₂ told h member
    rw [own.blocks, ← history_of_mem arranged.distinct ha]
    exact (arranged.histories a.id).blocks
  votes := by
    intro h member
    obtain ⟨a, ha, own⟩ := exists_of_forall₂ told h member
    rw [own.votes, ← history_of_mem arranged.distinct ha]
    exact (arranged.histories a.id).votes

theorem Ledger.historyOf_told {l : Ledger} (arranged : l.Arranged) (empty : l.accounts = [])
    {hs : List KeyHistory} (tidy : Tidy hs) {h : KeyHistory} (member : h ∈ hs) :
    (l.absorbAll hs).historyOf h.key =
      History.empty.join (h.blocks.map Block.row) (h.attestations.map Attestation.row) := by
  have unknown : l.idOf h.key = none := by simp [idOf, empty]
  rw [historyOf_absorbAll arranged, historyOf_unknown unknown, tidy.blocksFor member,
    tidy.votesFor member]

theorem Ledger.told_absorbAll {l : Ledger} (arranged : l.Arranged) (empty : l.accounts = [])
    {hs : List KeyHistory} (tidy : Tidy hs) :
    List.Forall₂ Account.Told (l.absorbAll hs).accounts hs := by
  have arranged' := arranged.absorbAll hs
  have keys : (l.absorbAll hs).accounts.map Account.key = hs.map fun h => h.key.bytes := by
    rw [keys_absorbAll (by simpa [empty] using tidy.keys), empty]
    rfl
  refine (forall₂_of_map_eq keys).imp ?_
  rintro a h ⟨ha, hh, same⟩
  have history : a.history = History.empty.join (h.blocks.map Block.row)
      (h.attestations.map Attestation.row) := by
    rw [← history_of_mem arranged'.distinct ha, ← historyOf_eq (idOf_of_mem arranged' ha same),
      historyOf_told arranged empty tidy hh]
  refine ⟨same.symm, ?_, ?_⟩
  · rw [history, History.blocks_join]
    exact ((tidy.blocks h hh).insertAll_nil BlockRow.place_injective).symm
  · rw [history, History.attestations_join]
    exact ((tidy.votes h hh).insertAll_nil AttestationRow.place_injective).symm

theorem Tally.all_of_fresh {α : Type} [DecidableEq α] {place : α → List Int}
    {clash : α → α → Bool} {rs xs : List α} (distinct : rs.Nodup) (fresh : ∀ r ∈ rs, r ∉ xs) :
    ∃ n, all place clash rs xs = ⟨rs.length, 0, n⟩ := by
  have known := @known_of_fresh _ _ place clash _ _ distinct fresh
  have new := @new_add_known _ _ place clash rs xs
  refine ⟨(all place clash rs xs).clashing, ?_⟩
  cases counted : all place clash rs xs with
  | mk new' known' clashing =>
    simp only [counted] at known new
    simp only [known, Tally.mk.injEq, and_true]
    omega

theorem ImportSummary.addHistories_of_fresh {l : Ledger} (arranged : l.Arranged)
    {hs : List KeyHistory} (tidy : Tidy hs) (fresh : ∀ h ∈ hs, l.historyOf h.key = .empty)
    (s : ImportSummary) : ∃ n, s.addHistories l hs = { s with
      validators := s.validators + hs.length
      blocksImported := s.blocksImported + (hs.flatMap KeyHistory.blocks).length
      attestationsImported :=
        s.attestationsImported + (hs.flatMap KeyHistory.attestations).length
      conflicts := n } := by
  induction hs generalizing l s with
  | nil => exact ⟨s.conflicts, rfl⟩
  | cons h hs ih =>
    have own := fresh h List.mem_cons_self
    -- The other entries have other keys, so they stay fresh once this one is taken up.
    have later : ∀ g ∈ hs, (l.absorb h).historyOf g.key = .empty := by
      intro g hg
      rw [Ledger.historyOf_absorb arranged, if_neg (tidy.key_ne g hg)]
      exact fresh g (List.mem_cons_of_mem h hg)
    obtain ⟨n, rest⟩ := ih (arranged.absorb h) tidy.tail later (s.addHistory (l.historyOf h.key) h)
    have blocks := @Tally.all_of_fresh _ _ BlockRow.place (fun x r => x.Slashable r)
      (h.blocks.map Block.row) (l.historyOf h.key).blocks
      (tidy.blocks h List.mem_cons_self).nodup (by simp [own, History.empty])
    have votes := @Tally.all_of_fresh _ _ AttestationRow.place (fun x r => x.Slashable r)
      (h.attestations.map Attestation.row) (l.historyOf h.key).attestations
      (tidy.votes h List.mem_cons_self).nodup (by simp [own, History.empty])
    obtain ⟨m, blocks⟩ := blocks
    obtain ⟨m', votes⟩ := votes
    refine ⟨n, ?_⟩
    rw [addHistories, rest]
    simp only [addHistory, blockTally, voteTally, blocks, votes, addBlocks, addVotes,
      List.length_map, List.flatMap_cons, List.length_append, List.length_cons, Nat.add_zero,
      ImportSummary.mk.injEq, true_and, and_true]
    omega

structure Account.SameRows (a a' : Account) : Prop where
  key : a'.key = a.key
  blocks : a'.history.blocks = a.history.blocks
  votes : a'.history.attestations = a.history.attestations

theorem sameRows_of_told {as as' : List Account} {hs : List KeyHistory}
    (told : List.Forall₂ Account.Told as hs) (told' : List.Forall₂ Account.Told as' hs) :
    List.Forall₂ Account.SameRows as as' := by
  induction told generalizing as' with
  | nil =>
    cases told'
    exact .nil
  | cons first _ ih =>
    cases told' with
    | cons first' rest' =>
      exact .cons ⟨first'.key.symm.trans first.key, first'.blocks.symm.trans first.blocks,
        first'.votes.symm.trans first.votes⟩ (ih rest')

namespace Engine

variable {e : Engine}

/-- A document that an engine exports. It lists each account by ascending id with each of its rows
once, blocks by slot and root, attestations by target, source and root. -/
structure Exports (e : Engine) (d : Document) : Prop where
  text : e.call .exportText = (.ok (.text d.page), e)
  network : e.ledger.network = some d.metadata.network.bytes
  ids : e.ledger.ids.Pairwise (· < ·)
  entries : List.Forall₂ Account.Told e.ledger.accounts d.histories
  blocks : ∀ h ∈ d.histories, Rising BlockRow.place (h.blocks.map Block.row)
  votes : ∀ h ∈ d.histories, Rising AttestationRow.place (h.attestations.map Attestation.row)

theorem Kept.exports (kept : e.Kept) (arranged : e.ledger.Arranged) {r : Root}
    (known : e.ledger.network = some r.bytes) {hs : List KeyHistory}
    (told : List.Forall₂ Account.Told e.ledger.accounts hs) : e.Exports (.current r hs) where
  text := kept.call_exportText (kept.ledger.export_eq known told)
  network := known
  ids := arranged.ids
  entries := told
  blocks := (arranged.tidy_of_told told).blocks
  votes := (arranged.tidy_of_told told).votes

theorem Kept.rebuilt (kept : e.Kept) (arranged : e.ledger.Arranged) {r : Root}
    {hs : List KeyHistory} (told : List.Forall₂ Account.Told e.ledger.accounts hs) :
    (Document.current r hs).faults Engine.fresh.ledger = [] ∧
      List.Forall₂ Account.Told (Engine.fresh.imported (.current r hs)).ledger.accounts hs := by
  constructor
  · refine (faults_eq_nil Kept.fresh.ledger).mpr ⟨nofun, fun h member => ?_⟩
    obtain ⟨a, ha, own⟩ := exists_of_forall₂ told h member
    exact kept.ledger.good_of_told ha own
  · exact Ledger.told_absorbAll (Ledger.Arranged.fresh.adopt r) rfl (arranged.tidy_of_told told)

theorem Kept.call_importText_told (kept : e.Kept) (arranged : e.ledger.Arranged)
    (registered : e.ledger.accounts ≠ []) {r : Root} {hs : List KeyHistory}
    (told : List.Forall₂ Account.Told e.ledger.accounts hs) :
    Engine.fresh.call (.importText (Text.Utf8.ofText (Document.current r hs).page)) =
      (.ok (.imported (Engine.fresh.importSummary (.current r hs))),
        Engine.fresh.imported (.current r hs)) := by
  have entries : (Document.current r hs).histories ≠ [] := by
    intro empty
    rw [show hs = [] from empty, List.forall₂_nil_right_iff] at told
    exact registered told
  have imported := Kept.fresh.importDocument_eq entries
  rw [(kept.rebuilt arranged told).1] at imported
  exact call_importText_ok (Document.read_page rfl) imported

/-- A store with a validator and a network exports a text that a fresh store imports whole. What
results has the same keys in the same order with the same rows and exports the same text. -/
theorem export_import_lossless (reached : e.Reached) (registered : e.ledger.accounts ≠ [])
    (known : e.ledger.network ≠ none) : ∃ d e' conflicts, e.Exports d ∧
      fresh.call (.importText (Text.Utf8.ofText d.page)) =
        (.ok (.imported ⟨d.histories.length, (d.histories.flatMap KeyHistory.blocks).length, 0,
          (d.histories.flatMap KeyHistory.attestations).length, 0, conflicts⟩), e') ∧
      e'.Exports d ∧ List.Forall₂ Account.SameRows e.ledger.accounts e'.ledger.accounts := by
  have kept := reached.kept
  have arranged := reached.arranged
  obtain ⟨r, hs, network, told, -⟩ := kept.ledger.export_ok known
  obtain ⟨none, told'⟩ := kept.rebuilt (r := r) arranged told
  obtain ⟨conflicts, counted⟩ := ImportSummary.addHistories_of_fresh
    (Ledger.Arranged.fresh.adopt r) (arranged.tidy_of_told told) (fun _ _ => rfl) .none
  have summary : fresh.importSummary (.current r hs) = ⟨hs.length,
      (hs.flatMap KeyHistory.blocks).length, 0, (hs.flatMap KeyHistory.attestations).length, 0,
      conflicts⟩ := by
    refine counted.trans ?_
    simp [ImportSummary.none]
  refine ⟨.current r hs, fresh.imported (.current r hs), conflicts,
    kept.exports arranged network told, ?_, ?_, sameRows_of_told told told'⟩
  · rw [kept.call_importText_told arranged registered told, summary]
    rfl
  · exact (Kept.fresh.imported none).exports
      ((Ledger.Arranged.fresh.adopt r).absorbAll hs) (Kept.fresh.network_imported none) told'

theorem export_import_lossless_conflict :
    (fresh.call (.importText voteText)).1 = .ok (.imported ⟨1, 0, 0, 2, 0, 1⟩) ∧
    ∃ d e' conflicts, (fresh.run [.importText voteText]).Exports d ∧
      fresh.call (.importText (Text.Utf8.ofText d.page)) =
        (.ok (.imported ⟨d.histories.length, (d.histories.flatMap KeyHistory.blocks).length, 0,
          (d.histories.flatMap KeyHistory.attestations).length, 0, conflicts⟩), e') ∧
      e'.Exports d ∧ List.Forall₂ Account.SameRows
        (fresh.run [.importText voteText]).ledger.accounts e'.ledger.accounts := by
  have reached : (fresh.run [.importText voteText]).Reached := reached_run .fresh _
  have registered : (fresh.run [.importText voteText]).ledger.accounts ≠ [] := by
    rw [run_cons, call_voteText]
    decide
  have known : (fresh.run [.importText voteText]).ledger.network ≠ none := by
    rw [run_cons, call_voteText]
    decide
  exact ⟨congrArg Prod.fst call_voteText, export_import_lossless reached registered known⟩

end Engine

end SlashGuard
