import SlashGuard.Proofs.Documents
import SlashGuard.Proofs.Reached
import SlashGuard.Proofs.Retelling

/-! An import joins what it reads to what is stored: rows are united key by key, marks rise to the
highest of what is then stored, and nothing else changes. So the order and grouping of what is read
leave no trace, and reading it again changes nothing. -/
namespace SlashGuard

theorem Ledger.historyOf_adopt (l : Ledger) (r : Root) (key : PublicKey) :
    (l.adopt r).historyOf key = l.historyOf key := by
  simp only [historyOf, idOf_adopt]
  cases l.idOf key with
  | none => rfl
  | some id => exact history_adopt l r id

theorem History.stores_join {h : History} {bs : List Block} {vs : List Attestation} {r : Record} :
    (h.join (bs.map Block.row) (vs.map Attestation.row)).Stores r ↔
      h.Stores r ∨ (∃ b ∈ bs, r = .block b) ∨ ∃ a ∈ vs, r = .attestation a := by
  rw [join, stores_importAttestations, stores_importBlocks, or_assoc]

theorem Import.reports_iff {hs : List KeyHistory} {key : PublicKey} {r : Record} :
    (∃ b ∈ Ledger.blocksFor key hs, r = .block b) ∨
      (∃ a ∈ Ledger.votesFor key hs, r = .attestation a) ↔ Reports hs key r := by
  cases r with
  | block b => simp [← mem_blocksFor_iff]
  | attestation a => simp [← mem_votesFor_iff]

theorem Import.blocksFor_rows {hs : List KeyHistory} {key : PublicKey} :
    (Ledger.blocksFor key hs).map Block.row = [] ↔ ¬ ∃ b, Reports hs key (.block b) := by
  rw [List.map_eq_nil_iff, List.eq_nil_iff_forall_not_mem, not_exists]
  exact forall_congr' fun b => not_congr mem_blocksFor_iff

theorem Import.votesFor_rows {hs : List KeyHistory} {key : PublicKey} :
    (Ledger.votesFor key hs).map Attestation.row = [] ↔
      ¬ ∃ a, Reports hs key (.attestation a) := by
  rw [List.map_eq_nil_iff, List.eq_nil_iff_forall_not_mem, not_exists]
  exact forall_congr' fun a => not_congr mem_votesFor_iff

namespace Engine

variable {e e' : Engine} {d : Document}

/-- An engine to which the entries of a document are joined: a mark of a kind that the document
reports for a key is the highest of what it was and all that is stored. -/
structure Joins (e : Engine) (d : Document) (e' : Engine) : Prop where
  network : e'.ledger.network = some d.metadata.network.bytes
  old : e.ledger.roster <+: e'.ledger.roster
  once : (e'.ledger.roster.map Prod.snd).Nodup
  keys : ∀ key, (e'.ledger.idOf key).isSome = true ↔
    (e.ledger.idOf key).isSome = true ∨ Import.Names d.histories key
  rows : ∀ key r, (e'.ledger.historyOf key).Stores r ↔
    (e.ledger.historyOf key).Stores r ∨ Import.Reports d.histories key r
  slot : ∀ key, (∃ b, Import.Reports d.histories key (.block b)) →
    (e'.ledger.historyOf key).floorOrEmpty.slot =
      History.highest (e.ledger.historyOf key).floorOrEmpty.slot
        ((e'.ledger.historyOf key).blocks.map BlockRow.slot)
  slotKept : ∀ key, (¬ ∃ b, Import.Reports d.histories key (.block b)) →
    (e'.ledger.historyOf key).floorOrEmpty.slot = (e.ledger.historyOf key).floorOrEmpty.slot
  epochs : ∀ key, (∃ a, Import.Reports d.histories key (.attestation a)) →
    (e'.ledger.historyOf key).floorOrEmpty.source =
        History.highest (e.ledger.historyOf key).floorOrEmpty.source
          ((e'.ledger.historyOf key).attestations.map AttestationRow.source) ∧
      (e'.ledger.historyOf key).floorOrEmpty.target =
        History.highest (e.ledger.historyOf key).floorOrEmpty.target
          ((e'.ledger.historyOf key).attestations.map AttestationRow.target)
  epochsKept : ∀ key, (¬ ∃ a, Import.Reports d.histories key (.attestation a)) →
    (e'.ledger.historyOf key).floorOrEmpty.source =
        (e.ledger.historyOf key).floorOrEmpty.source ∧
      (e'.ledger.historyOf key).floorOrEmpty.target = (e.ledger.historyOf key).floorOrEmpty.target
  others : ∀ key, (∀ r, ¬ Import.Reports d.histories key r) →
    e'.ledger.historyOf key = e.ledger.historyOf key
  version : e'.ledger.version = e.ledger.version
  issued : e'.ledger.issued = e.ledger.issued + d.histories.length
  access : e'.access = e.access
  guard : e'.guard = e.guard.pin d.metadata.network

theorem historyOf_imported (arranged : e.ledger.Arranged) (d : Document) (key : PublicKey) :
    (e.imported d).ledger.historyOf key = (e.ledger.historyOf key).join
      ((Ledger.blocksFor key d.histories).map Block.row)
      ((Ledger.votesFor key d.histories).map Attestation.row) := by
  have absorbed := Ledger.historyOf_absorbAll (arranged.adopt d.metadata.network) d.histories key
  rwa [Ledger.historyOf_adopt] at absorbed

theorem Kept.joins_imported (kept : e.Kept) (arranged : e.ledger.Arranged)
    (none : d.faults e.ledger = []) : e.Joins d (e.imported d) where
  network := kept.network_imported none
  old := by
    have more := Ledger.roster_prefix_absorbAll (e.ledger.adopt d.metadata.network) d.histories
    rwa [Ledger.roster_adopt] at more
  once := by
    have keys := ((arranged.adopt d.metadata.network).absorbAll d.histories).keys
    rwa [Ledger.keys_eq_roster] at keys
  keys := by
    intro key
    have registered := Ledger.isSome_idOf_absorbAll (e.ledger.adopt d.metadata.network)
      d.histories key
    rwa [Ledger.idOf_adopt] at registered
  rows := by
    intro key r
    rw [historyOf_imported arranged, History.stores_join, Import.reports_iff]
  slot := by
    intro key reported
    rw [historyOf_imported arranged, History.floor_join]
    exact if_neg fun empty => Import.blocksFor_rows.mp empty reported
  slotKept := by
    intro key silent
    rw [historyOf_imported arranged, History.floor_join]
    exact if_pos (Import.blocksFor_rows.mpr silent)
  epochs := by
    intro key reported
    have some : (Ledger.votesFor key d.histories).map Attestation.row ≠ [] :=
      fun empty => Import.votesFor_rows.mp empty reported
    rw [historyOf_imported arranged, History.floor_join]
    exact ⟨if_neg some, if_neg some⟩
  epochsKept := by
    intro key silent
    have empty := Import.votesFor_rows.mpr silent
    rw [historyOf_imported arranged, History.floor_join]
    exact ⟨if_pos empty, if_pos empty⟩
  others := by
    intro key silent
    rw [historyOf_imported arranged, Import.blocksFor_rows.mpr fun ⟨b, reported⟩ =>
      silent _ reported, Import.votesFor_rows.mpr fun ⟨a, reported⟩ => silent _ reported]
    rfl
  version := by
    have same := Ledger.version_absorbAll (e.ledger.adopt d.metadata.network) d.histories
    rwa [Ledger.version_adopt] at same
  issued := by
    have more := Ledger.issued_absorbAll (e.ledger.adopt d.metadata.network) d.histories
    rwa [Ledger.issued_adopt] at more
  access := rfl
  guard := rfl

def importAll : Engine → List Document → Except Failure Engine
  | e, [] => .ok e
  | e, d :: ds => do
    let (_, e) ← e.importDocument d
    importAll e ds

theorem Kept.imported (kept : e.Kept) (none : d.faults e.ledger = []) : (e.imported d).Kept := by
  have moves := (kept.imported_moves none).1
  exact (Moved.pin (kept.network_imported none) (.head (.adopt _) moves)).kept kept

theorem Kept.importAll_eq (kept : e.Kept) {ds : List Document}
    (entries : ∀ d' ∈ d :: ds, d'.histories ≠ [])
    (network : ∀ d' ∈ ds, d'.metadata.network = d.metadata.network)
    (takes : e.ledger.Takes d.metadata.network)
    (good : ∀ h ∈ (d :: ds).flatMap Document.histories, h.Good) :
    e.importAll (d :: ds) = .ok { e with
      ledger := (e.ledger.adopt d.metadata.network).absorbAll
        ((d :: ds).flatMap Document.histories)
      guard := e.guard.pin d.metadata.network } := by
  induction ds generalizing e d with
  | nil =>
    have none : d.faults e.ledger = [] :=
      (faults_eq_nil kept.ledger).mpr ⟨takes, by simpa using good⟩
    rw [importAll, kept.importDocument_eq (entries d (by simp)), none]
    simp [barring, importAll, Engine.imported]
  | cons d' ds ih =>
    obtain ⟨first, rest⟩ := List.forall_mem_append.mp (List.flatMap_cons ▸ good)
    obtain ⟨same, others⟩ := List.forall_mem_cons.mp network
    have none : d.faults e.ledger = [] := (faults_eq_nil kept.ledger).mpr ⟨takes, first⟩
    -- The first document stores the network, and the others adopt nothing.
    have known := kept.network_imported none
    have takes' : (e.imported d).ledger.Takes d'.metadata.network := by
      rw [same]
      exact (takes_iff known).mpr rfl
    have later := @ih (e.imported d) d' (kept.imported none)
      (fun d'' member => entries d'' (List.mem_cons_of_mem d member))
      (fun d'' member => (others d'' member).trans same.symm) takes' rest
    rw [importAll, kept.importDocument_eq (entries d (by simp)), none]
    refine later.trans ?_
    rw [same, adopt_eq_of_stored known, List.flatMap_cons (x := d)]
    simp only [Engine.imported, Ledger.absorbAll, List.foldl_append]
    rfl

/-- Importing a document again uses up ids, skips every record and changes nothing else. -/
theorem Kept.importDocument_again (kept : e.Kept) (arranged : e.ledger.Arranged)
    (entries : d.histories ≠ []) (none : d.faults e.ledger = []) :
    (e.imported d).importDocument d = .ok (⟨d.histories.length, 0,
        (d.histories.flatMap KeyHistory.blocks).length, 0,
        (d.histories.flatMap KeyHistory.attestations).length, 0⟩,
      { e.imported d with ledger := { (e.imported d).ledger with
        issued := (e.imported d).ledger.issued + d.histories.length } }) := by
  have kept' := kept.imported none
  have distinct := kept'.ledger.distinct
  have known := kept.network_imported none
  have knows : ∀ h ∈ d.histories, (e.imported d).ledger.Knows h :=
    fun h member => Ledger.knows_absorbAll (arranged.adopt _) member
  have none' : d.faults (e.imported d).ledger = [] :=
    (faults_eq_nil kept'.ledger).mpr
      ⟨(takes_iff known).mpr rfl, ((faults_eq_nil kept.ledger).mp none).2⟩
  have summary : (e.imported d).importSummary d = ⟨d.histories.length, 0,
      (d.histories.flatMap KeyHistory.blocks).length, 0,
      (d.histories.flatMap KeyHistory.attestations).length, 0⟩ := by
    rw [importSummary, adopt_eq_of_stored known,
      ImportSummary.addHistories_of_knows distinct knows]
    simp [ImportSummary.none]
  have engine : (e.imported d).imported d = { e.imported d with
      ledger := { (e.imported d).ledger with
        issued := (e.imported d).ledger.issued + d.histories.length } } := by
    rw [Engine.imported, adopt_eq_of_stored known, Ledger.absorbAll_of_knows distinct knows]
    rfl
  rw [kept'.importDocument_eq entries, none', summary, engine]
  rfl

/-- An import that succeeds joins the entries of the document to the store. Entries that are
rearranged and spread over any number of documents lead to the same store but for ids, and importing
the document again only skips. -/
theorem import_joins (reached : e.Reached) (entries : d.histories ≠ []) {summary : ImportSummary}
    (imported : e.importDocument d = .ok (summary, e')) :
    e.Joins d e' ∧
    (∀ ds : List Document,
      (∀ d' ∈ ds, d'.histories ≠ [] ∧ d'.metadata.network = d.metadata.network) →
      Import.Rearranged d.histories (ds.flatMap Document.histories) →
      ∃ e'', e.importAll ds = .ok e'' ∧ e'.ledger.Alike e''.ledger ∧
        e.ledger.roster <+: e''.ledger.roster ∧ e''.guard = e'.guard ∧ e''.access = e'.access) ∧
    e'.importDocument d = .ok (⟨d.histories.length, 0,
        (d.histories.flatMap KeyHistory.blocks).length, 0,
        (d.histories.flatMap KeyHistory.attestations).length, 0⟩,
      { e' with ledger := { e'.ledger with issued := e'.ledger.issued + d.histories.length } }) := by
  have kept := reached.kept
  have arranged := reached.arranged
  rw [kept.importDocument_eq entries, barring_eq_ok] at imported
  obtain ⟨none, same⟩ := imported
  cases same
  obtain ⟨takes, good⟩ := (faults_eq_nil kept.ledger).mp none
  refine ⟨kept.joins_imported arranged none, ?_, ?_⟩
  · intro ds each rearranged
    have agree := rearranged.agree
    cases ds with
    | nil =>
      -- No documents at all tell of no key, but the given one does.
      obtain ⟨h, member⟩ := List.exists_mem_of_ne_nil _ entries
      obtain ⟨h', absent, -⟩ := (agree.keys h.key).mp ⟨h, member, rfl⟩
      cases absent
    | cons d' ds =>
      obtain ⟨⟨-, network⟩, others⟩ := List.forall_mem_cons.mp each
      have all := @Kept.importAll_eq e d' kept ds (fun d'' member => (each d'' member).1)
        (fun d'' member => (others d'' member).2.trans network.symm) (network ▸ takes)
        (agree.good good)
      rw [network] at all
      refine ⟨_, all, Ledger.absorbAll_alike (arranged.adopt _) agree, ?_, rfl, rfl⟩
      have more := Ledger.roster_prefix_absorbAll (e.ledger.adopt d.metadata.network)
        ((d' :: ds).flatMap Document.histories)
      rwa [Ledger.roster_adopt] at more
  · exact kept.importDocument_again arranged entries none

def splitDocument : Document :=
  .current (.filled 0)
    [⟨.single 1, [⟨⟨3⟩, .filled 1⟩], []⟩, ⟨.single 2, [], [⟨⟨1⟩, ⟨2⟩, .filled 2⟩]⟩,
      ⟨.single 1, [⟨⟨5⟩, .filled 3⟩, ⟨⟨3⟩, .filled 1⟩], []⟩]

theorem import_joins_split : ∃ summary e', fresh.importDocument splitDocument = .ok (summary, e') ∧
    fresh.Joins splitDocument e' ∧ ∃ e'', fresh.importAll
      [.current (.filled 0) [⟨.single 2, [], [⟨⟨1⟩, ⟨2⟩, .filled 2⟩]⟩],
        .current (.filled 0) [⟨.single 1, [⟨⟨3⟩, .filled 1⟩], []⟩,
          ⟨.single 1, [⟨⟨5⟩, .filled 3⟩, ⟨⟨3⟩, .filled 1⟩], []⟩]] = .ok e'' ∧
      e'.ledger.Alike e''.ledger := by
  have none : splitDocument.faults fresh.ledger = [] := by decide +kernel
  have entries : splitDocument.histories ≠ [] := nofun
  have imported := Kept.fresh.importDocument_eq entries
  rw [none] at imported
  obtain ⟨joins, rearranged, -⟩ := import_joins .fresh entries imported
  obtain ⟨e'', all, alike, -⟩ := rearranged
    [.current (.filled 0) [⟨.single 2, [], [⟨⟨1⟩, ⟨2⟩, .filled 2⟩]⟩],
      .current (.filled 0) [⟨.single 1, [⟨⟨3⟩, .filled 1⟩], []⟩,
        ⟨.single 1, [⟨⟨5⟩, .filled 3⟩, ⟨⟨3⟩, .filled 1⟩], []⟩]]
    (by simp [splitDocument, Document.current, Document.histories])
    (.entries (List.Perm.swap _ _ _))
  exact ⟨_, _, imported, joins, e'', all, alike⟩

end Engine

end SlashGuard
