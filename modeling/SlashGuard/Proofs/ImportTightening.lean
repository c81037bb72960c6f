import SlashGuard.Proofs.ImportJoin
import SlashGuard.Proofs.PruningSafety
import SlashGuard.Proofs.Writes

/-! An import tightens signing. What is fresh after it was fresh before; of what was refused before
only a record that the document lists can pass, as the same data; and all that is stored of a
validator of whom records were imported lies under the marks. -/
namespace SlashGuard

namespace History

theorem exists_highest (old : Option Int) {vs : List Int} {v : Int} (member : v ∈ vs) :
    ∃ top, highest old vs = some top ∧ v ≤ top := by
  unfold highest
  cases found : (old.toList ++ vs).max? with
  | none =>
    have empty := List.append_eq_nil_iff.mp (List.max?_eq_none_iff.mp found)
    rw [empty.2] at member
    cases member
  | some top =>
    have bound := (List.max?_eq_some_iff.mp found).2
    exact ⟨top, rfl, bound v (List.mem_append_right _ member)⟩

theorem blocks_below {h : History} {old : Option Int} {b c : Block}
    (top : h.floorOrEmpty.slot = highest old (h.blocks.map BlockRow.slot))
    (above : h.Open (.block b)) (stored : h.Stores (.block c)) :
    c.slot.number < b.slot.number := by
  have member : c.row.slot ∈ h.blocks.map BlockRow.slot := List.mem_map_of_mem stored
  obtain ⟨low, mark, le⟩ := exists_highest old member
  have lt : low < b.row.slot := above low (top.trans mark)
  exact toNat_cast_lt.mp (Int.lt_of_le_of_lt le lt)

theorem votes_below {h : History} {begins ends : Option Int} {a c : Attestation}
    (source : h.floorOrEmpty.source = highest begins (h.attestations.map AttestationRow.source))
    (target : h.floorOrEmpty.target = highest ends (h.attestations.map AttestationRow.target))
    (above : h.Open (.attestation a)) (stored : h.Stores (.attestation c)) :
    c.target.number < a.target.number ∧ c.source.number ≤ a.source.number := by
  have first : c.row.source ∈ h.attestations.map AttestationRow.source :=
    List.mem_map_of_mem stored
  have last : c.row.target ∈ h.attestations.map AttestationRow.target :=
    List.mem_map_of_mem stored
  obtain ⟨s, hs, les⟩ := exists_highest begins first
  obtain ⟨t, ht, let_⟩ := exists_highest ends last
  have low : s ≤ a.row.source := above.1 s (source.trans hs)
  have high : t < a.row.target := above.2 t (target.trans ht)
  constructor
  · exact toNat_cast_lt.mp (Int.lt_of_le_of_lt let_ high)
  · exact UInt64.le_iff_toNat_le.mpr (Int.ofNat_le.mp (Int.le_trans les low))

end History

namespace Engine

variable {e e' : Engine} {d : Document} {summary : ImportSummary} {id : Int} {network : Root}
  {r : Record}

theorem Kept.importDocument_ok (kept : e.Kept)
    (imported : e.importDocument d = .ok (summary, e')) :
    (d.histories = [] ∧ e' = e) ∨ (d.faults e.ledger = [] ∧ e' = e.imported d) := by
  rcases kept.importDocument_cases d with ⟨f, failed⟩ | ⟨s, ⟨entries, done⟩ | ⟨none, done⟩⟩
  · rw [failed] at imported
    cases imported
  · rw [done] at imported
    cases imported
    exact .inl ⟨entries, rfl⟩
  · rw [done] at imported
    cases imported
    exact .inr ⟨none, rfl⟩

theorem Kept.importDocument_kept (kept : e.Kept)
    (imported : e.importDocument d = .ok (summary, e')) : e'.Kept := by
  rcases kept.importDocument_ok imported with ⟨-, rfl⟩ | ⟨none, rfl⟩
  · exact kept
  · exact kept.imported none

theorem Kept.importDocument_grows (kept : e.Kept)
    (imported : e.importDocument d = .ok (summary, e')) :
    Ledger.Grows (Import.Lists d.histories e'.ledger) e.ledger e'.ledger := by
  rcases kept.importDocument_ok imported with ⟨-, rfl⟩ | ⟨none, rfl⟩
  · exact .refl _
  · have moves : Ledger.Moves (Import.Lists d.histories (e.imported d).ledger) e.ledger
        (e.imported d).ledger := .head (.adopt _) (kept.imported_moves none).1
    exact moves.grows kept.ledger

/-- What an engine approves as fresh later, it would have approved as fresh before. -/
theorem Kept.valid_before {told : Int → Record → Prop} (kept : e.Kept) (kept' : e'.Kept)
    (grows : Ledger.Grows told e.ledger e'.ledger) (registered : e.ledger.isRegistered id = true)
    (valid : (e'.call (.sign id network r)).1 = .ok (.verdict (.allowed .valid))) :
    (e.call (.sign id network r)).1 = .ok (.verdict (.allowed .valid)) := by
  obtain ⟨decides, judged⟩ := kept'.approved_iff.mp valid
  have takes : e.ledger.Takes network :=
    fun bytes known => decides.takes bytes (grows.network bytes known)
  have legible := (kept.ledger.histories id).legible
  exact kept.approved_iff.mpr
    ⟨⟨takes, registered, decides.fits⟩, (grows.advances id).valid legible judged⟩

/-- An import drops no rows, so a stored record that was refused stays refused. -/
theorem Kept.listed_of_passes (kept : e.Kept)
    (imported : e.importDocument d = .ok (summary, e')) {safe : Safe}
    (refused : e.Refuses (.sign id network r))
    (allowed : (e'.call (.sign id network r)).1 = .ok (.verdict (.allowed safe))) :
    safe = .sameData ∧ Import.Lists d.histories e'.ledger id r := by
  have grows := kept.importDocument_grows imported
  have kept' := kept.importDocument_kept imported
  obtain ⟨-, passed⟩ := kept'.approved_iff.mp allowed
  have range := History.not_inverted_of_judge passed
  obtain ⟨-, why, judged⟩ := (kept.refuses_iff range).mp refused
  have legible := (kept.ledger.histories id).legible
  cases safe with
  | valid =>
    rw [(grows.advances id).valid legible passed] at judged
    cases judged
  | sameData =>
    have legible' := (kept'.ledger.histories id).legible
    obtain ⟨-, stored, apart⟩ := legible'.judge_sameData.mp passed
    rcases grows.told id r stored with before | listed
    · obtain ⟨x, hx, clash⟩ := legible.clash_of_refused range before judged
      have writes : Ledger.Writes False e.ledger e'.ledger := importDocument_writes imported
      exact False.elim (apart x (writes.stores not_false hx) clash)
    · exact ⟨rfl, listed⟩

theorem Kept.joins_of_lists (kept : e.Kept) (arranged : e.ledger.Arranged)
    (imported : e.importDocument d = .ok (summary, e'))
    (listed : Import.Lists d.histories e'.ledger id r) :
    e.Joins d e' ∧ ∃ key, Import.Reports d.histories key r ∧
      e'.ledger.historyOf key = e'.ledger.history id := by
  obtain ⟨h, member, known, lists⟩ := listed
  rcases kept.importDocument_ok imported with ⟨none, -⟩ | ⟨none, rfl⟩
  · rw [none] at member
    cases member
  · exact ⟨kept.joins_imported arranged none, h.key, ⟨h, member, rfl, lists⟩,
      Ledger.historyOf_eq known⟩

/-- What is approved as fresh after an import would have been before it, and what was refused before
it passes only as the same data, if the document lists it for the validator. After the import of
blocks a fresh block lies above all that are stored, and after the import of attestations a fresh
one ends after all that are stored and begins before none. -/
theorem import_tightens (reached : e.Reached)
    (imported : e.importDocument d = .ok (summary, e')) :
    (∀ id network r, e.ledger.isRegistered id = true →
      ((e'.call (.sign id network r)).1 = .ok (.verdict (.allowed .valid)) →
        (e.call (.sign id network r)).1 = .ok (.verdict (.allowed .valid))) ∧
      ∀ safe, e.Refuses (.sign id network r) →
        (e'.call (.sign id network r)).1 = .ok (.verdict (.allowed safe)) →
        safe = .sameData ∧ Import.Lists d.histories e'.ledger id r) ∧
    (∀ id, (∃ b, Import.Lists d.histories e'.ledger id (.block b)) → ∀ network b,
      (e'.call (.maySignBlock id b network)).1 = .ok (.verdict (.allowed .valid)) →
      ∀ c, (e'.ledger.history id).Stores (.block c) → c.slot.number < b.slot.number) ∧
    ∀ id, (∃ a, Import.Lists d.histories e'.ledger id (.attestation a)) → ∀ network a,
      (e'.call (.maySignAttestation id a network)).1 = .ok (.verdict (.allowed .valid)) →
      ∀ c, (e'.ledger.history id).Stores (.attestation c) →
        c.target.number < a.target.number ∧ c.source.number ≤ a.source.number := by
  have kept := reached.kept
  have kept' := kept.importDocument_kept imported
  refine ⟨?_, ?_, ?_⟩
  · intro id network r registered
    constructor
    · exact kept.valid_before kept' (kept.importDocument_grows imported) registered
    · intro safe refused allowed
      exact kept.listed_of_passes imported refused allowed
  · rintro id ⟨x, listed⟩ network b valid c stored
    obtain ⟨-, judged⟩ := (kept'.approved_iff (r := .block b)).mp valid
    obtain ⟨joins, key, reported, same⟩ := kept.joins_of_lists reached.arranged imported listed
    -- The import has left the mark at the highest slot that is stored.
    have top := joins.slot key ⟨x, reported⟩
    rw [same] at top
    exact History.blocks_below top (History.open_of_valid judged) stored
  · rintro id ⟨x, listed⟩ network a valid c stored
    obtain ⟨-, judged⟩ := (kept'.approved_iff (r := .attestation a)).mp valid
    obtain ⟨joins, key, reported, same⟩ := kept.joins_of_lists reached.arranged imported listed
    obtain ⟨source, target⟩ := joins.epochs key ⟨x, reported⟩
    rw [same] at source target
    exact History.votes_below source target (History.open_of_valid judged) stored

def tightenedRun : List Call :=
  [.register [.single 1], .maySignBlock 1 ⟨⟨5⟩, .filled 1⟩ (.filled 0)]

def olderDocument : Document := .current (.filled 0) [⟨.single 1, [⟨⟨3⟩, .filled 2⟩], []⟩]

theorem import_tightens_older : ∃ summary e',
    (fresh.run tightenedRun).importDocument olderDocument = .ok (summary, e') ∧
      (fresh.run tightenedRun).Refuses (.sign 1 (.filled 0) (.block ⟨⟨3⟩, .filled 2⟩)) ∧
      (e'.call (.sign 1 (.filled 0) (.block ⟨⟨3⟩, .filled 2⟩))).1 =
        .ok (.verdict (.allowed .sameData)) ∧
      Import.Lists olderDocument.histories e'.ledger 1 (.block ⟨⟨3⟩, .filled 2⟩) ∧
      ∀ c, (e'.ledger.history 1).Stores (.block c) → c.slot.number < 6 := by
  have reached : (fresh.run tightenedRun).Reached := reached_run .fresh tightenedRun
  have none : olderDocument.faults (fresh.run tightenedRun).ledger = [] := by decide +kernel
  have imported := reached.kept.importDocument_eq (d := olderDocument) nofun
  rw [none] at imported
  obtain ⟨requests, blocks, -⟩ := import_tightens reached imported
  have refused : (fresh.run tightenedRun).Refuses
      (.sign 1 (.filled 0) (.block ⟨⟨3⟩, .filled 2⟩)) := ⟨.tooOld, by decide +kernel⟩
  have replayed : (((fresh.run tightenedRun).imported olderDocument).call
      (.sign 1 (.filled 0) (.block ⟨⟨3⟩, .filled 2⟩))).1 = .ok (.verdict (.allowed .sameData)) := by
    decide +kernel
  have listed := ((requests 1 _ _ (by decide +kernel)).2 _ refused replayed).2
  have below := blocks 1 ⟨_, listed⟩ (.filled 0) ⟨⟨6⟩, .filled 1⟩ (by decide +kernel)
  exact ⟨_, _, imported, refused, replayed, listed, below⟩

end Engine

end SlashGuard
