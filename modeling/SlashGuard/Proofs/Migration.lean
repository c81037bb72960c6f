import SlashGuard.Proofs.RoundTrip

/-! What becomes of refusals when a signer moves to a fresh store by an exported document. The
document carries rows and no floor, so the floor is set again at the highest of what is stored. It
reopens an attestation only where pruning has dropped each row that begins as late as the floor. -/
namespace SlashGuard

namespace History

def rebuilt (h : History) : History := History.empty.join h.blocks h.attestations

/-- An attestation begins below the floor but at or above all that is stored, and ends above it. -/
def Reopens (h : History) (r : Record) : Prop :=
  ∃ a, r = .attestation a ∧ r.Fits ∧ ¬ r.Inverted ∧
    (∀ x ∈ h.attestations, x.source ≤ a.row.source ∧ x.target < a.row.target) ∧
    ∃ low, h.floorOrEmpty.source = some low ∧ a.row.source < low

variable {h : History}

theorem Arranged.blocks_rebuilt (arranged : h.Arranged) : h.rebuilt.blocks = h.blocks :=
  blocks_join.trans (arranged.blocks.insertAll_nil BlockRow.place_injective)

theorem Arranged.attestations_rebuilt (arranged : h.Arranged) :
    h.rebuilt.attestations = h.attestations :=
  attestations_join.trans (arranged.votes.insertAll_nil AttestationRow.place_injective)

theorem Arranged.stores_rebuilt (arranged : h.Arranged) {r : Record} :
    h.rebuilt.Stores r ↔ h.Stores r := by
  cases r with
  | block b => simp only [Stores, arranged.blocks_rebuilt]
  | attestation a => simp only [Stores, arranged.attestations_rebuilt]

theorem highest_none (vs : List Int) : highest none vs = vs.max? := rfl

theorem Arranged.floor_rebuilt (arranged : h.Arranged) : h.rebuilt.floorOrEmpty =
    ⟨(h.blocks.map BlockRow.slot).max?, (h.attestations.map AttestationRow.source).max?,
      (h.attestations.map AttestationRow.target).max?⟩ := by
  have rows : (History.empty.join h.blocks h.attestations).blocks = h.blocks :=
    arranged.blocks_rebuilt
  have votes : (History.empty.join h.blocks h.attestations).attestations = h.attestations :=
    arranged.attestations_rebuilt
  rw [rebuilt, floor_join, rows, votes]
  by_cases none : h.blocks = [] <;> by_cases none' : h.attestations = [] <;>
    simp [none, none', History.empty, floorOrEmpty, highest_none]

theorem forall_max_iff {α : Type} {f : α → Int} {xs : List α} {P : Int → Prop}
    (down : ∀ {v w : Int}, v ≤ w → P w → P v) :
    (∀ low, (xs.map f).max? = some low → P low) ↔ ∀ x ∈ xs, P (f x) := by
  constructor
  · intro top x hx
    obtain ⟨y, -, highest, bound⟩ := exists_max f (List.ne_nil_of_mem hx)
    exact down (bound x hx) (top (f y) highest)
  · intro all low top
    obtain ⟨x, hx, rfl⟩ := List.mem_map.mp (List.max?_eq_some_iff.mp top).1
    exact all x hx

theorem Arranged.blockOpen_rebuilt (arranged : h.Arranged) {r : BlockRow} :
    h.rebuilt.BlockOpen r ↔ ∀ x ∈ h.blocks, x.slot < r.slot := by
  rw [BlockOpen, arranged.floor_rebuilt]
  exact forall_max_iff Int.lt_of_le_of_lt

theorem Arranged.voteOpen_rebuilt (arranged : h.Arranged) {r : AttestationRow} :
    h.rebuilt.VoteOpen r ↔
      ∀ x ∈ h.attestations, x.source ≤ r.source ∧ x.target < r.target := by
  rw [VoteOpen, arranged.floor_rebuilt]
  have begins := @forall_max_iff _ AttestationRow.source h.attestations (· ≤ r.source) Int.le_trans
  have ends := @forall_max_iff _ AttestationRow.target h.attestations (· < r.target)
    Int.lt_of_le_of_lt
  rw [begins, ends, ← forall₂_and]

theorem Arranged.apart_rebuilt (arranged : h.Arranged) {r : Record} :
    h.rebuilt.Apart r ↔ h.Apart r :=
  forall_congr' fun _ => imp_congr_left arranged.stores_rebuilt

/-- The slot mark stands at a stored block, so what is above all blocks is above the floor. -/
theorem Kept.blockOpen (kept : h.Kept) {r : BlockRow} (above : ∀ x ∈ h.blocks, x.slot < r.slot) :
    h.BlockOpen r := by
  intro low mark
  obtain ⟨b, hb, rfl⟩ := kept.blocks.marked low mark
  exact above b hb

theorem Kept.target_lt (kept : h.Kept) {v : Int} (above : ∀ x ∈ h.attestations, x.target < v) :
    ∀ low, h.floorOrEmpty.target = some low → low < v := by
  intro low mark
  rcases kept.votes.marks with ⟨-, none, -⟩ | ⟨s, t, -, set, held⟩
  · rw [none] at mark
    cases mark
  · rw [set] at mark
    cases mark
    obtain ⟨a, ha, rfl, -⟩ := held.reached
    exact above a ha

theorem Kept.reopens (kept : h.Kept) (arranged : h.Arranged) (legible : h.rebuilt.Legible)
    {r : Record} (fits : r.Fits) {why : Refusal} (refused : h.judge r = .refused why) {safe : Safe}
    (allowed : h.rebuilt.judge r = .allowed safe) : h.Reopens r := by
  have range := not_inverted_of_judge allowed
  have apart := arranged.apart_rebuilt.mp (legible.apart_of_judge allowed)
  have closed : ¬ h.Open r := by
    intro above
    obtain ⟨safe, passed⟩ := kept.legible.judge_of_open range apart above
    rw [refused] at passed
    cases passed
  have fresh : ¬ h.Stores r := by
    intro stored
    rw [kept.legible.judge_sameData.mpr ⟨range, stored, apart⟩] at refused
    cases refused
  have above : h.rebuilt.Open r := by
    cases safe with
    | valid => exact open_of_valid allowed
    | sameData =>
      exact False.elim (fresh (arranged.stores_rebuilt.mp (legible.judge_sameData.mp allowed).2.1))
  cases r with
  | block b => exact False.elim (closed (kept.blockOpen (arranged.blockOpen_rebuilt.mp above)))
  | attestation a =>
    have above := arranged.voteOpen_rebuilt.mp above
    refine ⟨a, rfl, fits, range, above, ?_⟩
    -- The target lies above its mark, so only the source can be what is too old.
    apply Classical.byContradiction
    intro none
    refine closed ⟨fun low mark => ?_, kept.target_lt fun x hx => (above x hx).2⟩
    exact Int.not_lt.mp fun below => none ⟨low, mark, below⟩

theorem Reopens.judge (kept : h.Kept) (arranged : h.Arranged) {r : Record}
    (reopens : h.Reopens r) :
    h.judge r = .refused .tooOld ∧ h.rebuilt.judge r = .allowed .valid := by
  obtain ⟨a, rfl, -, range, above, low, mark, below⟩ := reopens
  have fresh : ¬ h.Stores (.attestation a) := fun stored => Int.lt_irrefl _ (above a.row stored).2
  have apart : ∀ x ∈ h.attestations, ¬ x.Slashable a.row := by
    rintro x hx (⟨target, -⟩ | ⟨-, ends⟩ | ⟨begins, -⟩)
    · exact Int.ne_of_lt (above x hx).2 target
    · exact Int.lt_asymm (above x hx).2 ends
    · exact Int.not_lt.mpr (above x hx).1 begins
  constructor
  · have closed : ¬ h.Open (.attestation a) :=
      fun higher => Int.not_lt.mpr (higher.1 low mark) below
    exact kept.legible.judge_tooOld range (kept.legible.apart_attestation.mpr apart) fresh closed
  · refine judgeAttestation_valid.mpr ⟨Int.not_lt.mp (mt toNat_cast_lt.mp range), ?_, ?_, ?_⟩
    · exact fun stored => fresh (arranged.stores_rebuilt.mp stored)
    · rw [arranged.attestations_rebuilt]
      exact apart
    · exact arranged.voteOpen_rebuilt.mpr above

end History

namespace Engine

variable {e e' : Engine}

def Migrates (e e' : Engine) : Prop := ∃ text summary,
  e.call .exportText = (.ok (.text text), e) ∧
    fresh.call (.importText (Text.Utf8.ofText text)) = (.ok (.imported summary), e')

theorem decides_iff {id : Int} {network : Root} {r : Record}
    (known : e.ledger.network = some network.bytes) (registered : e.ledger.isRegistered id = true) :
    e.Decides id network r ↔ r.Fits :=
  ⟨Decides.fits, fun fits => ⟨(takes_iff known).mpr rfl, registered, fits⟩⟩

/-- The rows of a validator stand in a second engine on the same network, with a floor made from
them. -/
structure TakenUp (e e' : Engine) (network : Root) (id id' : Int) : Prop where
  kept : e.Kept
  kept' : e'.Kept
  arranged : e.ledger.Arranged
  known : e.ledger.network = some network.bytes
  known' : e'.ledger.network = some network.bytes
  registered : e.ledger.isRegistered id = true
  registered' : e'.ledger.isRegistered id' = true
  history : e'.ledger.history id' = (e.ledger.history id).rebuilt

section TakenUp

variable {network : Root} {id id' : Int} {r : Record}

theorem TakenUp.answers_of_reopens (moved : e.TakenUp e' network id id')
    (reopens : (e.ledger.history id).Reopens r) :
    (e.call (.sign id network r)).1 = .ok (.verdict (.refused .tooOld)) ∧
      (e'.call (.sign id' network r)).1 = .ok (.verdict (.allowed .valid)) := by
  obtain ⟨refused, allowed⟩ :=
    reopens.judge (moved.kept.ledger.histories id) (moved.arranged.histories id)
  obtain ⟨-, -, fits, -⟩ := reopens
  rw [← moved.history] at allowed
  have decides := (decides_iff moved.known moved.registered).mpr fits
  have decides' := (decides_iff moved.known' moved.registered').mpr fits
  refine ⟨(moved.kept.answer_iff ?_).mpr ⟨decides, refused⟩,
    moved.kept'.approved_iff.mpr ⟨decides', allowed⟩⟩
  nofun

theorem TakenUp.keeps_refusal_iff (moved : e.TakenUp e' network id id') :
    (e.Refuses (.sign id network r) → e'.Refuses (.sign id' network r)) ↔
      ¬ (e.ledger.history id).Reopens r := by
  constructor
  · intro keeps reopens
    obtain ⟨refused, allowed⟩ := moved.answers_of_reopens reopens
    obtain ⟨why, refused'⟩ := keeps ⟨.tooOld, refused⟩
    rw [allowed] at refused'
    cases refused'
  · intro safe refuses
    by_cases range : r.Inverted
    · exact ⟨.invalidRange, by rw [call_sign_inverted range]⟩
    · obtain ⟨decides, why, refused⟩ := (moved.kept.refuses_iff range).mp refuses
      have fits := decides.fits
      refine (moved.kept'.refuses_iff range).mpr
        ⟨(decides_iff moved.known' moved.registered').mpr fits, ?_⟩
      have legible := (moved.kept'.ledger.histories id').legible
      rw [moved.history] at legible ⊢
      cases judged : (e.ledger.history id).rebuilt.judge r with
      | refused why' => exact ⟨why', rfl⟩
      | allowed answer =>
        exact False.elim (safe ((moved.kept.ledger.histories id).reopens
          (moved.arranged.histories id) legible fits refused judged))

end TakenUp

/-- An exported document moves a signer to a fresh store with all refusals but those of the
attestations that it reopens: these are too old for the signer, and the fresh store approves them. -/
theorem migration_keeps_refusal_iff (reached : e.Reached) (registered : e.ledger.accounts ≠ [])
    {network : Root} (known : e.ledger.network = some network.bytes) :
    ∃ e', e.Migrates e' ∧ ∀ key id, e.ledger.idOf key = some id →
      ∃ id', e'.ledger.idOf key = some id' ∧ ∀ r,
        ((e.Refuses (.sign id network r) → e'.Refuses (.sign id' network r)) ↔
          ¬ (e.ledger.history id).Reopens r) ∧
        ((e.ledger.history id).Reopens r →
          (e.call (.sign id network r)).1 = .ok (.verdict (.refused .tooOld)) ∧
            (e'.call (.sign id' network r)).1 = .ok (.verdict (.allowed .valid))) := by
  have kept := reached.kept
  have arranged := reached.arranged
  obtain ⟨hs, told⟩ := exists_forall₂ fun _ member => kept.ledger.exists_told member
  obtain ⟨none, -⟩ := kept.rebuilt (r := network) arranged told
  have tidy := arranged.tidy_of_told told
  refine ⟨fresh.imported (.current network hs), ⟨_, _,
    kept.call_exportText (kept.ledger.export_eq known told),
    kept.call_importText_told arranged registered told⟩, ?_⟩
  intro key id found
  -- The account of the key is told by one entry, and that entry alone fills the new account.
  obtain ⟨a, ha, rfl, same⟩ := Ledger.mem_of_idOf found
  obtain ⟨h, hh, own⟩ := exists_of_forall₂ told.flip a ha
  obtain rfl : h.key = key := Ledger.PublicKey.ext_bytes (own.key.trans same)
  have taken := (Ledger.isSome_idOf_absorbAll (fresh.ledger.adopt network) hs h.key).mpr
    (.inr ⟨h, hh, rfl⟩)
  obtain ⟨id', found'⟩ := Option.isSome_iff_exists.mp taken
  have history : (fresh.imported (.current network hs)).ledger.history id' =
      (e.ledger.history a.id).rebuilt := by
    have taken' := Ledger.historyOf_told (Ledger.Arranged.fresh.adopt network) rfl tidy hh
    rw [own.blocks, own.votes, ← Ledger.history_of_mem arranged.distinct ha] at taken'
    exact (Ledger.historyOf_eq found').symm.trans taken'
  have moved : e.TakenUp _ network a.id id' :=
    ⟨kept, Kept.fresh.imported none, arranged, known, Kept.fresh.network_imported none,
      Ledger.registered_of_idOf found, Ledger.registered_of_idOf found', history⟩
  exact ⟨id', found', fun r => ⟨moved.keeps_refusal_iff, moved.answers_of_reopens⟩⟩

def prunedVotes : Engine := fresh.run [.importText voteText, .prune 1 1]

/-- The attestation that is left begins below the source mark, at which the pruned one began. -/
theorem prunedVotes_eq : prunedVotes = ⟨⟨some 1, some (Root.filled 0).bytes, 1,
    [⟨1, [1], ⟨[], [⟨4, 11, (Root.filled 11).bytes⟩], some ⟨none, some 5, some 11⟩⟩⟩]⟩,
    ⟨some (.filled 0)⟩, .full⟩ := by
  rw [prunedVotes, run_cons, call_voteText]
  decide +kernel

theorem migration_keeps_refusal_iff_pruned :
    (∃ e', prunedVotes.Migrates e' ∧ ∀ key id, prunedVotes.ledger.idOf key = some id →
      ∃ id', e'.ledger.idOf key = some id' ∧ ∀ r,
        ((prunedVotes.Refuses (.sign id (.filled 0) r) → e'.Refuses (.sign id' (.filled 0) r)) ↔
          ¬ (prunedVotes.ledger.history id).Reopens r) ∧
        ((prunedVotes.ledger.history id).Reopens r →
          (prunedVotes.call (.sign id (.filled 0) r)).1 = .ok (.verdict (.refused .tooOld)) ∧
            (e'.call (.sign id' (.filled 0) r)).1 = .ok (.verdict (.allowed .valid)))) ∧
    prunedVotes.ledger.idOf (.single 1) = some 1 ∧
    (prunedVotes.ledger.history 1).Reopens (.attestation ⟨⟨4⟩, ⟨12⟩, .filled 12⟩) := by
  have reached : prunedVotes.Reached := reached_run .fresh _
  have registered : prunedVotes.ledger.accounts ≠ [] := by
    rw [prunedVotes_eq]
    decide
  have known : prunedVotes.ledger.network = some (Root.filled 0).bytes :=
    congrArg (fun e => e.ledger.network) prunedVotes_eq
  refine ⟨migration_keeps_refusal_iff reached registered known, ?_, ?_⟩
  · rw [prunedVotes_eq]
    decide
  · rw [prunedVotes_eq]
    exact ⟨_, rfl, ⟨by decide, by decide⟩, show ¬ (12 : UInt64) < 4 by decide, by decide, 5, rfl,
      by decide⟩

def survivor : Document := .current (.filled 0) [⟨.single 1, [], [⟨⟨4⟩, ⟨11⟩, .filled 11⟩]⟩]

/-- The floor at the source of the pruned attestation is lost, so one from below it is approved. -/
theorem migration_reopens_vote : ∃ e', prunedVotes.Migrates e' ∧
    prunedVotes.ledger.idOf (.single 1) = some 1 ∧ e'.ledger.idOf (.single 1) = some 1 ∧
    ¬ (prunedVotes.Refuses (.sign 1 (.filled 0) (.attestation ⟨⟨4⟩, ⟨12⟩, .filled 12⟩)) →
      e'.Refuses (.sign 1 (.filled 0) (.attestation ⟨⟨4⟩, ⟨12⟩, .filled 12⟩))) := by
  have kept : prunedVotes.Kept := Kept.fresh.run _
  have exported : Export.document prunedVotes.ledger = .ok survivor := by
    rw [prunedVotes_eq]
    decide +kernel
  have found : prunedVotes.ledger.idOf (.single 1) = some 1 := by
    rw [prunedVotes_eq]
    decide
  have none : survivor.faults fresh.ledger = [] := by decide +kernel
  have imported := Kept.fresh.importDocument_eq (show survivor.histories ≠ [] by decide)
  rw [none] at imported
  refine ⟨fresh.imported survivor, ⟨_, _, kept.call_exportText exported,
    call_importText_ok (Document.read_page rfl) imported⟩, found, by decide +kernel, ?_⟩
  intro keeps
  have tooOld : (prunedVotes.call
      (.sign 1 (.filled 0) (.attestation ⟨⟨4⟩, ⟨12⟩, .filled 12⟩))).1 =
      .ok (.verdict (.refused .tooOld)) := by
    rw [prunedVotes_eq]
    decide +kernel
  obtain ⟨why, refused⟩ := keeps ⟨.tooOld, tooOld⟩
  have approved : ((fresh.imported survivor).call
      (.sign 1 (.filled 0) (.attestation ⟨⟨4⟩, ⟨12⟩, .filled 12⟩))).1 =
      .ok (.verdict (.allowed .valid)) := by
    decide +kernel
  rw [approved] at refused
  cases refused

end Engine

end SlashGuard
