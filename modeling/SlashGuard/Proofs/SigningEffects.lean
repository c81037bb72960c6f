import SlashGuard.Proofs.Reached

/-! What a request to sign writes. A record that is approved as fresh comes to its history as one
row, with the marks of its kind where none are set, and brings the network of a store without one.
Where nothing is stored no request is refused, so every other answer finds the network stored and
leaves the ledger as it was. -/
namespace SlashGuard

namespace History

def Gains (h h' : History) : Record → Prop
  | .block b => b.row ∉ h.blocks ∧ h'.blocks.Perm (b.row :: h.blocks) ∧
      h'.attestations = h.attestations ∧
      ((h.floorOrEmpty.slot ≠ none ∧ h'.floor = h.floor) ∨
        (h.floorOrEmpty.slot = none ∧
          h'.floor = some { h.floorOrEmpty with slot := some b.row.slot }))
  | .attestation a => a.row ∉ h.attestations ∧ h'.attestations.Perm (a.row :: h.attestations) ∧
      h'.blocks = h.blocks ∧
      ((h.floorOrEmpty.source ≠ none ∧ h.floorOrEmpty.target ≠ none ∧ h'.floor = h.floor) ∨
        (h.floorOrEmpty.source = none ∧ h.floorOrEmpty.target = none ∧
          h'.floor = some { h.floorOrEmpty with
            source := some a.row.source, target := some a.row.target }))

variable {h : History}

theorem gains_signBlock {b : Block} (fresh : b.row ∉ h.blocks) :
    h.Gains (h.signBlock b.row) (.block b) := by
  obtain ⟨blocks, votes, -⟩ := signBlock_parts b.row h
  have floor : (h.signBlock b.row).floor = some { h.floorOrEmpty with
      slot := some (h.floorOrEmpty.slot.getD b.row.slot) } := by
    rw [signBlock, addBlock_eq]
    rfl
  refine ⟨fresh, ?_, votes, ?_⟩
  · rw [blocks, insertNew, if_neg fresh]
    exact insertAt_perm _ _ _
  · cases mark : h.floorOrEmpty.slot with
    | none =>
      rw [mark] at floor
      exact .inr ⟨rfl, floor⟩
    | some low =>
      rw [mark, Option.getD_some, ← mark] at floor
      exact .inl ⟨Option.some_ne_none low, floor.trans (floor_of_marked rfl mark).symm⟩

theorem Kept.gains_signAttestation (kept : h.Kept) {a : Attestation}
    (fresh : a.row ∉ h.attestations) : h.Gains (h.signAttestation a.row) (.attestation a) := by
  obtain ⟨blocks, votes, -⟩ := signAttestation_parts a.row h
  have floor : (h.signAttestation a.row).floor = some { h.floorOrEmpty with
      source := some (h.floorOrEmpty.source.getD a.row.source)
      target := some (h.floorOrEmpty.target.getD a.row.target) } := by
    rw [History.signAttestation, addAttestation_eq]
    rfl
  refine ⟨fresh, ?_, blocks, ?_⟩
  · rw [votes, insertNew, if_neg fresh]
    exact insertAt_perm _ _ _
  · -- The epochs of a floor are set together.
    rcases kept.votes.marks with ⟨source, target, -⟩ | ⟨s, t, source, target, -⟩
    · rw [source, target] at floor
      exact .inr ⟨source, target, floor⟩
    · rw [source, target, Option.getD_some, Option.getD_some, ← source, ← target] at floor
      exact .inl ⟨by simp [source], by simp [target],
        floor.trans (floor_of_marked rfl source).symm⟩

theorem Kept.gains_sign (kept : h.Kept) {r : Record} (fresh : ¬ h.Stores r) :
    h.Gains (h.sign r) r := by
  cases r with
  | block b => exact gains_signBlock fresh
  | attestation a => exact kept.gains_signAttestation fresh

end History

/-- A ledger gains the row of a record for a validator, and the network if it has none. -/
structure Ledger.Gains (l l' : Ledger) (id : Int) (network : Root) (r : Record) : Prop where
  version : l'.version = l.version
  issued : l'.issued = l.issued
  roster : l'.roster = l.roster
  network : (l.network = none ∨ l.network = some network.bytes) ∧ l'.network = some network.bytes
  history : (l.history id).Gains (l'.history id) r
  others : ∀ id', id' ≠ id → l'.history id' = l.history id'

namespace Engine

variable {e : Engine} {id : Int} {network : Root} {r : Record}

/-- A request that is not approved as fresh finds something stored, and so the network. -/
theorem Kept.known_of_judge (kept : e.Kept) (range : ¬ r.Inverted)
    (stale : (e.ledger.history id).judge r ≠ .allowed .valid) : e.ledger.network ≠ none := by
  apply kept.ledger.known id
  intro empty
  rw [empty] at stale
  exact stale (History.judge_empty range)

theorem Kept.ledger_of_not_fresh (kept : e.Kept)
    (other : (e.call (.sign id network r)).1 ≠ .ok (.verdict (.allowed .valid))) :
    (e.call (.sign id network r)).2.ledger = e.ledger := by
  by_cases inverted : r.Inverted
  · rw [call_sign_inverted inverted]
  · by_cases decides : e.Decides id network r
    · have called := kept.call_sign inverted decides
      have stale : (e.ledger.history id).judge r ≠ .allowed .valid := by
        intro valid
        exact other (kept.approved_iff.mpr ⟨decides, valid⟩)
      rw [if_neg stale] at called
      rw [called]
      exact Ledger.adopt_eq_self (kept.known_of_judge inverted stale) network
    · obtain ⟨f, fails⟩ := kept.call_sign_fails inverted decides
      rw [fails]

theorem Kept.gains_of_fresh (kept : e.Kept)
    (approved : (e.call (.sign id network r)).1 = .ok (.verdict (.allowed .valid))) :
    e.ledger.Gains (e.call (.sign id network r)).2.ledger id network r := by
  obtain ⟨decides, valid⟩ := kept.approved_iff.mp approved
  have called := kept.call_sign (History.not_inverted_of_judge valid) decides
  rw [if_pos valid] at called
  rw [called]
  have history := kept.ledger.histories id
  -- What is stored already is approved as repeated.
  have fresh : ¬ (e.ledger.history id).Stores r := fun stored =>
    History.not_valid_of_covers (History.covers_of_stores stored) valid
  constructor
  case version => simp
  case issued => simp
  case roster => rw [Ledger.roster_put, Ledger.roster_adopt]
  case network =>
    exact ⟨Ledger.takes_iff_network.mp decides.takes, Ledger.network_adopt decides.takes⟩
  case history =>
    rw [Ledger.history_put_self decides.registered_adopt]
    exact history.gains_sign fresh
  case others =>
    intro id' apart
    rw [Ledger.history_put_ne apart, Ledger.history_adopt]

/-- Only the approval of a fresh record writes. Any other answer to a request leaves the ledger as
it was, such an approval adds the one row with what comes with it, and a call that fails leaves the
engine as it was, so that whatever follows goes on as if it had not been made. -/
theorem Reached.only_fresh_writes (reached : e.Reached) :
    (∀ id network r, (e.call (.sign id network r)).1 ≠ .ok (.verdict (.allowed .valid)) →
      (e.call (.sign id network r)).2.ledger = e.ledger) ∧
    (∀ id network r, (e.call (.sign id network r)).1 = .ok (.verdict (.allowed .valid)) →
      e.ledger.Gains (e.call (.sign id network r)).2.ledger id network r) ∧
    ∀ c f, (e.call c).1 = .error f → (e.call c).2 = e ∧
      ∀ cs, e.run (c :: cs) = e.run cs ∧ e.transcript (c :: cs) = (c, .error f) :: e.transcript cs := by
  refine ⟨fun id network r => reached.kept.ledger_of_not_fresh,
    fun id network r => reached.kept.gains_of_fresh, fun c f fails => ?_⟩
  have unchanged := call_error_unchanged fails
  refine ⟨unchanged, fun cs => ?_⟩
  rw [run_cons, transcript, fails, unchanged]
  exact ⟨rfl, rfl⟩

theorem only_fresh_writes_second :
    ((fresh.run [.register [.single 1], .sign 1 (.filled 0) (.block ⟨⟨5⟩, .filled 1⟩)]).call
        (.sign 1 (.filled 0) (.block ⟨⟨5⟩, .filled 2⟩))).1 =
        .ok (.verdict (.refused .doubleProposal)) ∧
      ((fresh.run [.register [.single 1], .sign 1 (.filled 0) (.block ⟨⟨5⟩, .filled 1⟩)]).call
        (.sign 1 (.filled 0) (.block ⟨⟨5⟩, .filled 2⟩))).2.ledger =
      (fresh.run [.register [.single 1], .sign 1 (.filled 0) (.block ⟨⟨5⟩, .filled 1⟩)]).ledger :=
  ⟨by decide, (reached_run .fresh _).only_fresh_writes.1 1 (.filled 0) (.block ⟨⟨5⟩, .filled 2⟩)
    (by decide)⟩

end Engine

end SlashGuard
