import SlashGuard.Proofs.Approvals
import SlashGuard.Proofs.Writes

/-! Requests that are made again. While nothing is imported, no record that conflicts with an
approved one comes to be stored, so the approved record is approved again as the same data until it
is pruned, and is too old from then on. -/
namespace SlashGuard.Engine

variable {e : Engine} {id : Int} {network : Root} {r : Record} {cs : List Call}

def Prunes (e : Engine) (cs : List Call) (id : Int) (r : Record) : Prop :=
  ∃ xs c ys, cs = xs ++ c :: ys ∧ c.Prunes ∧ ((e.run xs).ledger.history id).Stores r ∧
    ¬ (((e.run xs).call c).2.ledger.history id).Stores r

theorem prunes_of_gone (stored : (e.ledger.history id).Stores r)
    (gone : ¬ ((e.run cs).ledger.history id).Stores r) : e.Prunes cs id r := by
  obtain ⟨xs, c, ys, rfl, before, dropped⟩ :=
    run_begins (P := fun e => ¬ (e.ledger.history id).Stores r) (not_not.mpr stored) gone
  have stored := not_not.mp before
  -- A call that drops a row without pruning would have written without drops.
  have prunes : c.Prunes := by
    by_contra never
    exact dropped ((call_writes (e.run xs) c).stores never stored)
  exact ⟨xs, c, ys, rfl, prunes, stored, dropped⟩

/-- Without an import nothing that is covered and gone comes back. -/
theorem Kept.stays_gone (kept : e.Kept) (none : ∀ s, .importText s ∉ cs)
    (covered : (e.ledger.history id).Covers r) (gone : ¬ (e.ledger.history id).Stores r) :
    ¬ ((e.run cs).ledger.history id).Stores r := by
  intro back
  obtain ⟨xs, c, ys, rfl, absent, begins⟩ :=
    run_begins (P := fun e => (e.ledger.history id).Stores r) gone back
  have grows := (kept.run_moved xs).grows kept.ledger
  have stale : ((e.run xs).ledger.history id).judge r ≠ .allowed .valid :=
    History.not_valid_of_covers ((grows.advances id).covers covered)
  obtain ⟨s, rfl, -⟩ := (kept.run xs).import_of_begins stale absent begins
  exact none s (by simp)

theorem Kept.gone_iff (kept : e.Kept) (none : ∀ s, .importText s ∉ cs)
    (stored : (e.ledger.history id).Stores r) :
    ¬ ((e.run cs).ledger.history id).Stores r ↔ e.Prunes cs id r := by
  constructor
  · exact prunes_of_gone stored
  · rintro ⟨xs, c, ys, rfl, -, before, dropped⟩
    have kept' := kept.run xs
    have advances := ((kept'.call_moved c).moves.grows kept'.ledger).advances id
    have covered := advances.covers (History.covers_of_stores before)
    rw [run_append, run_cons]
    exact (kept'.call c).stays_gone (fun s member => none s (by simp [member])) covered dropped

theorem Kept.known_of_approved (kept : e.Kept)
    (approved : (e.call (.sign id network r)).1 = .ok (.verdict (.allowed .valid))) :
    (e.call (.sign id network r)).2.ledger.network = some network.bytes := by
  obtain ⟨decides, judged⟩ := kept.approved_iff.mp approved
  rw [kept.call_sign (History.not_inverted_of_judge judged) decides, if_pos judged]
  exact Ledger.network_adopt decides.takes

/-- After the first approval a record can be asked for again at any time. -/
theorem Kept.decides_again (kept : e.Kept)
    (approved : (e.call (.sign id network r)).1 = .ok (.verdict (.allowed .valid)))
    (cs : List Call) :
    ((e.call (.sign id network r)).2.run cs).Decides id network r ∧ ¬ r.Inverted := by
  have kept' := kept.call (.sign id network r)
  have known := kept.known_of_approved approved
  obtain ⟨decides, range⟩ := kept'.decides_of_stores (kept.stores_of_approved approved) known
  have grows := (kept'.run_moved cs).grows kept'.ledger
  have takes := (takes_iff (grows.network network.bytes known)).mpr rfl
  exact ⟨⟨takes, grows.registered id decides.registered, decides.fits⟩, range⟩

/-- A record that was approved as fresh is, while nothing is imported, approved as the same data
whenever it is asked for again, until it is pruned. From then on it is refused as too old. -/
theorem retries_answered (before between : List Call) (id : Int) (network : Root) (r : Record)
    (approved : ((fresh.run before).call (.sign id network r)).1 =
      .ok (.verdict (.allowed .valid)))
    (none : ∀ s, .importText s ∉ between) :
    (¬ (fresh.run (before ++ [.sign id network r])).Prunes between id r →
      ((fresh.run (before ++ .sign id network r :: between)).call (.sign id network r)).1 =
        .ok (.verdict (.allowed .sameData))) ∧
    ((fresh.run (before ++ [.sign id network r])).Prunes between id r →
      ((fresh.run (before ++ .sign id network r :: between)).call (.sign id network r)).1 =
        .ok (.verdict (.refused .tooOld))) := by
  have kept := Kept.fresh.run before
  have first : (fresh.run before).Approves (.sign id network r) id r :=
    ⟨network, .valid, rfl, approved⟩
  -- Only an import brings in what conflicts with an approved record.
  have apart : ((fresh.run (before ++ .sign id network r :: between)).ledger.history id).Apart r := by
    intro x stored clash
    obtain ⟨xs, s, ys, rfl, -⟩ := import_between first clash.symm stored
    exact none s (by simp)
  have covered : ((fresh.run (before ++ .sign id network r :: between)).ledger.history id).Covers r :=
    Kept.fresh.run_covers ⟨before, _, between, rfl, .signed approved⟩
  rw [run_append, run_cons] at apart covered ⊢
  rw [run_append, run_cons]
  have kept' := kept.call (.sign id network r)
  have legible := ((kept'.run between).ledger.histories id).legible
  obtain ⟨decides, range⟩ := kept.decides_again approved between
  have gone := kept'.gone_iff none (kept.stores_of_approved approved)
  constructor
  · intro remains
    have stored := not_not.mp (mt gone.mp remains)
    exact (kept'.run between).approved_iff.mpr
      ⟨decides, legible.judge_sameData.mpr ⟨range, stored, apart⟩⟩
  · intro pruned
    have dropped := gone.mpr pruned
    have closed := History.closed_of_covers covered dropped
    exact ((kept'.run between).answer_iff (v := .refused .tooOld) nofun).mpr
      ⟨decides, legible.judge_tooOld range apart dropped closed⟩

theorem retries_answered_pruned :
    ((fresh.run [.register [.single 1], .sign 1 (.filled 0) (.block ⟨⟨5⟩, .filled 1⟩),
        .maySignBlock 1 ⟨⟨6⟩, .filled 1⟩ (.filled 0)]).call
        (.sign 1 (.filled 0) (.block ⟨⟨5⟩, .filled 1⟩))).1 = .ok (.verdict (.allowed .sameData)) ∧
      ((fresh.run [.register [.single 1], .sign 1 (.filled 0) (.block ⟨⟨5⟩, .filled 1⟩),
        .maySignBlock 1 ⟨⟨6⟩, .filled 1⟩ (.filled 0), .prune 1 1]).call
        (.sign 1 (.filled 0) (.block ⟨⟨5⟩, .filled 1⟩))).1 = .ok (.verdict (.refused .tooOld)) := by
  have approved : ((fresh.run [.register [.single 1]]).call
      (.sign 1 (.filled 0) (.block ⟨⟨5⟩, .filled 1⟩))).1 = .ok (.verdict (.allowed .valid)) := by
    decide +kernel
  constructor
  · refine (retries_answered [.register [.single 1]] [.maySignBlock 1 ⟨⟨6⟩, .filled 1⟩ (.filled 0)]
      1 (.filled 0) _ approved (by simp)).1 ?_
    rintro ⟨xs, c, ys, split, prunes, -⟩
    cases prunes <;> simp [List.cons_eq_append_iff] at split
  · refine (retries_answered [.register [.single 1]]
      [.maySignBlock 1 ⟨⟨6⟩, .filled 1⟩ (.filled 0), .prune 1 1]
      1 (.filled 0) _ approved (by simp)).2 ?_
    refine ⟨[.maySignBlock 1 ⟨⟨6⟩, .filled 1⟩ (.filled 0)], .prune 1 1, [], rfl, .one 1 1, ?_, ?_⟩
    · unfold History.Stores
      decide +kernel
    · unfold History.Stores
      decide +kernel

end SlashGuard.Engine
