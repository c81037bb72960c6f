import SlashGuard.Proofs.Runs

/-! What approvals of a run promise. A fresh approval conflicts with nothing that the run has
recorded of the validator, be it pruned since. An approval as the same data asks no floor: it can
conflict with an approval whose record is pruned, if an import has brought the record back or in. -/
namespace SlashGuard.Engine

/-- A record that is approved as fresh is judged by a history that still covers whatever the run
has recorded. -/
theorem covers_of_approved (cs : List Call) {id : Int} {network : Root} {r x : Record}
    (valid : ((fresh.run cs).call (.sign id network r)).1 = .ok (.verdict (.allowed .valid)))
    (recorded : fresh.Records cs id x) :
    ((fresh.run cs).ledger.history id).judge r = .allowed .valid ∧
      ((fresh.run cs).ledger.history id).Covers x := by
  have kept := Kept.fresh.run cs
  have judged := (kept.approved_iff.mp valid).2
  exact ⟨judged, Kept.fresh.run_covers recorded⟩

/-- A fresh block has a slot that the run has recorded no block for, and a fresh attestation makes
no slashable pair with an attestation that the run has recorded. -/
theorem fresh_approvals_apart (cs : List Call) (id : Int) (network : Root) :
    (∀ b, ((fresh.run cs).call (.maySignBlock id b network)).1 =
        .ok (.verdict (.allowed .valid)) →
      ∀ c, fresh.Records cs id (.block c) → c.slot ≠ b.slot) ∧
    ∀ a, ((fresh.run cs).call (.maySignAttestation id a network)).1 =
        .ok (.verdict (.allowed .valid)) →
      ∀ c, fresh.Records cs id (.attestation c) → ¬ c.Slashable a := by
  constructor
  · intro b valid c recorded
    obtain ⟨judged, covered⟩ := covers_of_approved cs (r := .block b) valid recorded
    exact History.slot_ne_of_valid judged covered
  · intro a valid c recorded
    obtain ⟨judged, covered⟩ := covers_of_approved cs (r := .attestation a) valid recorded
    exact History.not_slashable_of_valid judged covered

def prunedRun : List Call :=
  [.register [.single 1],
    .maySignBlock 1 ⟨⟨5⟩, .filled 1⟩ (.filled 0), .maySignBlock 1 ⟨⟨6⟩, .filled 1⟩ (.filled 0),
    .maySignAttestation 1 ⟨⟨1⟩, ⟨5⟩, .filled 1⟩ (.filled 0),
    .maySignAttestation 1 ⟨⟨2⟩, ⟨6⟩, .filled 1⟩ (.filled 0),
    .prune 1 1]

theorem fresh_approvals_apart_pruned :
    (fresh.Records prunedRun 1 (.block ⟨⟨5⟩, .filled 1⟩) ∧ (⟨5⟩ : Slot) ≠ ⟨7⟩) ∧
      fresh.Records prunedRun 1 (.attestation ⟨⟨1⟩, ⟨5⟩, .filled 1⟩) ∧
      ¬ (⟨⟨1⟩, ⟨5⟩, .filled 1⟩ : Attestation).Slashable ⟨⟨2⟩, ⟨7⟩, .filled 2⟩ := by
  have block : fresh.Records prunedRun 1 (.block ⟨⟨5⟩, .filled 1⟩) :=
    ⟨prunedRun.take 1, .sign 1 (.filled 0) (.block ⟨⟨5⟩, .filled 1⟩), prunedRun.drop 2, rfl,
      @Recorded.signed _ 1 _ _ .valid (by decide +kernel)⟩
  have vote : fresh.Records prunedRun 1 (.attestation ⟨⟨1⟩, ⟨5⟩, .filled 1⟩) :=
    ⟨prunedRun.take 3, .sign 1 (.filled 0) (.attestation ⟨⟨1⟩, ⟨5⟩, .filled 1⟩),
      prunedRun.drop 4, rfl, @Recorded.signed _ 1 _ _ .valid (by decide +kernel)⟩
  have apart := fresh_approvals_apart prunedRun 1 (.filled 0)
  exact ⟨⟨block, apart.1 ⟨⟨7⟩, .filled 1⟩ (by decide +kernel) _ block⟩, vote,
    apart.2 ⟨⟨2⟩, ⟨7⟩, .filled 2⟩ (by decide +kernel) _ vote⟩

def Approves (e : Engine) (c : Call) (id : Int) (r : Record) : Prop :=
  ∃ network safe, c = .sign id network r ∧ (e.call c).1 = .ok (.verdict (.allowed safe))

def ApprovalsApart (cs : List Call) (id : Int) : Prop :=
  ∀ before p between q after r x, cs = before ++ p :: (between ++ q :: after) →
    (fresh.run before).Approves p id r → (fresh.run (before ++ p :: between)).Approves q id x →
    ¬ r.Slashable x

/-- After a record was approved, an import has stored one that conflicts with it. The approved
record is pruned, the imported one is still stored and conflicts with no other, and it is asked
for. -/
structure Revives (before : List Call) (p : Call) (between : List Call) (q : Call) (id : Int)
    (r x : Record) : Prop where
  approved : (fresh.run before).Approves p id r
  clash : r.Slashable x
  imported : ∃ xs s ys, between = xs ++ .importText s :: ys ∧
    (fresh.run (before ++ p :: xs)).Recorded (.importText s) id x
  pruned : ¬ ((fresh.run (before ++ p :: between)).ledger.history id).Stores r
  stored : ((fresh.run (before ++ p :: between)).ledger.history id).Stores x
  apart : ((fresh.run (before ++ p :: between)).ledger.history id).Apart x
  asked : ∃ network, q = .sign id network x ∧
    (fresh.run (before ++ p :: between)).ledger.network = some network.bytes

variable {e : Engine} {id : Int} {r x : Record}

theorem Kept.apart_of_approves (kept : e.Kept) {c : Call} (approved : e.Approves c id r) :
    (e.ledger.history id).Apart r := by
  obtain ⟨network, safe, rfl, answered⟩ := approved
  have judged := (kept.approved_iff.mp answered).2
  exact (kept.ledger.histories id).legible.apart_of_judge judged

theorem recorded_of_approves {c : Call} (approved : e.Approves c id r) : e.Recorded c id r := by
  obtain ⟨network, safe, rfl, answered⟩ := approved
  exact .signed answered

theorem Kept.not_stores_of_approves (kept : e.Kept) {c : Call} (approved : e.Approves c id r)
    (clash : r.Slashable x) : ¬ ((e.call c).2.ledger.history id).Stores x := by
  intro stored
  obtain ⟨network, safe, rfl, answered⟩ := approved
  have grows := (kept.call_moved (.sign id network r)).moves.grows kept.ledger
  rcases grows.told id x stored with stored | recorded
  · exact kept.apart_of_approves ⟨network, safe, rfl, answered⟩ x stored clash.symm
  · rw [eq_of_recorded recorded rfl] at clash
    exact r.not_slashable_self clash

theorem Kept.import_of_begins (kept : e.Kept) {c : Call}
    (stale : (e.ledger.history id).judge x ≠ .allowed .valid)
    (before : ¬ (e.ledger.history id).Stores x)
    (after : ((e.call c).2.ledger.history id).Stores x) :
    ∃ s, c = .importText s ∧ e.Recorded c id x := by
  have grows := (kept.call_moved c).moves.grows kept.ledger
  rcases grows.told id x after with stored | recorded
  · exact False.elim (before stored)
  · cases recorded with
    | imported read accepted listed => exact ⟨_, rfl, .imported read accepted listed⟩
    | @signed _ network _ safe approved =>
      have judged := (kept.approved_iff.mp approved).2
      cases safe with
      | valid => exact False.elim (stale judged)
      | sameData =>
        have legible := (kept.ledger.histories id).legible
        exact False.elim (before (legible.judge_sameData.mp judged).2.1)

variable {before between : List Call} {p q : Call}

theorem import_between (approved : (fresh.run before).Approves p id r) (clash : r.Slashable x)
    (stored : ((fresh.run (before ++ p :: between)).ledger.history id).Stores x) :
    ∃ xs s ys, between = xs ++ .importText s :: ys ∧
      (fresh.run (before ++ p :: xs)).Recorded (.importText s) id x := by
  -- The approval left it absent, so it begins to be stored at some call in between.
  have absent := (Kept.fresh.run before).not_stores_of_approves approved clash
  rw [run_append, run_cons] at stored
  obtain ⟨xs, c, ys, rfl, pending, begins⟩ :=
    run_begins (P := fun e => (e.ledger.history id).Stores x) absent stored
  rw [← run_cons, ← run_append] at pending begins
  have covered : ((fresh.run (before ++ p :: xs)).ledger.history id).Covers r :=
    Kept.fresh.run_covers ⟨before, p, xs, rfl, recorded_of_approves approved⟩
  have kept := Kept.fresh.run (before ++ p :: xs)
  have stale : ((fresh.run (before ++ p :: xs)).ledger.history id).judge x ≠ .allowed .valid :=
    fun valid => History.clear_of_valid valid covered clash
  obtain ⟨s, rfl, imported⟩ := kept.import_of_begins stale pending begins
  exact ⟨xs, s, ys, rfl, imported⟩

theorem revives_of_approves (first : (fresh.run before).Approves p id r)
    (second : (fresh.run (before ++ p :: between)).Approves q id x) (clash : r.Slashable x) :
    Revives before p between q id r x := by
  have kept := Kept.fresh.run (before ++ p :: between)
  have apart := kept.apart_of_approves second
  obtain ⟨network, safe, rfl, answered⟩ := second
  obtain ⟨decides, judged⟩ := kept.approved_iff.mp answered
  have recorded : fresh.Records (before ++ p :: between) id r :=
    ⟨before, p, between, rfl, recorded_of_approves first⟩
  cases safe with
  | valid =>
    exact False.elim (History.clear_of_valid judged (Kept.fresh.run_covers recorded) clash)
  | sameData =>
    have stored := ((kept.ledger.histories id).legible.judge_sameData.mp judged).2.1
    have known := kept.ledger.known_of_stores stored
    exact {
      approved := first
      clash := clash
      imported := import_between first clash stored
      pruned := fun remains => apart r remains clash
      stored := stored
      apart := apart
      asked := ⟨network, rfl, Ledger.network_of_takes decides.takes known⟩ }

/-- Approvals of a run make no slashable pair exactly if no approved record that was pruned is
revived: an import stores one that conflicts with it, and that one is asked for. -/
theorem approvals_apart_iff (cs : List Call) (id : Int) : ApprovalsApart cs id ↔
    ¬ ∃ before p between q after r x, cs = before ++ p :: (between ++ q :: after) ∧
      Revives before p between q id r x := by
  constructor
  · rintro apart ⟨before, p, between, q, after, r, x, split, revives⟩
    have kept := Kept.fresh.run (before ++ p :: between)
    obtain ⟨network, rfl, known⟩ := revives.asked
    obtain ⟨decides, range⟩ := kept.decides_of_stores revives.stored known
    have legible := (kept.ledger.histories id).legible
    -- It is stored, and what it conflicts with is no longer there.
    have judged := legible.judge_sameData.mpr ⟨range, revives.stored, revives.apart⟩
    have answered := kept.approved_iff.mpr ⟨decides, judged⟩
    exact apart before p between _ after r x split revives.approved
      ⟨network, .sameData, rfl, answered⟩ revives.clash
  · intro none before p between q after r x split first second clash
    exact none ⟨before, p, between, q, after, r, x, split, revives_of_approves first second clash⟩

def blockText : Text.Utf8.Source :=
  ("[[5,\"".toList ++ Text.Hex.write (Root.filled 0).bytes ++ "\"],[[\"01\",[[5,\"".toList ++
    Text.Hex.write (Root.filled 11).bytes ++ "\"]],[]]]]".toList).map some

/-- A block is signed and pruned, and a document brings another one for its slot. -/
def revivingRun : List Call :=
  [.register [.single 1],
    .maySignBlock 1 ⟨⟨5⟩, .filled 10⟩ (.filled 0), .maySignBlock 1 ⟨⟨6⟩, .filled 12⟩ (.filled 0),
    .prune 1 1, .importText blockText, .maySignBlock 1 ⟨⟨5⟩, .filled 11⟩ (.filled 0)]

theorem approvals_slashable_after_import : ¬ ApprovalsApart revivingRun 1 := by
  intro apart
  refine apart (revivingRun.take 1) (.sign 1 (.filled 0) (.block ⟨⟨5⟩, .filled 10⟩))
    ((revivingRun.take 5).drop 2) (.sign 1 (.filled 0) (.block ⟨⟨5⟩, .filled 11⟩)) []
    (.block ⟨⟨5⟩, .filled 10⟩) (.block ⟨⟨5⟩, .filled 11⟩) rfl ?_ ?_ (by decide)
  · exact ⟨.filled 0, .valid, rfl, by decide +kernel⟩
  · exact ⟨.filled 0, .sameData, rfl, by decide +kernel⟩

end SlashGuard.Engine
