import SlashGuard.Proofs.PruningTwice
import SlashGuard.Proofs.PruningSafety

/-! Requests above the floor that a prune leaves. All that is stored of their slot is left, so
blocks are answered as before. What is gone of an attestation was evidence against requests that
begin early; those are too old now, and no request that was allowed begins under the floor. -/
namespace SlashGuard

namespace History

variable {h h' : History} {keep n : Nat} {floor : Int}

theorem BlocksTrimmed.above (kept : h.Kept) (kept' : h'.Kept) (trimmed : h.BlocksTrimmed keep h' n)
    (mark : h'.floorOrEmpty.slot = some floor) :
    (∀ x, x ∈ h'.blocks ↔ x ∈ h.blocks ∧ floor ≤ x.slot) ∧
      ∃ low, h.floorOrEmpty.slot = some low ∧ low ≤ floor := by
  by_cases none : h.blocks = []
  · obtain ⟨rows, -⟩ := trimmed.unchanged (.inr none)
    obtain ⟨b, hb, -⟩ := kept'.blocks.marked floor mark
    rw [rows, none] at hb
    cases hb
  · obtain ⟨low, marked⟩ := Option.ne_none_iff_exists'.mp (mt kept.blocks.unmarked none)
    obtain ⟨m, -, rows, cut, -⟩ := trimmed.cut low marked none
    rw [mark] at cut
    cases cut
    refine ⟨fun x => ?_, low, marked, Int.le_max_left _ _⟩
    rw [rows, List.mem_filter, decide_eq_true_eq]

theorem BlocksTrimmed.judge_above (kept : h.Kept) (kept' : h'.Kept)
    (trimmed : h.BlocksTrimmed keep h' n) (mark : h'.floorOrEmpty.slot = some floor) {r : BlockRow}
    (above : floor ≤ r.slot) : h'.judgeBlock r = h.judgeBlock r := by
  obtain ⟨left, low, marked, le⟩ := trimmed.above kept kept' mark
  obtain ⟨b, hb, standing⟩ := kept'.blocks.marked floor mark
  have clashes : (∃ x ∈ h'.blocks, x.Slashable r) ↔ ∃ x ∈ h.blocks, x.Slashable r := by
    constructor
    · rintro ⟨x, hx, clash⟩
      exact ⟨x, ((left x).mp hx).1, clash⟩
    · rintro ⟨x, hx, clash⟩
      exact ⟨x, (left x).mpr ⟨hx, clash.1 ▸ above⟩, clash⟩
  have stored : r ∈ h'.blocks ↔ r ∈ h.blocks := by
    rw [left r, and_iff_left above]
  by_cases clash : ∃ x ∈ h.blocks, x.Slashable r
  · rw [judgeBlock, judgeBlock, if_pos (otherBlock_isSome.mpr clash),
      if_pos (otherBlock_isSome.mpr (clashes.mpr clash))]
  · have apart : ∀ x ∈ h.blocks, ¬ x.Slashable r := fun x hx slashable => clash ⟨x, hx, slashable⟩
    have apart' : ∀ x ∈ h'.blocks, ¬ x.Slashable r := fun x hx => apart x ((left x).mp hx).1
    rw [judgeBlock_of_apart apart, judgeBlock_of_apart apart']
    by_cases same : r ∈ h.blocks
    · rw [if_pos same, if_pos (stored.mpr same)]
    · -- The slot of the floor holds a block, which is the requested one or conflicts with it.
      have higher : r.slot ≠ floor := by
        intro level
        have slot : b.slot = r.slot := standing.trans level.symm
        have here := ((left b).mp hb).1
        by_cases root : b.root = r.root
        · have one : b = r := by
            cases b
            cases r
            simp_all
          exact same (one ▸ here)
        · exact apart b here ⟨slot, root⟩
      have before : h.BlockOpen r := by
        intro v set
        cases marked.symm.trans set
        omega
      have after : h'.BlockOpen r := by
        intro v set
        cases mark.symm.trans set
        omega
      rw [if_neg same, if_neg (mt stored.mp same), if_neg (blockOpen_iff.mp before),
        if_neg (blockOpen_iff.mp after)]

theorem BlocksTrimmed.judge_below (kept : h.Kept) (kept' : h'.Kept)
    (trimmed : h.BlocksTrimmed keep h' n) (mark : h'.floorOrEmpty.slot = some floor) {r : BlockRow}
    (below : r.slot < floor) : h'.judgeBlock r = .refused .tooOld := by
  obtain ⟨left, -⟩ := trimmed.above kept kept' mark
  have gone : ∀ x ∈ h'.blocks, x.slot ≠ r.slot := by
    intro x hx same
    have := ((left x).mp hx).2
    omega
  have closed : ¬ h'.BlockOpen r := by
    intro above
    have := above floor mark
    omega
  have old := Decidable.of_not_not (mt blockOpen_iff.mpr closed)
  rw [judgeBlock_of_apart fun x hx clash => gone x hx clash.1,
    if_neg fun stored => gone r stored rfl, if_pos old]

theorem VotesTrimmed.above (kept : h.Kept) (kept' : h'.Kept) (trimmed : h.VotesTrimmed keep h' n)
    (mark : h'.floorOrEmpty.target = some floor) :
    (∀ x, x ∈ h'.attestations ↔ x ∈ h.attestations ∧ floor ≤ x.target) ∧
      ∃ s, h.floorOrEmpty.source = some s ∧ ∃ m ∈ h.attestations, m.target ≤ floor ∧
        h'.floorOrEmpty.source = some (max s m.source) := by
  rcases kept.votes.marks with ⟨-, -, none⟩ | ⟨s, t, source, target, held⟩
  · obtain ⟨rows, -, unset, -⟩ := trimmed.unchanged (.inr (.inr none))
    rcases kept'.votes.marks with ⟨-, unmarked, -⟩ | ⟨s, t, -, -, held⟩
    · rw [mark] at unmarked
      cases unmarked
    · obtain ⟨a, ha, -⟩ := held.reached
      rw [rows, none] at ha
      cases ha
  · obtain ⟨a, ha, -⟩ := held.reached
    obtain ⟨m, row, rows, raised, cut, -⟩ :=
      trimmed.cut s t source target (List.ne_nil_of_mem ha)
    rw [mark] at cut
    cases cut
    refine ⟨fun x => ?_, s, source, m, List.mem_of_getElem? row, Int.le_max_right _ _, raised⟩
    rw [rows, List.mem_filter, decide_eq_true_eq]

/-- What is open and conflicts with nothing stays so: it begins no earlier than what the source mark
was raised to, which it would surround. -/
theorem VotesTrimmed.valid_above (kept : h.Kept) (kept' : h'.Kept)
    (trimmed : h.VotesTrimmed keep h' n) (mark : h'.floorOrEmpty.target = some floor)
    {r : AttestationRow} (above : floor < r.target)
    (valid : h.judgeAttestation r = .allowed .valid) :
    h'.judgeAttestation r = .allowed .valid := by
  obtain ⟨left, s, source, m, hm, ends, raised⟩ := trimmed.above kept kept' mark
  obtain ⟨range, fresh, apart, begins, -⟩ := judgeAttestation_valid.mp valid
  have inner : ¬ r.Spans m := fun spans => apart m hm (.inr (.inr spans))
  have low := begins s source
  refine judgeAttestation_valid.mpr ⟨range, fun stored => fresh ((left r).mp stored).1,
    fun x hx => apart x ((left x).mp hx).1, ?_, ?_⟩
  · intro v set
    cases raised.symm.trans set
    simp only [AttestationRow.Spans] at inner
    omega
  · intro v set
    cases mark.symm.trans set
    exact above

def Unslashable (h : History) : Prop :=
  ∀ a b, h.Stores (.attestation a) → h.Stores (.attestation b) → ¬ a.Slashable b

theorem Unslashable.apart (sound : h.Unslashable) {a : Attestation}
    (stored : h.Stores (.attestation a)) : h.Apart (.attestation a) := by
  intro x hx clash
  cases x with
  | block b => exact clash
  | attestation b => exact sound b a hx stored clash

theorem VotesTrimmed.allowed_above (kept : h.Kept) (kept' : h'.Kept)
    (trimmed : h.VotesTrimmed keep h' n) (pruned : h.Pruned h') (sound : h.Unslashable)
    (mark : h'.floorOrEmpty.target = some floor) {a : Attestation} (above : floor < a.row.target)
    (safe : Safe) : h'.judge (.attestation a) = .allowed safe ↔
      h.judge (.attestation a) = .allowed safe := by
  obtain ⟨left, -⟩ := trimmed.above kept kept' mark
  cases safe with
  | valid => exact ⟨pruned.advances.valid kept.legible, trimmed.valid_above kept kept' mark above⟩
  | sameData =>
    rw [kept.legible.judge_sameData, kept'.legible.judge_sameData]
    constructor
    · rintro ⟨range, stored, -⟩
      have stored' := pruned.stores stored
      exact ⟨range, stored', sound.apart stored'⟩
    · rintro ⟨range, stored, apart⟩
      have stored' : h'.Stores (.attestation a) := (left a.row).mpr ⟨stored, Int.le_of_lt above⟩
      exact ⟨range, stored', fun x hx => apart x (pruned.stores hx)⟩

theorem marks_of_read {id : Int} {w : Watermark} (read : h.mark id = some w) :
    w.slot = (h.floorOrEmpty.slot.map wordOf).map .mk ∧
      w.target = (h.floorOrEmpty.target.map wordOf).map .mk := by
  obtain ⟨f, floor, rfl⟩ := Option.map_eq_some_iff.mp read
  simp [floorOrEmpty, floor]

end History

namespace Engine

variable {e : Engine} {id : Int} {network : Root} {r : Record}

theorem Kept.answer_known (kept : e.Kept) (known : e.ledger.network = some network.bytes) (id : Int)
    (r : Record) (range : ¬ r.Inverted) : (e.call (.sign id network r)).1 =
      barring (Signing.faults (e.ledger.isRegistered id) id r)
        (.verdict ((e.ledger.history id).judge r)) := by
  have none : e.ledger.networkFaults network = [] :=
    (networkFaults_of_stored known network).trans (if_pos rfl)
  rw [call_barring (kept.attempt_request range), none, List.nil_append]

/-- What a prune leaves of an engine for the requests of its validator. -/
structure PrunesTo (e e' : Engine) (keep : Nat) (id : Int) (o : PruneOutcome) : Prop where
  kept : e'.Kept
  network : e'.ledger.network = e.ledger.network
  registered : e'.ledger.isRegistered id = e.ledger.isRegistered id
  trimmed : (e.ledger.history id).Trimmed keep (e'.ledger.history id) o
  pruned : (e.ledger.history id).Pruned (e'.ledger.history id)

variable {e' : Engine} {keep : Nat} {o : PruneOutcome} {v : Int}

theorem Reached.prunesTo (reached : e.Reached) (countable : (e.ledger.history id).Countable)
    (positive : 1 ≤ keep) :
    ∃ o e', e.call (.prune keep id) = (.ok (.outcome o), e') ∧ e.PrunesTo e' keep id o := by
  have called := reached.call_prune countable positive
  have kept := reached.kept.call (.prune keep id)
  have self := history_put_pruned e.ledger keep id
  rw [called] at kept
  refine ⟨_, _, called, kept, rfl, Ledger.isRegistered_put _ _ _ _, ?_, ?_⟩
  · rw [self]
    exact (reached.arranged.histories id).trimmed countable positive id
  · rw [self]
    exact (reached.kept.ledger.histories id).pruned_prune _ _

theorem PrunesTo.answer_above (prunes : e.PrunesTo e' keep id o) (kept : e.Kept)
    (known : e.ledger.network = some network.bytes)
    (mark : (e'.ledger.history id).floorOrEmpty.slot = some v) {b : Block}
    (above : v ≤ b.row.slot) :
    (e'.call (.sign id network (.block b))).1 = (e.call (.sign id network (.block b))).1 := by
  have same : (e'.ledger.history id).judge (.block b) = (e.ledger.history id).judge (.block b) :=
    prunes.trimmed.blocks.judge_above (kept.ledger.histories id) (prunes.kept.ledger.histories id)
      mark above
  rw [prunes.kept.answer_known (prunes.network.trans known) id (.block b) fun inverted => inverted,
    kept.answer_known known id (.block b) fun inverted => inverted, prunes.registered, same]

theorem PrunesTo.answer_below (prunes : e.PrunesTo e' keep id o) (kept : e.Kept)
    (known : e.ledger.network = some network.bytes)
    (mark : (e'.ledger.history id).floorOrEmpty.slot = some v) {b : Block}
    (below : b.row.slot < v) :
    (e'.call (.sign id network (.block b))).1 = .ok (.verdict (.refused .tooOld)) := by
  have history := prunes.kept.ledger.histories id
  have fits : b.Fits := Int.ofNat_lt.mp (Int.lt_trans below (history.legible.slot v mark).2)
  have registered : e'.ledger.isRegistered id = true := by
    apply Ledger.registered_of_history
    intro empty
    rw [empty] at mark
    cases mark
  have takes := (takes_iff (prunes.network.trans known)).mpr rfl
  have other : Verdict.refused .tooOld ≠ .refused .invalidRange := by decide
  apply (prunes.kept.answer_iff other).mpr
  exact ⟨⟨takes, registered, fits⟩,
    prunes.trimmed.blocks.judge_below (kept.ledger.histories id) history mark below⟩

theorem PrunesTo.allowed_above (prunes : e.PrunesTo e' keep id o) (kept : e.Kept)
    (sound : (e.ledger.history id).Unslashable)
    (mark : (e'.ledger.history id).floorOrEmpty.target = some v) {a : Attestation}
    (above : v < a.row.target) (safe : Safe) :
    (e'.call (.sign id network (.attestation a))).1 = .ok (.verdict (.allowed safe)) ↔
      (e.call (.sign id network (.attestation a))).1 = .ok (.verdict (.allowed safe)) := by
  have same := prunes.trimmed.votes.allowed_above (kept.ledger.histories id)
    (prunes.kept.ledger.histories id) prunes.pruned sound mark above safe
  rw [prunes.kept.approved_iff, kept.approved_iff, same]
  apply and_congr_left'
  constructor
  · rintro ⟨takes, registered, fits⟩
    exact ⟨fun bytes known => takes bytes (prunes.network.trans known),
      prunes.registered ▸ registered, fits⟩
  · rintro ⟨takes, registered, fits⟩
    exact ⟨fun bytes known => takes bytes (prunes.network ▸ known),
      prunes.registered.trans registered, fits⟩

/-- On the network of the store, a prune leaves the answers to requests for blocks from its floor on
as they are, and of those below every one is too old. Where no two stored attestations are slashable
it leaves alike whether an attestation above the floor is allowed. -/
theorem Reached.signing_above_floor (reached : e.Reached) (id : Int) (network : Root) (keep : Nat)
    (known : e.ledger.network = some network.bytes)
    (countable : (e.ledger.history id).Countable) (positive : 1 ≤ keep) :
    ∃ o e', e.call (.prune keep id) = (.ok (.outcome o), e') ∧
      ∀ w, (e'.call (.watermark id)).1 = .ok (.watermark (some w)) →
        (∀ slot, w.slot = some slot → ∀ b : Block,
          (slot.number ≤ b.slot.number → (e'.call (.maySignBlock id b network)).1 =
            (e.call (.maySignBlock id b network)).1) ∧
          (b.slot.number < slot.number → (e'.call (.maySignBlock id b network)).1 =
            .ok (.verdict (.refused .tooOld)))) ∧
        ((e.ledger.history id).Unslashable → ∀ target, w.target = some target →
          ∀ a : Attestation, target.number < a.target.number → ∀ safe,
            (e'.call (.maySignAttestation id a network)).1 = .ok (.verdict (.allowed safe)) ↔
              (e.call (.maySignAttestation id a network)).1 = .ok (.verdict (.allowed safe))) := by
  obtain ⟨o, e', called, prunes⟩ := reached.prunesTo countable positive
  have kept := reached.kept
  refine ⟨o, e', called, fun w read => ?_⟩
  rw [prunes.kept.call_watermark] at read
  obtain ⟨slots, targets⟩ := History.marks_of_read (Answer.watermark.inj (Except.ok.inj read))
  have legible := (prunes.kept.ledger.histories id).legible
  constructor
  · intro slot set b
    rw [set] at slots
    obtain ⟨n, hn, rfl⟩ := Option.map_eq_some_iff.mp slots.symm
    obtain ⟨v, mark, rfl⟩ := Option.map_eq_some_iff.mp hn
    -- The floor is read as a word, and compared as the number that is stored.
    have order := lt_wordOf (legible.slot v mark) b.slot.number
    constructor
    · intro above
      have higher : v ≤ b.row.slot := Int.not_lt.mp (mt order.mpr (UInt64.not_lt.mpr above))
      exact prunes.answer_above kept known mark higher
    · intro below
      exact prunes.answer_below kept known mark (order.mp below)
  · intro sound target set a above safe
    rw [set] at targets
    obtain ⟨n, hn, rfl⟩ := Option.map_eq_some_iff.mp targets.symm
    obtain ⟨v, mark, rfl⟩ := Option.map_eq_some_iff.mp hn
    have order := le_wordOf (legible.target v mark) a.target.number
    have higher : v < a.row.target := Int.not_le.mp (mt order.mpr (UInt64.not_le.mpr above))
    exact prunes.allowed_above kept sound mark higher safe

theorem signing_above_floor_pruned :
    ((fresh.run prunedRun).call (.maySignBlock 1 ⟨⟨5⟩, .filled 1⟩ (.filled 0))).1 =
        .ok (.verdict (.refused .tooOld)) ∧
      ((fresh.run prunedRun).call (.maySignBlock 1 ⟨⟨6⟩, .filled 1⟩ (.filled 0))).1 =
        ((fresh.run (prunedRun.take 5)).call (.maySignBlock 1 ⟨⟨6⟩, .filled 1⟩ (.filled 0))).1 ∧
      (((fresh.run prunedRun).call (.maySignAttestation 1 ⟨⟨1⟩, ⟨7⟩, .filled 1⟩ (.filled 0))).1 =
          .ok (.verdict (.allowed .valid)) ↔
        ((fresh.run (prunedRun.take 5)).call
            (.maySignAttestation 1 ⟨⟨1⟩, ⟨7⟩, .filled 1⟩ (.filled 0))).1 =
          .ok (.verdict (.allowed .valid))) := by
  have votes : ((fresh.run (prunedRun.take 5)).ledger.history 1).attestations =
      [⟨1, 5, (Root.filled 1).bytes⟩, ⟨2, 6, (Root.filled 1).bytes⟩] := by
    decide +kernel
  have sound : ((fresh.run (prunedRun.take 5)).ledger.history 1).Unslashable := by
    intro a b ha hb clash
    have rows := Attestation.slashable_row.mpr clash
    simp only [History.Stores, votes, List.mem_cons, List.not_mem_nil, or_false] at ha hb
    rcases ha with ha | ha <;> rcases hb with hb | hb <;>
      simp [ha, hb, AttestationRow.Slashable, AttestationRow.Spans] at rows
  obtain ⟨o, e', called, answers⟩ := (reached_run .fresh (prunedRun.take 5)).signing_above_floor 1
    (.filled 0) 1 (by decide +kernel) (by decide +kernel) (by decide)
  have after : fresh.run prunedRun = e' := congrArg Prod.snd called
  obtain ⟨blocks, allowed⟩ := answers ⟨1, some ⟨6⟩, some ⟨2⟩, some ⟨6⟩⟩ (by
    rw [← after]
    decide +kernel)
  rw [after]
  exact ⟨(blocks ⟨6⟩ rfl ⟨⟨5⟩, .filled 1⟩).2 (by decide),
    (blocks ⟨6⟩ rfl ⟨⟨6⟩, .filled 1⟩).1 (by decide),
    allowed sound ⟨6⟩ rfl ⟨⟨1⟩, ⟨7⟩, .filled 1⟩ (by decide) .valid⟩

end Engine

end SlashGuard
