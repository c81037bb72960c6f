import SlashGuard.Proofs.Approvals
import SlashGuard.Proofs.ImportOutcome

/-! Progress is never refused. Whatever a run does, each mark of a floor stands at a record of the
run: the marks of slot and target at one that is still stored, the mark of the source at one that
may be pruned. So a record that lies above all records of the run lies above the floor. -/
namespace SlashGuard

namespace History

variable {told : Record → Prop} {h h' : History}

/-- What is stored was told, and so was an attestation that begins where the source mark stands. -/
structure Founded (told : Record → Prop) (h : History) : Prop where
  stored : ∀ r, h.Stores r → told r
  source : ∀ s, h.floorOrEmpty.source = some s →
    ∃ a : Attestation, told (.attestation a) ∧ a.row.source = s

theorem Founded.empty : History.empty.Founded told where
  stored := fun _ stored => False.elim (ne_empty_of_stores stored rfl)
  source := nofun

theorem Founded.block (founded : h.Founded told) (legible : h.Legible) {x : BlockRow}
    (hx : x ∈ h.blocks) : ∃ b : Block, told (.block b) ∧ b.row = x := by
  obtain ⟨b, -, rfl⟩ := BlockRow.read_eq (legible.blocks x hx)
  exact ⟨b, founded.stored (.block b) hx, rfl⟩

theorem Founded.vote (founded : h.Founded told) (legible : h.Legible) {x : AttestationRow}
    (hx : x ∈ h.attestations) : ∃ a : Attestation, told (.attestation a) ∧ a.row = x := by
  obtain ⟨a, -, rfl⟩ := AttestationRow.read_eq (legible.attestations x hx)
  exact ⟨a, founded.stored (.attestation a) hx, rfl⟩

theorem Founded.source_eq (founded : h.Founded told) (stored : ∀ r, h'.Stores r → told r)
    (same : h'.floorOrEmpty.source = h.floorOrEmpty.source) : h'.Founded told :=
  ⟨stored, fun s hs => founded.source s (same ▸ hs)⟩

/-- The source mark comes to stand at its old place or where a told attestation begins. -/
theorem Founded.source_max (founded : h.Founded told) (stored : ∀ r, h'.Stores r → told r)
    {a : Attestation} (known : told (.attestation a)) {m : Option Int}
    (old : ∀ s, m = some s → h.floorOrEmpty.source = some s)
    (raised : h'.floorOrEmpty.source = some (max (m.getD a.row.source) a.row.source)) :
    h'.Founded told := by
  refine ⟨stored, fun s hs => ?_⟩
  rw [raised] at hs
  cases hs
  by_cases higher : m.getD a.row.source ≤ a.row.source
  · exact ⟨a, known, by omega⟩
  · cases hm : m with
    | none => simp [hm] at higher
    | some low =>
      rw [hm] at higher
      obtain ⟨b, known', begins⟩ := founded.source low (old low hm)
      refine ⟨b, known', ?_⟩
      simp only [Option.getD_some] at higher ⊢
      omega

theorem Founded.pruneBlocks (founded : h.Founded told) (place : Nat) :
    (h.pruneBlocks place).Founded told := by
  apply founded.source_eq _ (epochs_pruneBlocks place h).1
  exact fun r stored => founded.stored r (stores_of_pruneBlocks stored)

theorem Founded.pruneAttestations (founded : h.Founded told) (legible : h.Legible)
    (place : Nat) : (h.pruneAttestations place).Founded told := by
  have stored : ∀ r, (h.pruneAttestations place).Stores r → told r :=
    fun r stored => founded.stored r (stores_of_pruneAttestations stored)
  rcases pruneAttestations_cases place h with same | ⟨s, t, m, hm, hs, -, -, -, floor⟩
  · rwa [same]
  · obtain ⟨a, known, rfl⟩ := founded.vote legible hm
    apply founded.source_max stored known (m := some s)
    · intro low hlow
      rw [hs, hlow]
    · rw [floor, Option.getD_some]

theorem Step.founded (step : h.Step told h') (kept : h.Kept) (founded : h.Founded told) :
    h'.Founded told := by
  have stored : ∀ r, h'.Stores r → told r := by
    intro r after
    rcases step.told after with before | known
    · exact founded.stored r before
    · exact known
  have legible := (step.kept kept).legible
  cases step with
  | signBlock b _ _ _ =>
    obtain ⟨-, -, floor⟩ := signBlock_parts b.row h
    exact founded.source_eq stored (by rw [floor])
  | signAttestation a _ known _ =>
    obtain ⟨-, -, floor⟩ := signAttestation_parts a.row h
    refine ⟨stored, fun s hs => ?_⟩
    rw [floor] at hs
    cases mark : h.floorOrEmpty.source with
    | none =>
      rw [mark] at hs
      exact ⟨a, known, Option.some.inj hs⟩
    | some low =>
      rw [mark] at hs
      exact founded.source s (mark.trans hs)
  | prune place place' =>
    exact (founded.pruneBlocks place).pruneAttestations (kept.pruneBlocks place).legible place'
  | importBlocks bs _ _ =>
    rcases importBlocks_cases (bs.map Block.row) h with ⟨-, same⟩ | ⟨top, -, -, -, -, floor⟩
    · rwa [same]
    · exact founded.source_eq stored (by rw [floor])
  | importAttestations vs _ _ =>
    rcases importAttestations_cases (vs.map Attestation.row) h with
      ⟨-, same⟩ | ⟨x, hx, t, -, -, -, -, votes, floor⟩
    · rwa [same]
    · rw [← votes] at hx
      obtain ⟨a, -, rfl⟩ := AttestationRow.read_eq (legible.attestations x hx)
      have known : told (.attestation a) := stored (.attestation a) hx
      exact founded.source_max stored known (fun _ hs => hs) (by rw [floor])

end History

theorem Ledger.Moves.founded {told : Int → Record → Prop} {l l' : Ledger}
    (moves : Ledger.Moves told l l') (kept : l.Kept)
    (founded : ∀ id, (l.history id).Founded (told id)) (id : Int) :
    (l'.history id).Founded (told id) := by
  induction moves generalizing id with
  | refl => exact founded id
  | tail before move ih =>
    have kept' := Ledger.Moves.kept before kept
    cases move with
    | enroll key =>
      rw [Ledger.history_enroll]
      exact ih id
    | adopt r =>
      rw [Ledger.history_adopt]
      exact ih id
    | change who h registered known step =>
      exact Ledger.forall_history_put (P := fun id h => h.Founded (told id)) ih
        (step.founded (kept'.histories who) (ih who)) id

namespace History

variable {told : Record → Prop} {h : History}

theorem Founded.valid_block (founded : h.Founded told) (kept : h.Kept) {b : Block}
    (above : ∀ c : Block, told (.block c) → c.slot.number < b.slot.number) :
    h.judge (.block b) = .allowed .valid := by
  have below : ∀ x ∈ h.blocks, x.slot < b.row.slot := by
    intro x hx
    obtain ⟨c, known, rfl⟩ := founded.block kept.legible hx
    exact toNat_cast_lt.mpr (above c known)
  apply judgeBlock_valid.mpr
  constructor
  · intro x hx same
    have := below x hx
    omega
  · intro low mark
    obtain ⟨x, hx, rfl⟩ := kept.blocks.marked low mark
    exact below x hx

theorem Founded.valid_attestation (founded : h.Founded told) (kept : h.Kept) {a : Attestation}
    (range : a.source.number ≤ a.target.number)
    (above : ∀ c : Attestation, told (.attestation c) →
      c.target.number < a.target.number ∧ c.source.number ≤ a.source.number) :
    h.judge (.attestation a) = .allowed .valid := by
  have order (c : Attestation) (known : told (.attestation c)) :
      c.row.target < a.row.target ∧ c.row.source ≤ a.row.source := by
    obtain ⟨target, source⟩ := above c known
    exact ⟨toNat_cast_lt.mpr target, Int.ofNat_le.mpr (UInt64.le_iff_toNat_le.mp source)⟩
  have below : ∀ x ∈ h.attestations, x.target < a.row.target ∧ x.source ≤ a.row.source := by
    intro x hx
    obtain ⟨c, known, rfl⟩ := founded.vote kept.legible hx
    exact order c known
  apply judgeAttestation_valid.mpr
  refine ⟨Int.ofNat_le.mpr (UInt64.le_iff_toNat_le.mp range), ?_, ?_, ?_, ?_⟩
  · intro stored
    have := below a.row stored
    omega
  · -- A vote that ends first and begins no later is neither a double vote nor inside or outside.
    intro x hx
    have := below x hx
    rintro (⟨target, -⟩ | ⟨-, outer⟩ | ⟨inner, -⟩) <;> omega
  · intro s mark
    obtain ⟨c, known, rfl⟩ := founded.source s mark
    exact (order c known).2
  · intro t mark
    rcases kept.votes.marks with ⟨-, unset, -⟩ | ⟨s, t', -, set, held⟩
    · rw [unset] at mark
      cases mark
    · rw [set] at mark
      cases mark
      obtain ⟨x, hx, rfl, -⟩ := held.reached
      exact (below x hx).1

end History

namespace Engine

theorem run_founded (cs : List Call) (id : Int) :
    ((fresh.run cs).ledger.history id).Founded (fresh.Records cs id) :=
  (Kept.fresh.run_moved cs).founded Kept.fresh.ledger (fun _ => .empty) id

/-- A registered validator is allowed any block above all blocks that the run has recorded, and any
attestation that ends after all recorded ones and begins before none, on the network of the store. -/
theorem progress_approved (cs : List Call) (id : Int) (network : Root)
    (registered : (fresh.run cs).ledger.isRegistered id = true)
    (known : (fresh.run cs).ledger.network = none ∨
      (fresh.run cs).ledger.network = some network.bytes) :
    (∀ b : Block, b.slot.number.toNat ≤ 0x7fffffffffffffff →
      (∀ c, fresh.Records cs id (.block c) → c.slot.number < b.slot.number) →
      ((fresh.run cs).call (.maySignBlock id b network)).1 =
        .ok (.verdict (.allowed .valid))) ∧
    ∀ a : Attestation, a.source.number ≤ a.target.number →
      a.target.number.toNat ≤ 0x7fffffffffffffff →
      (∀ c, fresh.Records cs id (.attestation c) →
        c.target.number < a.target.number ∧ c.source.number ≤ a.source.number) →
      ((fresh.run cs).call (.maySignAttestation id a network)).1 =
        .ok (.verdict (.allowed .valid)) := by
  have kept := Kept.fresh.run cs
  have history := kept.ledger.histories id
  have founded := run_founded cs id
  have takes := Ledger.takes_iff_network.mpr known
  constructor
  · intro b fits above
    have fits' : b.Fits := Nat.lt_succ_of_le fits
    exact (kept.approved_iff (r := .block b)).mpr
      ⟨⟨takes, registered, fits'⟩, founded.valid_block history above⟩
  · intro a range fits above
    have target : a.target.number.toNat < storeLimit := Nat.lt_succ_of_le fits
    have fits' : a.Fits :=
      ⟨Nat.lt_of_le_of_lt (UInt64.le_iff_toNat_le.mp range) target, target⟩
    exact (kept.approved_iff (r := .attestation a)).mpr
      ⟨⟨takes, registered, fits'⟩, founded.valid_attestation history range above⟩

theorem progress_approved_pruned :
    ((fresh.run prunedRun).call (.maySignBlock 1 ⟨⟨7⟩, .filled 1⟩ (.filled 0))).1 =
        .ok (.verdict (.allowed .valid)) ∧
      ((fresh.run prunedRun).call (.maySignAttestation 1 ⟨⟨2⟩, ⟨7⟩, .filled 1⟩ (.filled 0))).1 =
        .ok (.verdict (.allowed .valid)) := by
  obtain ⟨blocks, votes⟩ := progress_approved prunedRun 1 (.filled 0) (by decide +kernel)
    (.inr (by decide +kernel))
  have left : (fresh.run prunedRun).ledger.history 1 =
      ⟨[⟨6, (Root.filled 1).bytes⟩], [⟨2, 6, (Root.filled 1).bytes⟩],
        some ⟨some 6, some 2, some 6⟩⟩ := by
    decide +kernel
  constructor
  · refine blocks ⟨⟨7⟩, .filled 1⟩ (by decide) fun c recorded => ?_
    have covered := Kept.fresh.run_covers recorded
    rw [left] at covered
    have slot : c.row.slot < (7 : UInt64).toNat := by
      rcases covered with stored | ⟨low, mark, below⟩
      · rw [List.mem_singleton.mp stored]
        decide
      · cases mark
        exact Int.lt_trans below (by decide)
    exact toNat_cast_lt.mp slot
  · refine votes ⟨⟨2⟩, ⟨7⟩, .filled 1⟩ (by decide) (by decide) fun c recorded => ?_
    have covered := Kept.fresh.run_covers recorded
    rw [left] at covered
    have epochs : c.row.target < (7 : UInt64).toNat ∧ c.row.source ≤ (2 : UInt64).toNat := by
      rcases covered with stored | ⟨s, t, begins, ends, low, below⟩
      · rw [List.mem_singleton.mp stored]
        decide
      · cases begins
        cases ends
        exact ⟨Int.lt_trans below (by decide), low⟩
    exact ⟨toNat_cast_lt.mp epochs.1, UInt64.le_iff_toNat_le.mpr (Int.ofNat_le.mp epochs.2)⟩

end Engine

end SlashGuard
