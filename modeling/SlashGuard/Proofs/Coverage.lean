import SlashGuard.Proofs.Changes

/-! What a history remembers of a record: its row is stored, or the floor covers it. No change
forgets a record, since the floor only rises and covers each row that is dropped; and a fresh
record conflicts with none that is remembered. -/
namespace SlashGuard.History

def Rises (m m' : Option Int) : Prop := ∀ v, m = some v → ∃ v', m' = some v' ∧ v ≤ v'

theorem Rises.refl (m : Option Int) : Rises m m := fun v hv => ⟨v, hv, Int.le_refl v⟩

theorem Rises.trans {m m' m'' : Option Int} (first : Rises m m') (second : Rises m' m'') :
    Rises m m'' := by
  intro v hv
  obtain ⟨v', hv', le⟩ := first v hv
  obtain ⟨v'', hv'', le'⟩ := second v' hv'
  exact ⟨v'', hv'', Int.le_trans le le'⟩

theorem rises_getD (m : Option Int) (v : Int) : Rises m (some (m.getD v)) := by
  rintro low rfl
  exact ⟨low, rfl, Int.le_refl low⟩

theorem rises_max (m : Option Int) (v : Int) : Rises m (some (max (m.getD v) v)) := by
  rintro low rfl
  exact ⟨max low v, rfl, Int.le_max_left low v⟩

theorem rises_of_eq {m : Option Int} {low : Int} (hm : m = some low) (v : Int) :
    Rises m (some (max low v)) := by
  subst hm
  exact rises_max (some low) v

def UnderSlot (h : History) (r : BlockRow) : Prop :=
  ∃ low, h.floorOrEmpty.slot = some low ∧ r.slot < low

def UnderEpochs (h : History) (r : AttestationRow) : Prop :=
  ∃ s t, h.floorOrEmpty.source = some s ∧ h.floorOrEmpty.target = some t ∧
    r.source ≤ s ∧ r.target < t

/-- The floor rises, and each row stays stored or comes to lie under the floor. -/
structure Advances (h h' : History) : Prop where
  slot : Rises h.floorOrEmpty.slot h'.floorOrEmpty.slot
  source : Rises h.floorOrEmpty.source h'.floorOrEmpty.source
  target : Rises h.floorOrEmpty.target h'.floorOrEmpty.target
  blocks : ∀ b ∈ h.blocks, b ∈ h'.blocks ∨ h'.UnderSlot b
  votes : ∀ a ∈ h.attestations, a ∈ h'.attestations ∨ h'.UnderEpochs a

variable {h h' : History}

theorem Advances.underSlot (adv : h.Advances h') {r : BlockRow}
    (under : h.UnderSlot r) : h'.UnderSlot r := by
  obtain ⟨low, hlow, below⟩ := under
  obtain ⟨low', hlow', le⟩ := adv.slot low hlow
  exact ⟨low', hlow', Int.lt_of_lt_of_le below le⟩

theorem Advances.underEpochs (adv : h.Advances h') {r : AttestationRow}
    (under : h.UnderEpochs r) : h'.UnderEpochs r := by
  obtain ⟨s, t, hs, ht, begins, below⟩ := under
  obtain ⟨s', hs', les⟩ := adv.source s hs
  obtain ⟨t', ht', let_⟩ := adv.target t ht
  exact ⟨s', t', hs', ht', Int.le_trans begins les, Int.lt_of_lt_of_le below let_⟩

theorem Advances.open_of (adv : h.Advances h') {r : Record} (above : h'.Open r) :
    h.Open r := by
  cases r with
  | block b =>
    intro low hlow
    obtain ⟨low', hlow', le⟩ := adv.slot low hlow
    exact Int.lt_of_le_of_lt le (above low' hlow')
  | attestation a =>
    constructor
    · intro low hlow
      obtain ⟨low', hlow', le⟩ := adv.source low hlow
      exact Int.le_trans le (above.1 low' hlow')
    · intro low hlow
      obtain ⟨low', hlow', le⟩ := adv.target low hlow
      exact Int.lt_of_le_of_lt le (above.2 low' hlow')

theorem Advances.refl (h : History) : h.Advances h :=
  ⟨.refl _, .refl _, .refl _, fun _ hb => .inl hb, fun _ ha => .inl ha⟩

theorem Advances.trans {h'' : History} (first : h.Advances h') (second : h'.Advances h'') :
    h.Advances h'' where
  slot := first.slot.trans second.slot
  source := first.source.trans second.source
  target := first.target.trans second.target
  blocks := by
    intro b hb
    rcases first.blocks b hb with hb | under
    · exact second.blocks b hb
    · exact .inr (second.underSlot under)
  votes := by
    intro a ha
    rcases first.votes a ha with ha | under
    · exact second.votes a ha
    · exact .inr (second.underEpochs under)

theorem advances_of_blocks {m : Option Int} (votes : h'.attestations = h.attestations)
    (floor : h'.floorOrEmpty = { h.floorOrEmpty with slot := m })
    (rises : Rises h.floorOrEmpty.slot m)
    (blocks : ∀ b ∈ h.blocks, b ∈ h'.blocks ∨ h'.UnderSlot b) : h.Advances h' := by
  refine ⟨?_, ?_, ?_, blocks, ?_⟩
  · rw [floor]
    exact rises
  · rw [floor]
    exact .refl _
  · rw [floor]
    exact .refl _
  · rw [votes]
    exact fun _ ha => .inl ha

theorem advances_of_votes {s t : Option Int} (blocks : h'.blocks = h.blocks)
    (floor : h'.floorOrEmpty = { h.floorOrEmpty with source := s, target := t })
    (begins : Rises h.floorOrEmpty.source s) (ends : Rises h.floorOrEmpty.target t)
    (votes : ∀ a ∈ h.attestations, a ∈ h'.attestations ∨ h'.UnderEpochs a) :
    h.Advances h' := by
  refine ⟨?_, ?_, ?_, ?_, votes⟩
  · rw [floor]
    exact .refl _
  · rw [floor]
    exact begins
  · rw [floor]
    exact ends
  · rw [blocks]
    exact fun _ hb => .inl hb

theorem advances_signBlock (r : BlockRow) (h : History) : h.Advances (h.signBlock r) := by
  obtain ⟨blocks, votes, floor⟩ := signBlock_parts r h
  apply advances_of_blocks votes floor (rises_getD _ _)
  intro b hb
  rw [blocks]
  exact .inl (mem_insertNew.mpr (.inr hb))

theorem advances_signAttestation (r : AttestationRow) (h : History) :
    h.Advances (h.signAttestation r) := by
  obtain ⟨blocks, votes, floor⟩ := signAttestation_parts r h
  apply advances_of_votes blocks floor (rises_getD _ _) (rises_getD _ _)
  intro a ha
  rw [votes]
  exact .inl (mem_insertNew.mpr (.inr ha))

theorem advances_importBlocks (rs : List BlockRow) (h : History) :
    h.Advances (h.importBlocks rs) := by
  rcases importBlocks_cases rs h with ⟨-, same⟩ | ⟨top, -, -, blocks, votes, floor⟩
  · rw [same]
    exact .refl h
  · apply advances_of_blocks votes floor (rises_max _ _)
    intro b hb
    rw [blocks]
    exact .inl (mem_insertAll.mpr (.inr hb))

theorem advances_importAttestations (rs : List AttestationRow) (h : History) :
    h.Advances (h.importAttestations rs) := by
  rcases importAttestations_cases rs h with ⟨-, same⟩ | ⟨s, -, t, -, -, -, blocks, votes, floor⟩
  · rw [same]
    exact .refl h
  · apply advances_of_votes blocks floor (rises_max _ _) (rises_max _ _)
    intro a ha
    rw [votes]
    exact .inl (mem_insertAll.mpr (.inr ha))

theorem advances_pruneBlocks (place : Nat) (h : History) : h.Advances (h.pruneBlocks place) := by
  rcases pruneBlocks_cases place h with same | ⟨low, m, -, hlow, blocks, votes, floor⟩
  · rw [same]
    exact .refl h
  · apply advances_of_blocks votes floor (rises_of_eq hlow m.slot)
    intro b hb
    by_cases stays : max low m.slot ≤ b.slot
    · left
      rw [blocks]
      exact List.mem_filter.mpr ⟨hb, decide_eq_true stays⟩
    · right
      exact ⟨max low m.slot, by rw [floor], Int.not_le.mp stays⟩

theorem Kept.advances_pruneAttestations (kept : h.Kept) (place : Nat) :
    h.Advances (h.pruneAttestations place) := by
  rcases pruneAttestations_cases place h with same | ⟨s, t, m, hm, hs, ht, blocks, votes, floor⟩
  · rw [same]
    exact .refl h
  · apply advances_of_votes blocks floor (rises_of_eq hs m.source) (rises_of_eq ht m.target)
    intro a ha
    by_cases stays : max t m.target ≤ a.target
    · left
      rw [votes]
      exact List.mem_filter.mpr ⟨ha, decide_eq_true stays⟩
    · -- Rows are dropped by target, but the floor knows a bound for their sources as well.
      right
      have held := kept.votes.held hs ht
      have dropped := Int.not_le.mp stays
      exact ⟨max s m.source, max t m.target, by rw [floor], by rw [floor],
        held.covered hm ha dropped, dropped⟩

theorem Step.advances {told : Record → Prop} (step : Step told h h')
    (kept : h.Kept) : h.Advances h' := by
  cases step with
  | signBlock b _ _ _ => exact advances_signBlock b.row h
  | signAttestation a _ _ _ => exact advances_signAttestation a.row h
  | prune place place' =>
    exact (advances_pruneBlocks place h).trans
      ((kept.pruneBlocks place).advances_pruneAttestations place')
  | importBlocks bs _ _ => exact advances_importBlocks (bs.map Block.row) h
  | importAttestations as _ _ => exact advances_importAttestations (as.map Attestation.row) h

def Covers (h : History) : Record → Prop
  | .block b => b.row ∈ h.blocks ∨ h.UnderSlot b.row
  | .attestation a => a.row ∈ h.attestations ∨ h.UnderEpochs a.row

theorem covers_of_stores {r : Record} (stored : h.Stores r) : h.Covers r := by
  cases r with
  | block b => exact .inl stored
  | attestation a => exact .inl stored

theorem Advances.covers (adv : h.Advances h') {r : Record} (covered : h.Covers r) :
    h'.Covers r := by
  cases r with
  | block b =>
    rcases covered with stored | under
    · exact adv.blocks b.row stored
    · exact .inr (adv.underSlot under)
  | attestation a =>
    rcases covered with stored | under
    · exact adv.votes a.row stored
    · exact .inr (adv.underEpochs under)

theorem slot_ne_of_valid {b c : Block}
    (valid : h.judge (.block b) = .allowed .valid) (covered : h.Covers (.block c)) :
    c.slot ≠ b.slot := by
  obtain ⟨empty, above⟩ := judgeBlock_valid.mp valid
  intro same
  have slots : c.row.slot = b.row.slot := Slot.cast_inj.mpr same
  rcases covered with stored | ⟨low, hlow, below⟩
  · exact empty c.row stored slots
  · have := above low hlow
    omega

theorem not_slashable_of_valid {a c : Attestation}
    (valid : h.judge (.attestation a) = .allowed .valid) (covered : h.Covers (.attestation c)) :
    ¬ c.Slashable a := by
  obtain ⟨-, -, apart, low, high⟩ := judgeAttestation_valid.mp valid
  rw [← Attestation.slashable_row]
  rcases covered with stored | ⟨s, t, hs, ht, begins, below⟩
  · exact apart c.row stored
  · -- The row begins and ends below the epochs where `a` may begin and end.
    have := low s hs
    have := high t ht
    rintro (⟨target, -⟩ | ⟨-, outer⟩ | ⟨inner, -⟩)
    · omega
    · omega
    · omega

theorem clear_of_valid {r x : Record} (valid : h.judge r = .allowed .valid)
    (covered : h.Covers x) : ¬ x.Slashable r := by
  cases r with
  | block b =>
    cases x with
    | block c => exact fun clash => slot_ne_of_valid valid covered clash.1
    | attestation c => exact id
  | attestation a =>
    cases x with
    | block c => exact id
    | attestation c => exact not_slashable_of_valid valid covered

theorem not_valid_of_covers {r : Record} (covered : h.Covers r) : h.judge r ≠ .allowed .valid := by
  intro valid
  cases r with
  | block b => exact slot_ne_of_valid valid covered rfl
  | attestation a =>
    obtain ⟨-, fresh, -, -, high⟩ := judgeAttestation_valid.mp valid
    rcases covered with stored | ⟨s, t, -, ht, -, below⟩
    · exact fresh stored
    · have := high t ht
      omega

theorem closed_of_covers {r : Record} (covered : h.Covers r) (gone : ¬ h.Stores r) :
    ¬ h.Open r := by
  intro above
  cases r with
  | block b =>
    rcases covered with stored | ⟨low, hlow, below⟩
    · exact gone stored
    · have := above low hlow
      omega
  | attestation a =>
    rcases covered with stored | ⟨s, t, -, ht, -, below⟩
    · exact gone stored
    · have := above.2 t ht
      omega

/-- A record that is fresh was fresh before. -/
theorem Advances.valid (adv : h.Advances h') (legible : h.Legible) {r : Record}
    (valid : h'.judge r = .allowed .valid) : h.judge r = .allowed .valid := by
  have apart : h.Apart r := fun x stored =>
    clear_of_valid valid (adv.covers (covers_of_stores stored))
  obtain ⟨safe, allowed⟩ := legible.judge_of_open (not_inverted_of_judge valid) apart
    (adv.open_of (open_of_valid valid))
  cases safe with
  | valid => exact allowed
  | sameData =>
    have stored := (legible.judge_sameData.mp allowed).2.1
    exact False.elim (not_valid_of_covers (adv.covers (covers_of_stores stored)) valid)

end SlashGuard.History
