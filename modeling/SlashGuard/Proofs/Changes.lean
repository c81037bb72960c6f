import SlashGuard.Proofs.Kept
import SlashGuard.Proofs.Records

/-! One change of one history: a record is signed, rows are pruned, or records are imported. Every
change keeps the invariant and stores only records that it was told of. -/
namespace SlashGuard

namespace History

theorem floor_of_marked {α : Type} {h : History} {mark : Floor → Option α}
    (unset : mark ⟨none, none, none⟩ = none) {v : α} (set : mark h.floorOrEmpty = some v) :
    h.floor = some h.floorOrEmpty := by
  cases floor : h.floor with
  | none =>
    rw [floorOrEmpty, floor, Option.getD_none, unset] at set
    cases set
  | some f => simp only [floorOrEmpty, floor, Option.getD_some]

theorem signBlock_parts (r : BlockRow) (h : History) :
    (h.signBlock r).blocks = insertNew BlockRow.place r h.blocks ∧
      (h.signBlock r).attestations = h.attestations ∧
      (h.signBlock r).floorOrEmpty =
        { h.floorOrEmpty with slot := some (h.floorOrEmpty.slot.getD r.slot) } := by
  rw [signBlock, addBlock_eq]
  exact ⟨rfl, rfl, rfl⟩

theorem signAttestation_parts (r : AttestationRow) (h : History) :
    (h.signAttestation r).blocks = h.blocks ∧
      (h.signAttestation r).attestations = insertNew AttestationRow.place r h.attestations ∧
      (h.signAttestation r).floorOrEmpty = { h.floorOrEmpty with
        source := some (h.floorOrEmpty.source.getD r.source)
        target := some (h.floorOrEmpty.target.getD r.target) } := by
  rw [signAttestation, addAttestation_eq]
  exact ⟨rfl, rfl, rfl⟩

theorem pruneBlocks_cut {place : Nat} {h : History} {low : Int} {m : BlockRow}
    (mark : h.floorOrEmpty.slot = some low) (row : h.blocks[place]? = some m) :
    (h.pruneBlocks place).blocks = h.blocks.filter (fun b => max low m.slot ≤ b.slot) ∧
      (h.pruneBlocks place).attestations = h.attestations ∧
      (h.pruneBlocks place).floorOrEmpty =
        { h.floorOrEmpty with slot := some (max low m.slot) } := by
  have raised : max (h.floorOrEmpty.slot.getD (max low m.slot)) (max low m.slot) =
      max low m.slot := by
    simp only [mark, Option.getD_some]
    omega
  simp only [pruneBlocks, mark, row]
  exact ⟨rfl, rfl, congrArg (fun v => { h.floorOrEmpty with slot := some v }) raised⟩

theorem pruneBlocks_cases (place : Nat) (h : History) :
    h.pruneBlocks place = h ∨ ∃ low, ∃ m ∈ h.blocks, h.floorOrEmpty.slot = some low ∧
      (h.pruneBlocks place).blocks = h.blocks.filter (fun b => max low m.slot ≤ b.slot) ∧
      (h.pruneBlocks place).attestations = h.attestations ∧
      (h.pruneBlocks place).floorOrEmpty =
        { h.floorOrEmpty with slot := some (max low m.slot) } := by
  cases mark : h.floorOrEmpty.slot with
  | none => exact .inl (by simp only [pruneBlocks, mark])
  | some low =>
    cases row : h.blocks[place]? with
    | none => exact .inl (by simp only [pruneBlocks, mark, row])
    | some m => exact .inr ⟨low, m, List.mem_of_getElem? row, rfl, pruneBlocks_cut mark row⟩

theorem epochs_pruneBlocks (place : Nat) (h : History) :
    (h.pruneBlocks place).floorOrEmpty.source = h.floorOrEmpty.source ∧
      (h.pruneBlocks place).floorOrEmpty.target = h.floorOrEmpty.target := by
  rcases pruneBlocks_cases place h with same | ⟨low, m, -, -, -, -, floor⟩
  · rw [same]
    exact ⟨rfl, rfl⟩
  · rw [floor]
    exact ⟨rfl, rfl⟩

/-- Pruning attestations cuts them at the target of the one at a place, or at the mark if that is
higher, and raises the source mark to its source. -/
theorem pruneAttestations_cut {place : Nat} {h : History} {s t : Int} {m : AttestationRow}
    (source : h.floorOrEmpty.source = some s) (target : h.floorOrEmpty.target = some t)
    (row : h.attestations[place]? = some m) :
    (h.pruneAttestations place).blocks = h.blocks ∧
      (h.pruneAttestations place).attestations =
        h.attestations.filter (fun a => max t m.target ≤ a.target) ∧
      (h.pruneAttestations place).floorOrEmpty = { h.floorOrEmpty with
        source := some (max s m.source), target := some (max t m.target) } := by
  have begins : max (h.floorOrEmpty.source.getD (max s m.source)) (max s m.source) =
      max s m.source := by
    simp only [source, Option.getD_some]
    omega
  have ends : max (h.floorOrEmpty.target.getD (max t m.target)) (max t m.target) =
      max t m.target := by
    simp only [target, Option.getD_some]
    omega
  simp only [pruneAttestations, source, target, row]
  exact ⟨rfl, rfl,
    congr (congrArg (fun v w => { h.floorOrEmpty with source := some v, target := some w })
      begins) ends⟩

/-- Pruning attestations does nothing, or keeps those from a target on at which it leaves the
floor, with a source no lower than any that is dropped. -/
theorem pruneAttestations_cases (place : Nat) (h : History) :
    h.pruneAttestations place = h ∨ ∃ s t, ∃ m ∈ h.attestations,
      h.floorOrEmpty.source = some s ∧ h.floorOrEmpty.target = some t ∧
      (h.pruneAttestations place).blocks = h.blocks ∧
      (h.pruneAttestations place).attestations =
        h.attestations.filter (fun a => max t m.target ≤ a.target) ∧
      (h.pruneAttestations place).floorOrEmpty = { h.floorOrEmpty with
        source := some (max s m.source), target := some (max t m.target) } := by
  cases source : h.floorOrEmpty.source with
  | none => exact .inl (by simp only [pruneAttestations, source])
  | some s =>
    cases target : h.floorOrEmpty.target with
    | none => exact .inl (by simp only [pruneAttestations, source, target])
    | some t =>
      cases row : h.attestations[place]? with
      | none => exact .inl (by simp only [pruneAttestations, source, target, row])
      | some m =>
        exact .inr ⟨s, t, m, List.mem_of_getElem? row, rfl, rfl,
          pruneAttestations_cut source target row⟩

theorem importBlocks_cases (rs : List BlockRow) (h : History) :
    (rs = [] ∧ h.importBlocks rs = h) ∨
      ∃ top ∈ insertAll BlockRow.place rs h.blocks,
        (∀ b ∈ insertAll BlockRow.place rs h.blocks, b.slot ≤ top.slot) ∧
        (h.importBlocks rs).blocks = insertAll BlockRow.place rs h.blocks ∧
        (h.importBlocks rs).attestations = h.attestations ∧
        (h.importBlocks rs).floorOrEmpty = { h.floorOrEmpty with
          slot := some (max (h.floorOrEmpty.slot.getD top.slot) top.slot) } := by
  cases rs with
  | nil => exact .inl ⟨rfl, rfl⟩
  | cons r rs =>
    have nonempty : insertAll BlockRow.place (r :: rs) h.blocks ≠ [] :=
      List.ne_nil_of_mem (mem_insertAll.mpr (.inl List.mem_cons_self))
    obtain ⟨top, member, hmax, bound⟩ := exists_max BlockRow.slot nonempty
    refine .inr ⟨top, member, bound, ?_⟩
    simp only [importBlocks, topSlot, hmax]
    exact ⟨rfl, rfl, rfl⟩

theorem importAttestations_cases (rs : List AttestationRow) (h : History) :
    (rs = [] ∧ h.importAttestations rs = h) ∨
      ∃ s ∈ insertAll AttestationRow.place rs h.attestations,
      ∃ t ∈ insertAll AttestationRow.place rs h.attestations,
        (∀ a ∈ insertAll AttestationRow.place rs h.attestations, a.source ≤ s.source) ∧
        (∀ a ∈ insertAll AttestationRow.place rs h.attestations, a.target ≤ t.target) ∧
        (h.importAttestations rs).blocks = h.blocks ∧
        (h.importAttestations rs).attestations =
          insertAll AttestationRow.place rs h.attestations ∧
        (h.importAttestations rs).floorOrEmpty = { h.floorOrEmpty with
          source := some (max (h.floorOrEmpty.source.getD s.source) s.source)
          target := some (max (h.floorOrEmpty.target.getD t.target) t.target) } := by
  cases rs with
  | nil => exact .inl ⟨rfl, rfl⟩
  | cons r rs =>
    have nonempty : insertAll AttestationRow.place (r :: rs) h.attestations ≠ [] :=
      List.ne_nil_of_mem (mem_insertAll.mpr (.inl List.mem_cons_self))
    obtain ⟨s, hs, smax, sources⟩ := exists_max AttestationRow.source nonempty
    obtain ⟨t, ht, tmax, targets⟩ := exists_max AttestationRow.target nonempty
    refine .inr ⟨s, hs, t, ht, sources, targets, ?_⟩
    simp only [importAttestations, topEpochs, smax, tmax]
    exact ⟨rfl, rfl, rfl⟩

theorem stores_of_pruneBlocks {h : History} {place : Nat} {r : Record}
    (stored : (h.pruneBlocks place).Stores r) : h.Stores r := by
  rcases pruneBlocks_cases place h with same | ⟨low, m, -, -, blocks, votes, -⟩
  · rwa [same] at stored
  · cases r with
    | block b =>
      simp only [Stores, blocks] at stored
      exact (List.mem_filter.mp stored).1
    | attestation a =>
      simp only [Stores, votes] at stored
      exact stored

theorem stores_of_pruneAttestations {h : History} {place : Nat} {r : Record}
    (stored : (h.pruneAttestations place).Stores r) : h.Stores r := by
  rcases pruneAttestations_cases place h with same | ⟨s, t, m, -, -, -, blocks, votes, -⟩
  · rwa [same] at stored
  · cases r with
    | block b =>
      simp only [Stores, blocks] at stored
      exact stored
    | attestation a =>
      simp only [Stores, votes] at stored
      exact (List.mem_filter.mp stored).1

theorem stores_of_prune {h : History} {place place' : Nat} {r : Record}
    (stored : (h.prune place place').Stores r) : h.Stores r :=
  stores_of_pruneBlocks (stores_of_pruneAttestations stored)

theorem stores_importBlocks {h : History} {bs : List Block} {r : Record} :
    (h.importBlocks (bs.map Block.row)).Stores r ↔ h.Stores r ∨ ∃ b ∈ bs, r = .block b := by
  rcases importBlocks_cases (bs.map Block.row) h with
    ⟨none, same⟩ | ⟨top, -, -, blocks, votes, -⟩
  · rw [same, List.map_eq_nil_iff.mp none]
    simp
  · cases r with
    | block c =>
      simp only [Stores, blocks, mem_insertAll, List.mem_map, Record.block.injEq]
      constructor
      · rintro (⟨b, hb, row⟩ | stored)
        · exact .inr ⟨b, hb, Block.row_injective row.symm⟩
        · exact .inl stored
      · rintro (stored | ⟨b, hb, rfl⟩)
        · exact .inr stored
        · exact .inl ⟨c, hb, rfl⟩
    | attestation a => simp [Stores, votes]

theorem stores_importAttestations {h : History} {as : List Attestation} {r : Record} :
    (h.importAttestations (as.map Attestation.row)).Stores r ↔
      h.Stores r ∨ ∃ a ∈ as, r = .attestation a := by
  rcases importAttestations_cases (as.map Attestation.row) h with
    ⟨none, same⟩ | ⟨s, -, t, -, -, -, blocks, votes, -⟩
  · rw [same, List.map_eq_nil_iff.mp none]
    simp
  · cases r with
    | block b => simp [Stores, blocks]
    | attestation c =>
      simp only [Stores, votes, mem_insertAll, List.mem_map, Record.attestation.injEq]
      constructor
      · rintro (⟨a, ha, row⟩ | stored)
        · exact .inr ⟨a, ha, Attestation.row_injective row.symm⟩
        · exact .inl stored
      · rintro (stored | ⟨a, ha, rfl⟩)
        · exact .inr stored
        · exact .inl ⟨c, ha, rfl⟩

theorem stores_signBlock {h : History} {b : Block} {r : Record} :
    (h.signBlock b.row).Stores r ↔ h.Stores r ∨ r = .block b := by
  obtain ⟨blocks, votes, -⟩ := signBlock_parts b.row h
  cases r with
  | block c =>
    simp only [Stores, blocks, mem_insertNew, Record.block.injEq]
    constructor
    · rintro (row | stored)
      · exact .inr (Block.row_injective row)
      · exact .inl stored
    · rintro (stored | rfl)
      · exact .inr stored
      · exact .inl rfl
  | attestation a => simp [Stores, votes]

theorem stores_signAttestation {h : History} {a : Attestation} {r : Record} :
    (h.signAttestation a.row).Stores r ↔ h.Stores r ∨ r = .attestation a := by
  obtain ⟨blocks, votes, -⟩ := signAttestation_parts a.row h
  cases r with
  | block b => simp [Stores, blocks]
  | attestation c =>
    simp only [Stores, votes, mem_insertNew, Record.attestation.injEq]
    constructor
    · rintro (row | stored)
      · exact .inr (Attestation.row_injective row)
      · exact .inl stored
    · rintro (stored | rfl)
      · exact .inr stored
      · exact .inl rfl

/-- A change of a history that is told of some records. -/
inductive Step (told : Record → Prop) (h : History) : History → Prop
  | signBlock (b : Block) (fits : b.Fits) (known : told (.block b))
      (valid : h.judgeBlock b.row = .allowed .valid) : Step told h (h.signBlock b.row)
  | signAttestation (a : Attestation) (fits : a.Fits) (known : told (.attestation a))
      (valid : h.judgeAttestation a.row = .allowed .valid) :
      Step told h (h.signAttestation a.row)
  | prune (place place' : Nat) : Step told h (h.prune place place')
  | importBlocks (bs : List Block) (fits : ∀ b ∈ bs, b.Fits)
      (known : ∀ b ∈ bs, told (.block b)) : Step told h (h.importBlocks (bs.map Block.row))
  | importAttestations (as : List Attestation)
      (fits : ∀ a ∈ as, a.Fits ∧ a.source.number ≤ a.target.number)
      (known : ∀ a ∈ as, told (.attestation a)) :
      Step told h (h.importAttestations (as.map Attestation.row))

def sign (r : Record) (h : History) : History :=
  match r with
  | .block b => h.signBlock b.row
  | .attestation a => h.signAttestation a.row

theorem stores_sign {h : History} {r x : Record} : (h.sign r).Stores x ↔ h.Stores x ∨ x = r := by
  cases r with
  | block b => exact stores_signBlock
  | attestation a => exact stores_signAttestation

theorem step_sign {told : Record → Prop} {h : History} {r : Record} (fits : r.Fits)
    (known : told r) (valid : h.judge r = .allowed .valid) : Step told h (h.sign r) := by
  cases r with
  | block b => exact .signBlock b fits known valid
  | attestation a => exact .signAttestation a fits known valid

theorem Step.told {told : Record → Prop} {h h' : History} (step : Step told h h') {r : Record}
    (stored : h'.Stores r) : h.Stores r ∨ told r := by
  cases step with
  | signBlock b _ known _ =>
    rcases stores_signBlock.mp stored with stored | rfl
    · exact .inl stored
    · exact .inr known
  | signAttestation a _ known _ =>
    rcases stores_signAttestation.mp stored with stored | rfl
    · exact .inl stored
    · exact .inr known
  | prune place place' => exact .inl (stores_of_prune stored)
  | importBlocks bs _ known =>
    rcases stores_importBlocks.mp stored with stored | ⟨b, hb, rfl⟩
    · exact .inl stored
    · exact .inr (known b hb)
  | importAttestations as _ known =>
    rcases stores_importAttestations.mp stored with stored | ⟨a, ha, rfl⟩
    · exact .inl stored
    · exact .inr (known a ha)

theorem Step.mono {told told' : Record → Prop} {h h' : History} (step : Step told h h')
    (more : ∀ r, told r → told' r) : Step told' h h' := by
  cases step with
  | signBlock b fits known valid => exact .signBlock b fits (more _ known) valid
  | signAttestation a fits known valid => exact .signAttestation a fits (more _ known) valid
  | prune place place' => exact .prune place place'
  | importBlocks bs fits known =>
    exact .importBlocks bs fits fun b hb => more _ (known b hb)
  | importAttestations as fits known =>
    exact .importAttestations as fits fun a ha => more _ (known a ha)

theorem Kept.empty : History.empty.Kept :=
  ⟨⟨List.nodup_nil, nofun, fun _ => rfl, nofun⟩,
    ⟨List.nodup_nil, nofun, nofun, .inl ⟨rfl, rfl, rfl⟩⟩⟩

theorem Kept.legible {h : History} (kept : h.Kept) : h.Legible where
  blocks := kept.blocks.legible
  attestations := kept.votes.legible
  slot := fun _ => kept.blocks.inRange
  source := fun _ => kept.votes.inRange_source
  target := fun _ => kept.votes.inRange_target

theorem Kept.fits_of_stores {h : History} (kept : h.Kept) {r : Record} (stored : h.Stores r) :
    r.Fits ∧ ¬ r.Inverted := by
  cases r with
  | block b =>
    have range := (kept.blocks.legible b.row stored).1
    exact ⟨Int.ofNat_lt.mp range.2, id⟩
  | attestation a =>
    obtain ⟨source, target, -⟩ := kept.votes.legible a.row stored
    have ordered := kept.votes.ordered a.row stored
    exact ⟨⟨Int.ofNat_lt.mp source.2, Int.ofNat_lt.mp target.2⟩,
      fun inverted => Int.not_lt.mpr ordered (toNat_cast_lt.mpr inverted)⟩

theorem Kept.pruneBlocks {h : History} (kept : h.Kept) (place : Nat) :
    (h.pruneBlocks place).Kept := by
  rcases pruneBlocks_cases place h with same | ⟨low, m, hm, hlow, blocks, votes, floor⟩
  · rwa [same]
  · have before := kept.blocks
    rw [hlow] at before
    constructor
    · rw [blocks, floor]
      exact before.prune hm
    · rw [votes, floor]
      exact kept.votes

theorem Kept.pruneAttestations {h : History} (kept : h.Kept) (place : Nat) :
    (h.pruneAttestations place).Kept := by
  rcases pruneAttestations_cases place h with same | ⟨s, t, m, hm, hs, ht, blocks, votes, floor⟩
  · rwa [same]
  · have before := kept.votes
    rw [hs, ht] at before
    constructor
    · rw [blocks, floor]
      exact kept.blocks
    · rw [votes, floor]
      exact before.prune hm

theorem Kept.signBlock {h : History} (kept : h.Kept) {b : Block} (fits : b.Fits) :
    (h.signBlock b.row).Kept := by
  obtain ⟨blocks, votes, floor⟩ := signBlock_parts b.row h
  constructor
  · rw [blocks, floor]
    exact kept.blocks.sign (b.row_legible fits)
  · rw [votes, floor]
    exact kept.votes

theorem Kept.signAttestation {h : History} (kept : h.Kept) {a : Attestation} (fits : a.Fits)
    (valid : h.judgeAttestation a.row = .allowed .valid) : (h.signAttestation a.row).Kept := by
  obtain ⟨blocks, votes, floor⟩ := signAttestation_parts a.row h
  obtain ⟨range, -, apart, low, high⟩ := judgeAttestation_valid.mp valid
  constructor
  · rw [blocks, floor]
    exact kept.blocks
  · rw [votes, floor]
    exact kept.votes.sign (a.row_legible fits) range apart low high

theorem Kept.importBlocks {h : History} (kept : h.Kept) {bs : List Block}
    (fits : ∀ b ∈ bs, b.Fits) : (h.importBlocks (bs.map Block.row)).Kept := by
  rcases importBlocks_cases (bs.map Block.row) h with
    ⟨-, same⟩ | ⟨top, member, bound, blocks, votes, floor⟩
  · rwa [same]
  · constructor
    · rw [blocks, floor]
      exact kept.blocks.merge (Block.rows_legible fits) member bound
    · rw [votes, floor]
      exact kept.votes

theorem Kept.importAttestations {h : History} (kept : h.Kept) {as : List Attestation}
    (fits : ∀ a ∈ as, a.Fits ∧ a.source.number ≤ a.target.number) :
    (h.importAttestations (as.map Attestation.row)).Kept := by
  rcases importAttestations_cases (as.map Attestation.row) h with
    ⟨-, same⟩ | ⟨s, hs, t, ht, sources, targets, blocks, votes, floor⟩
  · rwa [same]
  · have legible := Attestation.rows_legible fun a ha => (fits a ha).1
    have ordered : ∀ r ∈ as.map Attestation.row, r.source ≤ r.target := by
      intro r hr
      obtain ⟨a, ha, rfl⟩ := List.mem_map.mp hr
      exact Int.ofNat_le.mpr (UInt64.le_iff_toNat_le.mp (fits a ha).2)
    constructor
    · rw [blocks, floor]
      exact kept.blocks
    · rw [votes, floor]
      exact kept.votes.merge legible ordered hs ht sources targets

theorem Step.kept {told : Record → Prop} {h h' : History} (step : Step told h h')
    (kept : h.Kept) : h'.Kept := by
  cases step with
  | signBlock b fits _ _ => exact kept.signBlock fits
  | signAttestation a fits _ valid => exact kept.signAttestation fits valid
  | prune place place' => exact (kept.pruneBlocks place).pruneAttestations place'
  | importBlocks bs fits _ => exact kept.importBlocks fits
  | importAttestations as fits _ => exact kept.importAttestations fits

end History

end SlashGuard
