import SlashGuard.Proofs.Faults
import SlashGuard.Proofs.Tallies

/-! Import as a function of a ledger. Barring faults, the ledger takes up the histories of a
document one after another, and the summary counts what came; each entry stores its blocks and
raises the slot of the floor, then stores its attestations and raises the epochs. -/
namespace SlashGuard.Import

open Ledger

variable {l l' : Ledger} {id : Int} {s s' : ImportSummary}

theorem hasBlock_barring (b : Block) :
    l.hasBlock id b = barring b.faults (decide (b.row ∈ (l.history id).blocks)) := by
  rw [hasBlock, b.row_barring]
  exact barring_last fun _ => rfl

theorem otherBlock_isSome_eq (h : History) (r : BlockRow) :
    (h.otherBlock r).isSome = h.blocks.any fun x => x.Slashable r := by
  rw [Bool.eq_iff_iff, History.otherBlock_isSome]
  simp

theorem addBlock_eq (legible : (l.history id).Legible) (distinct : l.ids.Nodup)
    (registered : l.isRegistered id = true) (s : ImportSummary) (b : Block) :
    addBlock id s l b = barring b.faults (s.addBlocks (Tally.one (fun x r => x.Slashable r) b.row
      (l.history id).blocks), l.put id ((l.history id).addBlock b.row)) := by
  rw [addBlock, hasBlock_barring]
  refine barring_last fun good => ?_
  have fits := Block.faults_eq_nil.mp good
  by_cases stored : b.row ∈ (l.history id).blocks
  · simp only [stored, decide_true, if_true, pure_ok, Tally.one, History.addBlock,
      put_history distinct]
    rfl
  · obtain ⟨clash, asked, found⟩ := conflictingBlock_eq legible fits
    simp only [stored, decide_false, Bool.false_eq_true, if_false, asked, ok_bind,
      Ledger.addBlock_eq distinct registered fits, pure_ok, found, otherBlock_isSome_eq, Tally.one]
    rfl

theorem legible_addBlock {h : History} (legible : h.Legible) {r : BlockRow} (row : r.Legible) :
    (h.addBlock r).Legible := by
  rw [History.addBlock_eq]
  exact ⟨forall_mem_insertNew row legible.blocks, legible.attestations, legible.slot,
    legible.source, legible.target⟩

theorem addBlocks_eq (legible : (l.history id).Legible) (distinct : l.ids.Nodup)
    (registered : l.isRegistered id = true) (s : ImportSummary) (bs : List Block) :
    addBlocks id s l bs = barring (bs.flatMap Block.faults)
      (s.addBlocks (ImportSummary.blockTally (bs.map Block.row) (l.history id)),
        l.put id { l.history id with
          blocks := insertAll BlockRow.place (bs.map Block.row) (l.history id).blocks }) := by
  induction bs generalizing s l with
  | nil => exact congrArg (fun l => Except.ok (s, l)) (put_history distinct id).symm
  | cons b bs ih =>
    rw [addBlocks, addBlock_eq legible distinct registered]
    refine barring_bind fun good => ?_
    have row := b.row_legible (Block.faults_eq_nil.mp good)
    have self := history_put_self registered ((l.history id).addBlock b.row)
    have rest := @ih (l.put id ((l.history id).addBlock b.row))
      (by rw [self]; exact legible_addBlock legible row) (by simpa using distinct)
      (by simpa using registered)
    refine (rest _).trans ?_
    rw [self, put_put, ImportSummary.addBlocks_add, History.addBlock_eq]
    rfl

theorem hasAttestation_barring {a : Attestation} (range : ¬ a.target.number < a.source.number)
    (key : PublicKey) (index : Nat) : l.hasAttestation id a =
      barring (a.faults key index) (decide (a.row ∈ (l.history id).attestations)) := by
  rw [hasAttestation, Attestation.row_barring range key index]
  exact barring_last fun _ => rfl

theorem clashes_eq (legible : (l.history id).Legible) {a : Attestation} (fits : a.Fits) :
    clashes l id a = .ok ((l.history id).attestations.any fun x => x.Slashable a.row) := by
  obtain ⟨double, asked, found⟩ := doubleVote_eq legible fits
  obtain ⟨outer, asked', found'⟩ := surrounding_eq legible fits
  obtain ⟨inner, asked'', found''⟩ := surrounded_eq legible fits
  have all : ((l.history id).attestations.any fun x => x.Slashable a.row) =
      (double.isSome || outer.isSome || inner.isSome) := by
    rw [Bool.eq_iff_iff, found, found', found'', Bool.or_eq_true, Bool.or_eq_true,
      History.otherVote_isSome, History.surrounding_isSome, History.surrounded_isSome,
      ← exists_or, ← exists_or]
    simp only [List.any_eq_true, AttestationRow.Slashable]
    grind
  simp only [clashes, asked, asked', asked'', ok_bind, pure_ok, all]
  cases double.isSome <;> cases outer.isSome <;> rfl

theorem addAttestation_eq (legible : (l.history id).Legible) (distinct : l.ids.Nodup)
    (registered : l.isRegistered id = true) (key : PublicKey) (index : Nat) (s : ImportSummary)
    (a : Attestation) : addAttestation key id index s l a = barring (a.faults key index)
      (s.addVotes (Tally.one (fun x r => x.Slashable r) a.row (l.history id).attestations),
        l.put id ((l.history id).addAttestation a.row)) := by
  rw [addAttestation]
  by_cases inverted : a.target.number < a.source.number
  · rw [if_pos inverted, Attestation.faults, if_pos inverted]
    rfl
  · rw [if_neg inverted, hasAttestation_barring inverted key index]
    refine barring_last fun good => ?_
    obtain ⟨fits, -⟩ := Attestation.faults_eq_nil.mp good
    by_cases stored : a.row ∈ (l.history id).attestations
    · simp only [stored, decide_true, if_true, pure_ok, Tally.one, History.addAttestation,
        put_history distinct]
      rfl
    · simp only [stored, decide_false, Bool.false_eq_true, if_false, clashes_eq legible fits,
        ok_bind, Ledger.addAttestation_eq distinct registered fits, pure_ok, Tally.one]
      rfl

theorem legible_addAttestation {h : History} (legible : h.Legible) {r : AttestationRow}
    (row : r.Legible) : (h.addAttestation r).Legible := by
  rw [History.addAttestation_eq]
  exact ⟨legible.blocks, forall_mem_insertNew row legible.attestations, legible.slot,
    legible.source, legible.target⟩

theorem addAttestations_eq (legible : (l.history id).Legible) (distinct : l.ids.Nodup)
    (registered : l.isRegistered id = true) (key : PublicKey) (index : Nat) (s : ImportSummary)
    (as : List Attestation) : addAttestations key id index s l as =
      barring (Attestation.listFaults key index as)
        (s.addVotes (ImportSummary.voteTally (as.map Attestation.row) (l.history id)),
          l.put id { l.history id with
            attestations := insertAll AttestationRow.place (as.map Attestation.row)
              (l.history id).attestations }) := by
  induction as generalizing s l index with
  | nil => exact congrArg (fun l => Except.ok (s, l)) (put_history distinct id).symm
  | cons a as ih =>
    rw [addAttestations, addAttestation_eq legible distinct registered]
    refine barring_bind fun good => ?_
    have row := a.row_legible (Attestation.faults_eq_nil.mp good).1
    have self := history_put_self registered ((l.history id).addAttestation a.row)
    have rest := @ih (l.put id ((l.history id).addAttestation a.row))
      (by rw [self]; exact legible_addAttestation legible row) (by simpa using distinct)
      (by simpa using registered)
    refine (rest _ _).trans ?_
    rw [self, put_put, ImportSummary.addVotes_add, History.addAttestation_eq]
    rfl

theorem natAbs_eq_wordOf {v : Int} (h : InRange v) : UInt64.ofNat v.natAbs = wordOf v := by
  have : v.natAbs = v.toNat := by
    have low := h.1
    omega
  rw [this, wordOf]

theorem raiseToTopSlot_eq (distinct : l.ids.Nodup) (registered : l.isRegistered id = true)
    (legible : ∀ b ∈ (l.history id).blocks, b.Legible) :
    raiseToTopSlot l id = .ok (l.put id (match (l.history id).topSlot with
      | some top => (l.history id).raiseSlot top
      | none => l.history id)) := by
  cases top : (l.history id).topSlot with
  | none => simp only [raiseToTopSlot, topSlot, top, Option.map_none, put_history distinct]
  | some v =>
    obtain ⟨b, hb, rfl⟩ := List.mem_map.mp (List.max?_eq_some_iff.mp top).1
    have range := (legible b hb).1
    simp only [raiseToTopSlot, topSlot, top, Option.map_some, natAbs_eq_wordOf range,
      raiseSlot_eq distinct registered range]

theorem raiseToTopEpochs_eq (distinct : l.ids.Nodup) (registered : l.isRegistered id = true)
    (legible : ∀ a ∈ (l.history id).attestations, a.Legible) :
    raiseToTopEpochs l id = .ok (l.put id (match (l.history id).topEpochs with
      | (some source, some target) => (l.history id).raiseEpochs source target
      | _ => l.history id)) := by
  by_cases empty : (l.history id).attestations = []
  · have top : (l.history id).topEpochs = (none, none) := by simp [History.topEpochs, empty]
    simp only [raiseToTopEpochs, topEpochs, top, Option.map_none, put_history distinct]
  · obtain ⟨a, ha, source, -⟩ := exists_max AttestationRow.source empty
    obtain ⟨b, hb, target, -⟩ := exists_max AttestationRow.target empty
    have begins := (legible a ha).1
    have ends := (legible b hb).2.1
    simp only [raiseToTopEpochs, topEpochs, History.topEpochs, source, target, Option.map_some,
      natAbs_eq_wordOf begins, natAbs_eq_wordOf ends, raiseEpochs_eq distinct registered begins ends]

theorem raiseAfterBlocks_eq (legible : (l.history id).Legible) (distinct : l.ids.Nodup)
    (registered : l.isRegistered id = true) {bs : List Block} (fits : ∀ b ∈ bs, b.Fits)
    {stored : Ledger} (added : stored = l.put id { l.history id with
      blocks := insertAll BlockRow.place (bs.map Block.row) (l.history id).blocks }) :
    (if bs.isEmpty then .ok stored else raiseToTopSlot stored id) =
      .ok (l.put id ((l.history id).importBlocks (bs.map Block.row))) := by
  subst added
  cases bs with
  | nil => rfl
  | cons b bs =>
    have rows : ∀ r ∈ insertAll BlockRow.place ((b :: bs).map Block.row) (l.history id).blocks,
        r.Legible := forall_mem_insertAll (Block.rows_legible fits) legible.blocks
    rw [List.isEmpty_cons, if_neg Bool.false_ne_true, raiseToTopSlot_eq (by simpa using distinct)
      (by simpa using registered) (by rw [history_put_self registered]; exact rows),
      history_put_self registered, put_put]
    simp only [History.importBlocks, List.map_cons]
    cases History.topSlot _ <;> rfl

theorem raiseAfterVotes_eq (legible : (l.history id).Legible) (distinct : l.ids.Nodup)
    (registered : l.isRegistered id = true) {as : List Attestation} (fits : ∀ a ∈ as, a.Fits)
    {stored : Ledger} (added : stored = l.put id { l.history id with
      attestations :=
        insertAll AttestationRow.place (as.map Attestation.row) (l.history id).attestations }) :
    (if as.isEmpty then .ok stored else raiseToTopEpochs stored id) =
      .ok (l.put id ((l.history id).importAttestations (as.map Attestation.row))) := by
  subst added
  cases as with
  | nil => rfl
  | cons a as =>
    have rows : ∀ r ∈ insertAll AttestationRow.place ((a :: as).map Attestation.row)
        (l.history id).attestations, r.Legible :=
      forall_mem_insertAll (Attestation.rows_legible fits) legible.attestations
    rw [List.isEmpty_cons, if_neg Bool.false_ne_true, raiseToTopEpochs_eq (by simpa using distinct)
      (by simpa using registered) (by rw [history_put_self registered]; exact rows),
      history_put_self registered, put_put]
    simp only [History.importAttestations, List.map_cons]
    cases History.topEpochs _ with
    | mk source target => cases source <;> cases target <;> rfl

/-- Importing the entry of a key takes it up, barring its faults. -/
theorem addHistory_eq (kept : l.Kept) (s : ImportSummary) (h : KeyHistory) :
    addHistory s l h = barring h.faults (s.addHistory (l.historyOf h.key) h, l.absorb h) := by
  have start := history_enrolled kept.issued h.key
  have registered := registered_enroll l h.key
  have kept1 := kept.enroll h.key
  have history := kept1.histories (l.enroll h.key).1
  rcases enrolled : l.enroll h.key with ⟨id, l1⟩
  simp only [enrolled] at start registered kept1 history
  simp only [addHistory, enrolled, addBlocks_eq history.legible kept1.distinct registered, ite_bind,
    KeyHistory.faults]
  refine barring_bind fun goodBlocks => ?_
  have fits := Block.flatMap_faults_eq_nil.mp goodBlocks
  have between := history.importBlocks fits
  have self := history_put_self registered ((l1.history id).importBlocks (h.blocks.map Block.row))
  rw [raiseAfterBlocks_eq history.legible kept1.distinct registered fits rfl, ok_bind,
    addAttestations_eq (by rw [self]; exact between.legible) (by simpa using kept1.distinct)
      (by simpa using registered)]
  refine barring_last fun goodVotes => ?_
  have fits' := fun a ha => (Attestation.listFaults_eq_nil.mp goodVotes a ha).1
  rw [raiseAfterVotes_eq (by rw [self]; exact between.legible) (by simpa using kept1.distinct)
    (by simpa using registered) fits' rfl]
  rw [start] at self
  simp only [ok_bind, pure_ok, self, put_put, absorb, enrolled, start, History.join,
    ImportSummary.addHistory, ImportSummary.voteTally, History.attestations_importBlocks]

theorem absorb_kept (kept : l.Kept) (known : l.network ≠ none) {h : KeyHistory} (good : h.Good) :
    (l.absorb h).Kept := by
  have kept1 := kept.enroll h.key
  refine kept1.put (by rwa [network_enroll]) ?_
  exact ((kept.historyOf h.key).importBlocks good.blocks).importAttestations good.votes

theorem addHistories_eq (kept : l.Kept) (known : l.network ≠ none) (s : ImportSummary)
    (hs : List KeyHistory) : addHistories s l hs =
      barring (hs.flatMap KeyHistory.faults) (s.addHistories l hs, l.absorbAll hs) := by
  induction hs generalizing s l with
  | nil => rfl
  | cons h hs ih =>
    rw [addHistories, addHistory_eq kept]
    refine barring_bind fun good => ?_
    have kept1 := absorb_kept kept known (KeyHistory.faults_eq_nil.mp good)
    have known1 : (l.absorb h).network ≠ none := by rwa [absorb, network_put, network_enroll]
    exact ih kept1 known1 _

def recordsOf (h : KeyHistory) : List Record :=
  h.blocks.map .block ++ h.attestations.map .attestation

theorem block_mem_recordsOf {h : KeyHistory} {b : Block} :
    .block b ∈ recordsOf h ↔ b ∈ h.blocks := by
  simp [recordsOf]

theorem attestation_mem_recordsOf {h : KeyHistory} {a : Attestation} :
    .attestation a ∈ recordsOf h ↔ a ∈ h.attestations := by
  simp [recordsOf]

/-- What some histories tell of a validator, by the ids that their keys have in a ledger. -/
def Lists (hs : List KeyHistory) (l : Ledger) (id : Int) (r : Record) : Prop :=
  ∃ h ∈ hs, l.idOf h.key = some id ∧ r ∈ recordsOf h

theorem idOf_absorb (l : Ledger) (h : KeyHistory) :
    (l.absorb h).idOf h.key = some (l.enroll h.key).1 := by
  rw [absorb, idOf_put, idOf_enroll]

theorem absorb_moves (kept : l.Kept) (known : l.network ≠ none) {h : KeyHistory}
    (good : h.Good) : Moves (Lists [h] (l.absorb h)) l (l.absorb h) := by
  have registered := registered_enroll l h.key
  have known1 : (l.enroll h.key).2.network ≠ none := by rwa [network_enroll]
  have listed (r : Record) (member : r ∈ recordsOf h) :
      Lists [h] (l.absorb h) (l.enroll h.key).1 r :=
    ⟨h, List.mem_singleton_self h, idOf_absorb l h, member⟩
  have enroll : Move (Lists [h] (l.absorb h)) l (l.enroll h.key).2 := .enroll h.key
  have blocks : Move (Lists [h] (l.absorb h)) (l.enroll h.key).2 ((l.enroll h.key).2.put
      (l.enroll h.key).1 ((l.historyOf h.key).importBlocks (h.blocks.map Block.row))) := by
    rw [← history_enrolled kept.issued]
    exact .change _ _ registered known1 (.importBlocks h.blocks good.blocks
      fun b hb => listed _ (block_mem_recordsOf.mpr hb))
  exact (Relation.ReflTransGen.single enroll).trans (Moves.change (.single blocks) registered known1
    (.importAttestations h.attestations good.votes
      fun a ha => listed _ (attestation_mem_recordsOf.mpr ha)))

theorem absorb_stores (l : Ledger) {h : KeyHistory} {r : Record} (listed : r ∈ recordsOf h) :
    ((l.absorb h).history (l.enroll h.key).1).Stores r := by
  rw [absorb, history_put_self (registered_enroll l h.key), History.join,
    History.stores_importAttestations, History.stores_importBlocks]
  cases r with
  | block b => exact .inl (.inr ⟨b, block_mem_recordsOf.mp listed, rfl⟩)
  | attestation a => exact .inr ⟨a, attestation_mem_recordsOf.mp listed, rfl⟩

theorem absorbAll_moves {hs : List KeyHistory} (kept : l.Kept) (known : l.network ≠ none)
    (good : ∀ h ∈ hs, h.Good) :
    Moves (Lists hs (l.absorbAll hs)) l (l.absorbAll hs) ∧
      ∀ h ∈ hs, ∃ id, (l.absorbAll hs).idOf h.key = some id ∧
        ∀ r ∈ recordsOf h, ((l.absorbAll hs).history id).Covers r := by
  -- Ids are given out on the way, and a key that has one keeps it up to the last ledger.
  induction hs generalizing l with
  | nil => exact ⟨.refl, nofun⟩
  | cons h hs ih =>
    obtain ⟨first, rest⟩ := List.forall_mem_cons.mp good
    have moves := absorb_moves kept known first
    have known1 : (l.absorb h).network ≠ none := by rwa [absorb, network_put, network_enroll]
    have kept1 := absorb_kept kept known first
    obtain ⟨moves', covered⟩ := ih kept1 known1 rest
    have grows := moves'.grows kept1
    rw [absorbAll_cons]
    constructor
    · refine .trans (moves.mono ?_) (moves'.mono ?_)
      · rintro id r ⟨h', single, key, listed⟩
        rw [List.mem_singleton.mp single] at key listed
        exact ⟨h, List.mem_cons_self, grows.idOf _ _ key, listed⟩
      · rintro id r ⟨h', member, told⟩
        exact ⟨h', List.mem_cons_of_mem h member, told⟩
    · intro h' member
      rcases List.mem_cons.mp member with rfl | member
      · exact ⟨_, grows.idOf _ _ (idOf_absorb l h'), fun r listed =>
          (grows.advances _).covers (History.covers_of_stores (absorb_stores l listed))⟩
      · exact covered h' member

end SlashGuard.Import
