import SlashGuard.Pruning
import SlashGuard.Proofs.Faults
import SlashGuard.Proofs.Moves

/-! Pruning as a function of one history. Whatever stands in its rows, pruning a validator reads
and writes no other history. Where the rows are in the range of the store it answers, barring
faults, how many of them it drops and the mark that it leaves; it objects only to a place that is
past the range. -/
namespace SlashGuard

namespace History

variable {h : History} {keep : Nat} {id : Int}

def blockPlace (keep : Nat) (h : History) : UInt64 := UInt64.ofNat (h.blocks.length - keep)

def votePlace (keep : Nat) (h : History) : UInt64 := UInt64.ofNat (h.attestations.length - keep)

def blockFaults (keep : Nat) (h : History) : List Failure :=
  if h.floorOrEmpty.slot.isSome then rangeFaults .offset (h.blockPlace keep) else []

def voteFaults (keep : Nat) (h : History) : List Failure :=
  if h.floorOrEmpty.source.isSome && h.floorOrEmpty.target.isSome then
    rangeFaults .offset (h.votePlace keep)
  else []

def pruneFaults (keep : Nat) (h : History) : List Failure :=
  if keep = 0 then [.nothingKept] else h.blockFaults keep ++ h.voteFaults keep

def pruned (keep : Nat) (h : History) : History :=
  h.prune (h.blockPlace keep).toNat (h.votePlace keep).toNat

def mark (id : Int) (h : History) : Option Watermark :=
  h.floor.map fun f => ⟨id, (f.slot.map wordOf).map .mk, (f.source.map wordOf).map .mk,
    (f.target.map wordOf).map .mk⟩

def pruneOutcome (keep : Nat) (id : Int) (h : History) : PruneOutcome where
  blocks := h.blocks.length - (h.pruned keep).blocks.length
  attestations := h.attestations.length - (h.pruned keep).attestations.length
  watermark := (h.pruned keep).mark id

theorem blockFaults_unmarked (unmarked : h.floorOrEmpty.slot = none) : h.blockFaults keep = [] := by
  simp [blockFaults, unmarked]

theorem pruneBlocks_unmarked (unmarked : h.floorOrEmpty.slot = none) (place : Nat) :
    h.pruneBlocks place = h := by
  simp only [pruneBlocks, unmarked]

theorem pruneAttestations_unmarked
    (unmarked : h.floorOrEmpty.source = none ∨ h.floorOrEmpty.target = none) (place : Nat) :
    h.pruneAttestations place = h := by
  unfold pruneAttestations
  split
  · simp_all
  · rfl

theorem voteFaults_unmarked
    (unmarked : h.floorOrEmpty.source = none ∨ h.floorOrEmpty.target = none) :
    h.voteFaults keep = [] := by
  rcases unmarked with unmarked | unmarked <;> simp [voteFaults, unmarked]

theorem prune_floorless (floorless : h.floor = none) (place place' : Nat) :
    h.prune place place' = h := by
  have unset : h.floorOrEmpty = ⟨none, none, none⟩ := by simp [floorOrEmpty, floorless]
  rw [prune, pruneBlocks_unmarked (by rw [unset]), pruneAttestations_unmarked (by simp [unset])]

theorem Ranged.pruneBlocks (ranged : h.Ranged) (place : Nat) : (h.pruneBlocks place).Ranged := by
  rcases pruneBlocks_cases place h with same | ⟨low, m, hm, mark, blocks, votes, floor⟩
  · rwa [same]
  · refine ⟨?_, ?_, ?_, ?_, ?_⟩
    · rw [blocks]
      exact fun b hb => ranged.blocks b (List.mem_filter.mp hb).1
    · rw [votes]
      exact ranged.attestations
    · rw [floor]
      rintro v ⟨⟩
      exact inRange_max (ranged.slot low mark) (ranged.blocks m hm)
    · rw [floor]
      exact ranged.source
    · rw [floor]
      exact ranged.target

theorem Ranged.pruneAttestations (ranged : h.Ranged) (place : Nat) :
    (h.pruneAttestations place).Ranged := by
  rcases pruneAttestations_cases place h with
    same | ⟨s, t, m, hm, source, target, blocks, votes, floor⟩
  · rwa [same]
  · obtain ⟨begins, ends⟩ := ranged.attestations m hm
    refine ⟨?_, ?_, ?_, ?_, ?_⟩
    · rw [blocks]
      exact ranged.blocks
    · rw [votes]
      exact fun a ha => ranged.attestations a (List.mem_filter.mp ha).1
    · rw [floor]
      exact ranged.slot
    · rw [floor]
      rintro v ⟨⟩
      exact inRange_max (ranged.source s source) begins
    · rw [floor]
      rintro v ⟨⟩
      exact inRange_max (ranged.target t target) ends

theorem Ranged.pruned (ranged : h.Ranged) (keep : Nat) : (h.pruned keep).Ranged :=
  (ranged.pruneBlocks _).pruneAttestations _

theorem attestations_pruneBlocks (place : Nat) (h : History) :
    (h.pruneBlocks place).attestations = h.attestations := by
  rcases pruneBlocks_cases place h with same | ⟨low, m, -, -, -, votes, -⟩
  · rw [same]
  · exact votes

theorem blocks_pruneAttestations (place : Nat) (h : History) :
    (h.pruneAttestations place).blocks = h.blocks := by
  rcases pruneAttestations_cases place h with same | ⟨s, t, m, -, -, -, blocks, -, -⟩
  · rw [same]
  · exact blocks

theorem slot_pruneAttestations (place : Nat) (h : History) :
    (h.pruneAttestations place).floorOrEmpty.slot = h.floorOrEmpty.slot := by
  rcases pruneAttestations_cases place h with same | ⟨s, t, m, -, -, -, -, -, floor⟩
  · rw [same]
  · rw [floor]

theorem isSome_floor_pruneBlocks (place : Nat) (h : History) :
    (h.pruneBlocks place).floor.isSome = h.floor.isSome := by
  rcases pruneBlocks_cases place h with same | ⟨low, m, -, mark, -, -, floor⟩
  · rw [same]
  · have set : (h.pruneBlocks place).floorOrEmpty.slot = some (max low m.slot) := by rw [floor]
    rw [floor_of_marked rfl mark, floor_of_marked rfl set]
    rfl

theorem isSome_floor_pruneAttestations (place : Nat) (h : History) :
    (h.pruneAttestations place).floor.isSome = h.floor.isSome := by
  rcases pruneAttestations_cases place h with same | ⟨s, t, m, -, mark, -, -, -, floor⟩
  · rw [same]
  · have set : (h.pruneAttestations place).floorOrEmpty.source = some (max s m.source) := by
      rw [floor]
    rw [floor_of_marked rfl mark, floor_of_marked rfl set]
    rfl

/-- The attestations are pruned alike before and after the blocks. -/
theorem voteFaults_pruneBlocks (place : Nat) (h : History) :
    (h.pruneBlocks place).voteFaults keep = h.voteFaults keep := by
  obtain ⟨source, target⟩ := epochs_pruneBlocks place h
  simp only [voteFaults, votePlace, source, target, attestations_pruneBlocks]

def slotAt (place : UInt64) (h : History) : Except Failure (Option Slot) := do
  match h.blocks[(← storable .offset place).toNat]? with
  | none => return none
  | some row => return some ⟨← readStored 0 row.slot⟩

def epochsAt (place : UInt64) (h : History) : Except Failure (Option (Epoch × Epoch)) := do
  match h.attestations[(← storable .offset place).toNat]? with
  | none => return none
  | some row => return some (⟨← readStored 0 row.source⟩, ⟨← readStored 1 row.target⟩)

def cutBlocks (keep : Nat) (mark : Option Slot) (h : History) : Except Failure History :=
  match mark with
  | none => .ok h
  | some low => do
    match ← h.slotAt (h.blockPlace keep) with
    | none => return h
    | some first =>
      let v ← storable .slot (max low.number first.number)
      return (h.raiseSlot v).dropBlocks v

def cutVotes (keep : Nat) (source target : Option Epoch) (h : History) : Except Failure History :=
  match source, target with
  | some source, some target => do
    match ← h.epochsAt (h.votePlace keep) with
    | none => return h
    | some (begins, ends) =>
      let s ← storable .source (max source.number begins.number)
      let t ← storable .target (max target.number ends.number)
      return (h.raiseEpochs s t).dropAttestations t
  | _, _ => .ok h

def cut (keep : Nat) (id : Int) (h : History) : Except Failure (PruneOutcome × History) :=
  if keep = 0 then .error .nothingKept
  else do
    match ← h.readMark id with
    | none => return (.none, h)
    | some mark =>
      let h₁ ← h.cutBlocks keep mark.slot
      let h₂ ← h₁.cutVotes keep mark.source mark.target
      return (⟨h.blocks.length - h₁.blocks.length,
        h₁.attestations.length - h₂.attestations.length, ← h₂.readMark id⟩, h₂)

theorem cut_floorless (nonzero : keep ≠ 0) (floorless : h.floor = none) :
    h.cut keep id = .ok (.none, h) := by
  simp only [cut, if_neg nonzero, readMark, floorless]
  rfl

theorem Ranged.slotAt_barring (ranged : h.Ranged) (place : UInt64) :
    h.slotAt place = barring (rangeFaults .offset place)
      (h.blocks[place.toNat]?.map fun r => ⟨wordOf r.slot⟩) := by
  rw [slotAt, storable_barring]
  refine barring_last fun _ => ?_
  rw [Int.toNat_natCast]
  cases row : h.blocks[place.toNat]? with
  | none => rfl
  | some r =>
    have range := ranged.blocks r (List.mem_of_getElem? row)
    simp only [readStored_eq range.1, ok_bind]
    rfl

theorem Ranged.epochsAt_barring (ranged : h.Ranged) (place : UInt64) :
    h.epochsAt place = barring (rangeFaults .offset place)
      (h.attestations[place.toNat]?.map fun r => (⟨wordOf r.source⟩, ⟨wordOf r.target⟩)) := by
  rw [epochsAt, storable_barring]
  refine barring_last fun _ => ?_
  rw [Int.toNat_natCast]
  cases row : h.attestations[place.toNat]? with
  | none => rfl
  | some r =>
    obtain ⟨source, target⟩ := ranged.attestations r (List.mem_of_getElem? row)
    simp only [readStored_eq source.1, readStored_eq target.1, ok_bind]
    rfl

theorem Ranged.cutBlocks_barring (ranged : h.Ranged) (keep : Nat) :
    h.cutBlocks keep ((h.floorOrEmpty.slot.map wordOf).map .mk) =
      barring (h.blockFaults keep) (h.pruneBlocks (h.blockPlace keep).toNat) := by
  cases mark : h.floorOrEmpty.slot with
  | none =>
    rw [blockFaults_unmarked mark, pruneBlocks_unmarked mark]
    rfl
  | some low =>
    simp only [cutBlocks, Option.map_some, ranged.slotAt_barring, blockFaults, mark,
      Option.isSome_some, if_true]
    refine barring_last fun _ => ?_
    cases row : h.blocks[(h.blockPlace keep).toNat]? with
    | none => simp only [Option.map_none, History.pruneBlocks, mark, row, pure_ok]
    | some r =>
      have lowRange := ranged.slot low mark
      have rowRange := ranged.blocks r (List.mem_of_getElem? row)
      simp only [Option.map_some, max_wordOf lowRange rowRange,
        storable_wordOf (inRange_max lowRange rowRange), ok_bind, pure_ok, History.pruneBlocks,
        mark, row]

theorem Ranged.cutVotes_barring (ranged : h.Ranged) (keep : Nat) :
    h.cutVotes keep ((h.floorOrEmpty.source.map wordOf).map .mk)
        ((h.floorOrEmpty.target.map wordOf).map .mk) =
      barring (h.voteFaults keep) (h.pruneAttestations (h.votePlace keep).toNat) := by
  cases source : h.floorOrEmpty.source with
  | none =>
    rw [voteFaults_unmarked (.inl source), pruneAttestations_unmarked (.inl source)]
    rfl
  | some s =>
    cases target : h.floorOrEmpty.target with
    | none =>
      rw [voteFaults_unmarked (.inr target), pruneAttestations_unmarked (.inr target)]
      rfl
    | some t =>
      simp only [cutVotes, Option.map_some, ranged.epochsAt_barring, voteFaults, source, target,
        Option.isSome_some, Bool.and_self, if_true]
      refine barring_last fun _ => ?_
      cases row : h.attestations[(h.votePlace keep).toNat]? with
      | none =>
        simp only [Option.map_none, History.pruneAttestations, source, target, row, pure_ok]
      | some r =>
        have sourceRange := ranged.source s source
        have targetRange := ranged.target t target
        obtain ⟨begins, ends⟩ := ranged.attestations r (List.mem_of_getElem? row)
        simp only [Option.map_some, max_wordOf sourceRange begins, max_wordOf targetRange ends,
          storable_wordOf (inRange_max sourceRange begins),
          storable_wordOf (inRange_max targetRange ends), ok_bind, pure_ok,
          History.pruneAttestations, source, target, row]

/-- Pruning the attestations once the blocks are pruned prunes the history. -/
theorem Ranged.cutVotes_pruned (ranged : h.Ranged) (keep : Nat) :
    (h.pruneBlocks (h.blockPlace keep).toNat).cutVotes keep
        ((h.floorOrEmpty.source.map wordOf).map .mk) ((h.floorOrEmpty.target.map wordOf).map .mk) =
      barring (h.voteFaults keep) (h.pruned keep) := by
  have rest := (ranged.pruneBlocks (h.blockPlace keep).toNat).cutVotes_barring keep
  obtain ⟨source, target⟩ := epochs_pruneBlocks (h.blockPlace keep).toNat h
  rw [source, target, voteFaults_pruneBlocks, votePlace, attestations_pruneBlocks] at rest
  exact rest

theorem Ranged.cut_barring (ranged : h.Ranged) (keep : Nat) (id : Int) :
    h.cut keep id = barring (h.pruneFaults keep) (h.pruneOutcome keep id, h.pruned keep) := by
  by_cases zero : keep = 0
  · simp only [cut, pruneFaults, if_pos zero, barring]
  · rw [cut, pruneFaults, if_neg zero, if_neg zero, ranged.readMark_eq]
    cases floor : h.floor with
    | none =>
      have unset : h.floorOrEmpty = ⟨none, none, none⟩ := by simp [floorOrEmpty, floor]
      have same : h.pruned keep = h := prune_floorless floor _ _
      rw [blockFaults_unmarked (by rw [unset]), voteFaults_unmarked (by simp [unset]),
        pruneOutcome, same, mark, floor, Nat.sub_self, Nat.sub_self]
      rfl
    | some f =>
      have marks : h.floorOrEmpty = f := by simp [floorOrEmpty, floor]
      simp only [Option.map_some, ok_bind, ← marks, ranged.cutBlocks_barring]
      refine barring_bind fun _ => ?_
      rw [ranged.cutVotes_pruned]
      refine barring_last fun _ => ?_
      have blocks : (h.pruned keep).blocks = (h.pruneBlocks (h.blockPlace keep).toNat).blocks :=
        blocks_pruneAttestations _ _
      rw [(ranged.pruned keep).readMark_eq, pruneOutcome, blocks, attestations_pruneBlocks]
      rfl

end History

namespace Pruning

open Ledger

variable {l : Ledger} {id : Int} {keep : Nat}

theorem unchanged_eq (distinct : l.ids.Nodup) (id : Int) (count : History → Nat) :
    (0, l) = (count (l.history id) - count (l.history id), l.put id (l.history id)) := by
  rw [put_history distinct, Nat.sub_self]

theorem pruneBlocks_eq (distinct : l.ids.Nodup) (registered : l.isRegistered id = true) (keep : Nat)
    (mark : Option Slot) : pruneBlocks l keep id mark =
      ((l.history id).cutBlocks keep mark).map fun h =>
        ((l.history id).blocks.length - h.blocks.length, l.put id h) := by
  have unchanged := unchanged_eq distinct id fun h => h.blocks.length
  cases mark with
  | none => exact congrArg Except.ok unchanged
  | some low =>
    have asked : l.slotAt id (UInt64.ofNat (l.blockCount id - keep)) =
        (l.history id).slotAt ((l.history id).blockPlace keep) := rfl
    simp only [pruneBlocks, History.cutBlocks, asked]
    cases (l.history id).slotAt ((l.history id).blockPlace keep) with
    | error f => rfl
    | ok found =>
      cases found with
      | none => exact congrArg Except.ok unchanged
      | some first =>
        simp only [ok_bind, raiseSlot, dropBlocks]
        cases storable .slot (max low.number first.number) with
        | error f => rfl
        | ok v =>
          simp only [ok_bind, write_eq distinct registered, pure_ok]
          rw [amend_eq_put (by simpa using distinct), put_put, history_put_self registered]
          simp only [blockCount, history_put_self registered]
          rfl

theorem pruneAttestations_eq (distinct : l.ids.Nodup) (registered : l.isRegistered id = true)
    (keep : Nat) (source target : Option Epoch) : pruneAttestations l keep id source target =
      ((l.history id).cutVotes keep source target).map fun h =>
        ((l.history id).attestations.length - h.attestations.length, l.put id h) := by
  have unchanged := unchanged_eq distinct id fun h => h.attestations.length
  cases source with
  | none => exact congrArg Except.ok unchanged
  | some s =>
    cases target with
    | none => exact congrArg Except.ok unchanged
    | some t =>
      have asked : l.epochsAt id (UInt64.ofNat (l.attestationCount id - keep)) =
          (l.history id).epochsAt ((l.history id).votePlace keep) := rfl
      simp only [pruneAttestations, History.cutVotes, asked]
      cases (l.history id).epochsAt ((l.history id).votePlace keep) with
      | error f => rfl
      | ok found =>
        cases found with
        | none => exact congrArg Except.ok unchanged
        | some first =>
          simp only [ok_bind, raiseEpochs, dropAttestations]
          cases storable .source (max s.number first.1.number) with
          | error f => rfl
          | ok v =>
            cases storable .target (max t.number first.2.number) with
            | error f => rfl
            | ok w =>
              simp only [ok_bind, write_eq distinct registered, pure_ok]
              rw [amend_eq_put (by simpa using distinct), put_put, history_put_self registered]
              simp only [attestationCount, history_put_self registered]
              rfl

/-- Pruning a validator prunes its history, reads nothing else and puts it in the place of the old
one. -/
theorem prune_eq (distinct : l.ids.Nodup) (keep : Nat) (id : Int) : prune l keep id =
    ((l.history id).cut keep id).map fun x => (x.1, l.put id x.2) := by
  have unchanged : Except.ok (PruneOutcome.none, l) =
      (Except.ok (PruneOutcome.none, l.history id) : Except Failure _).map
        fun x => (x.1, l.put id x.2) := by
    simp only [Except.map, put_history distinct]
  by_cases zero : keep = 0
  · simp only [prune, History.cut, if_pos zero]
    rfl
  · rw [prune, if_neg zero]
    cases registered : l.isRegistered id with
    | false =>
      have empty := history_of_not_registered registered
      rw [if_neg Bool.false_ne_true, unchanged, History.cut_floorless zero (by rw [empty]; rfl)]
    | true =>
      have asked : l.watermark id = (l.history id).readMark id := rfl
      rw [if_pos rfl, History.cut, if_neg zero, asked]
      cases (l.history id).readMark id with
      | error f => rfl
      | ok found =>
        cases found with
        | none => exact unchanged
        | some mark =>
          simp only [ok_bind, pruneBlocks_eq distinct registered]
          cases (l.history id).cutBlocks keep mark.slot with
          | error f => rfl
          | ok h₁ =>
            have next := @pruneAttestations_eq (l.put id h₁) id (by simpa using distinct)
              (by simpa using registered) keep mark.source mark.target
            simp only [history_put_self registered, put_put] at next
            simp only [Except.map, ok_bind, next]
            cases h₁.cutVotes keep mark.source mark.target with
            | error f => rfl
            | ok h₂ =>
              have read : (l.put id h₂).watermark id = h₂.readMark id :=
                congrArg (History.readMark id) (history_put_self registered h₂)
              simp only [ok_bind, read]
              cases h₂.readMark id <;> rfl

theorem prune_barring (ranged : (l.history id).Ranged) (distinct : l.ids.Nodup) :
    prune l keep id = barring ((l.history id).pruneFaults keep)
      ((l.history id).pruneOutcome keep id, l.put id ((l.history id).pruned keep)) := by
  rw [prune_eq distinct, ranged.cut_barring, barring_map]

theorem pruneNext_ledger (ranged : (l.history id).Ranged) (distinct : l.ids.Nodup)
    (s : PruneSummary) : (pruneNext keep (s, l) id).2 =
      l.put id (if (l.history id).pruneFaults keep = [] then (l.history id).pruned keep
        else l.history id) := by
  simp only [pruneNext, prune_barring ranged distinct]
  cases (l.history id).pruneFaults keep with
  | nil => rfl
  | cons f fs => exact (put_history distinct id).symm

inductive Cut (l : Ledger) : Ledger → Prop
  | history (id : Int) (place place' : Nat) (registered : l.isRegistered id = true)
      (known : l.network ≠ none) : Cut l (l.put id ((l.history id).prune place place'))

theorem Cut.move {told : Int → Record → Prop} {l l' : Ledger} (cut : Cut l l') :
    Move told l l' := by
  cases cut with
  | history id place place' registered known =>
    exact .change id _ registered known (.prune place place')

abbrev Cuts : Ledger → Ledger → Prop := Relation.ReflTransGen Cut

theorem Cuts.moves {told : Int → Record → Prop} {l l' : Ledger} (cuts : Cuts l l') :
    Moves told l l' :=
  Relation.ReflTransGen.mono (fun _ _ => Cut.move) _ _ cuts

theorem Cuts.kept {l l' : Ledger} (cuts : Cuts l l') (kept : l.Kept) : l'.Kept := by
  have moves : Moves (fun _ _ => False) l l' := cuts.moves
  exact moves.kept kept

theorem prune_empty (place place' : Nat) : History.empty.prune place place' = .empty := rfl

theorem put_pruned_cuts (kept : l.Kept) (keep : Nat) (id : Int) :
    Cuts l (l.put id ((l.history id).pruned keep)) := by
  by_cases empty : l.history id = .empty
  · -- Without a network nothing is stored, so there is nothing to prune.
    have same : l.put id ((l.history id).pruned keep) = l := by
      rw [History.pruned, empty, prune_empty, ← empty, put_history kept.distinct]
    rw [same]
  · exact .single (.history id _ _ (registered_of_history empty) (kept.known id empty))

theorem pruneNext_cuts (keep : Nat) (id : Int) (kept : l.Kept) (s : PruneSummary) :
    Cuts l (pruneNext keep (s, l) id).2 := by
  rw [pruneNext_ledger (kept.histories id).legible.ranged kept.distinct]
  split
  · exact put_pruned_cuts kept keep id
  · rw [put_history kept.distinct]

theorem foldl_pruneNext_cuts (keep : Nat) (ids : List Int) (kept : l.Kept) (s : PruneSummary) :
    Cuts l (ids.foldl (pruneNext keep) (s, l)).2 := by
  induction ids generalizing s l with
  | nil => exact .refl
  | cons id ids ih =>
    have first := pruneNext_cuts keep id kept s
    exact first.trans (ih (first.kept kept) (pruneNext keep (s, l) id).1)

end Pruning

end SlashGuard
