import SlashGuard.Proofs.PruningTwice

/-! Prunes over any store. A prune reads and writes one history, whatever stands in its rows, and
fails or answers how many of them are gone. So engines that store the same of a validator prune it
alike, and prunes that may not write fail just where there is something to write. -/
namespace SlashGuard

namespace History

variable {h h' : History} {keep : Nat} {id : Int} {o : PruneOutcome}

theorem blocks_ne_nil_of_slotAt {place : UInt64} {first : Slot}
    (asked : h.slotAt place = .ok (some first)) : h.blocks ≠ [] := by
  intro none
  obtain ⟨offset, -, row⟩ := bind_eq_ok.mp asked
  rw [none] at row
  cases row

theorem attestations_ne_nil_of_epochsAt {place : UInt64} {first : Epoch × Epoch}
    (asked : h.epochsAt place = .ok (some first)) : h.attestations ≠ [] := by
  intro none
  obtain ⟨offset, -, row⟩ := bind_eq_ok.mp asked
  rw [none] at row
  cases row

theorem cutBlocks_ok {mark : Option Slot} (done : h.cutBlocks keep mark = .ok h') :
    h' = h ∨ (mark.isSome = true ∧ h.blocks ≠ [] ∧ ∃ v, h' = (h.raiseSlot v).dropBlocks v) := by
  cases mark with
  | none => exact .inl (Except.ok.inj done).symm
  | some low =>
    obtain ⟨found, asked, rest⟩ := bind_eq_ok.mp done
    cases found with
    | none => exact .inl (Except.ok.inj rest).symm
    | some first =>
      obtain ⟨v, -, last⟩ := bind_eq_ok.mp rest
      exact .inr ⟨rfl, blocks_ne_nil_of_slotAt asked, v, (Except.ok.inj last).symm⟩

theorem cutVotes_ok {source target : Option Epoch} (done : h.cutVotes keep source target = .ok h') :
    h' = h ∨ (source.isSome = true ∧ target.isSome = true ∧ h.attestations ≠ [] ∧
      ∃ s t, h' = (h.raiseEpochs s t).dropAttestations t) := by
  cases source with
  | none => exact .inl (Except.ok.inj done).symm
  | some low =>
    cases target with
    | none => exact .inl (Except.ok.inj done).symm
    | some high =>
      obtain ⟨found, asked, rest⟩ := bind_eq_ok.mp done
      cases found with
      | none => exact .inl (Except.ok.inj rest).symm
      | some first =>
        obtain ⟨s, -, further⟩ := bind_eq_ok.mp rest
        obtain ⟨t, -, last⟩ := bind_eq_ok.mp further
        exact .inr ⟨rfl, rfl, attestations_ne_nil_of_epochsAt asked, s, t,
          (Except.ok.inj last).symm⟩

theorem cut_ok (done : h.cut keep id = .ok (o, h')) :
    (o = .none ∧ h' = h) ∨ ∃ mark h₁, h.readMark id = .ok (some mark) ∧
      h.cutBlocks keep mark.slot = .ok h₁ ∧ h₁.cutVotes keep mark.source mark.target = .ok h' ∧
      o.blocks = h.blocks.length - h₁.blocks.length ∧
      o.attestations = h₁.attestations.length - h'.attestations.length := by
  unfold cut at done
  split at done
  · cases done
  · obtain ⟨found, read, rest⟩ := bind_eq_ok.mp done
    cases found with
    | none =>
      cases rest
      exact .inl ⟨rfl, rfl⟩
    | some mark =>
      obtain ⟨h₁, blocks, further⟩ := bind_eq_ok.mp rest
      obtain ⟨h₂, votes, last⟩ := bind_eq_ok.mp further
      obtain ⟨w, -, answer⟩ := bind_eq_ok.mp last
      cases answer
      exact .inr ⟨mark, h₁, read, blocks, votes, rfl, rfl⟩

theorem counts_of_cut (done : h.cut keep id = .ok (o, h')) :
    o.blocks + h'.blocks.length = h.blocks.length ∧
      o.attestations + h'.attestations.length = h.attestations.length := by
  rcases cut_ok done with ⟨rfl, rfl⟩ | ⟨mark, h₁, -, blocks, votes, dropped, dropped'⟩
  · exact ⟨Nat.zero_add _, Nat.zero_add _⟩
  · have first : h₁.blocks.length ≤ h.blocks.length ∧ h₁.attestations = h.attestations := by
      rcases cutBlocks_ok blocks with rfl | ⟨-, -, v, rfl⟩
      · exact ⟨Nat.le_refl _, rfl⟩
      · exact ⟨List.length_filter_le _ _, rfl⟩
    have second : h'.blocks = h₁.blocks ∧ h'.attestations.length ≤ h₁.attestations.length := by
      rcases cutVotes_ok votes with rfl | ⟨-, -, -, s, t, rfl⟩
      · exact ⟨rfl, Nat.le_refl _⟩
      · exact ⟨rfl, List.length_filter_le _ _⟩
    rw [dropped, dropped', second.1, ← first.2]
    exact ⟨Nat.sub_add_cancel first.1, Nat.sub_add_cancel second.2⟩

/-- Whether pruning a history writes, be it what stands there already. -/
def prunable (h : History) : Bool :=
  match h.floor with
  | none => false
  | some f =>
    (f.slot.isSome && !h.blocks.isEmpty) ||
      (f.source.isSome && f.target.isSome && !h.attestations.isEmpty)

theorem writes_eq_prunable (l : Ledger) (id : Int) :
    Pruning.writes l id = (l.history id).prunable := rfl

theorem isSome_of_readOptional {column : Nat} {v : Option Int} {w : Option UInt64}
    (read : readOptional column v = .ok w) : w.isSome = v.isSome := by
  cases v with
  | none =>
    cases read
    rfl
  | some x =>
    obtain ⟨n, -, rfl⟩ := map_eq_ok.mp read
    rfl

theorem marks_of_readMark {mark : Watermark} (read : h.readMark id = .ok (some mark)) :
    ∃ f, h.floor = some f ∧ mark.slot.isSome = f.slot.isSome ∧
      mark.source.isSome = f.source.isSome ∧ mark.target.isSome = f.target.isSome := by
  unfold readMark at read
  cases floor : h.floor with
  | none =>
    rw [floor] at read
    cases read
  | some f =>
    rw [floor] at read
    obtain ⟨slot, readSlot, rest⟩ := bind_eq_ok.mp read
    obtain ⟨source, readSource, further⟩ := bind_eq_ok.mp rest
    obtain ⟨target, readTarget, last⟩ := bind_eq_ok.mp further
    cases last
    refine ⟨f, rfl, ?_⟩
    simp only [Option.isSome_map, isSome_of_readOptional readSlot,
      isSome_of_readOptional readSource, isSome_of_readOptional readTarget, and_self]

theorem cut_of_not_prunable (idle : h.prunable = false) (done : h.cut keep id = .ok (o, h')) :
    h' = h := by
  rcases cut_ok done with ⟨-, same⟩ | ⟨mark, h₁, read, blocks, votes, -⟩
  · exact same
  · obtain ⟨f, floor, slot, source, target⟩ := marks_of_readMark read
    simp only [prunable, floor, Bool.or_eq_false_iff] at idle
    have first : h₁ = h := by
      rcases cutBlocks_ok blocks with same | ⟨marked, nonempty, -⟩
      · exact same
      · rw [← slot, marked] at idle
        simp [nonempty] at idle
    rw [first] at votes
    rcases cutVotes_ok votes with same | ⟨begins, ends, nonempty, -⟩
    · exact same
    · rw [← source, begins, ← target, ends] at idle
      simp [nonempty] at idle

end History

def Access.cut (access : Access) (keep : Nat) (id : Int) (h : History) :
    Except Failure (PruneOutcome × History) :=
  if access = .reading && h.prunable then .error (.store .readOnly) else h.cut keep id

/-- An engine that can begin a prune, over a store that tells its validators apart. -/
structure Engine.Usable (e : Engine) : Prop where
  access : e.access = .full ∨ e.access = .reading
  distinct : e.ledger.ids.Nodup

namespace Engine

variable {e e' : Engine} {keep : Nat} {id : Int} {o : PruneOutcome} {f : Failure} {h : History}

theorem Usable.attempt_eq (usable : e.Usable) (positive : 1 ≤ keep) (id : Int) :
    e.attempt (.prune keep id) =
      if e.access = .reading && (e.ledger.history id).prunable then .error (.store .readOnly)
      else (Pruning.prune e.ledger keep id).map
        fun x => (.outcome x.1, { e with ledger := x.2 }) := by
  have nonzero : keep ≠ 0 := Nat.ne_of_gt positive
  have granted : e.writer (fun l => keep ≠ 0 && Pruning.writes l id) =
      if e.access = .reading && (e.ledger.history id).prunable then .error (.store .readOnly)
      else .ok e.ledger := by
    rcases usable.access with access | access
    · simp [writer, access]
    · simp [writer, access, nonzero, History.writes_eq_prunable]
  simp only [attempt, prune, granted]
  split
  · rfl
  · rw [ok_bind]
    cases Pruning.prune e.ledger keep id <;> rfl

theorem Usable.attempt_prune (usable : e.Usable) (positive : 1 ≤ keep) (id : Int) :
    e.attempt (.prune keep id) = (e.access.cut keep id (e.ledger.history id)).map
      fun x => (.outcome x.1, { e with ledger := e.ledger.put id x.2 }) := by
  rw [usable.attempt_eq positive, Access.cut, Pruning.prune_eq usable.distinct]
  split
  · rfl
  · cases (e.ledger.history id).cut keep id <;> rfl

theorem Usable.call_prune_ok (usable : e.Usable) (positive : 1 ≤ keep)
    (done : e.access.cut keep id (e.ledger.history id) = .ok (o, h)) : e.call (.prune keep id) =
      (.ok (.outcome o), { e with ledger := e.ledger.put id h }) := by
  rw [call, usable.attempt_prune positive, done]
  rfl

theorem Usable.call_prune_error (usable : e.Usable) (positive : 1 ≤ keep)
    (failed : e.access.cut keep id (e.ledger.history id) = .error f) :
    e.call (.prune keep id) = (.error f, e) := by
  rw [call, usable.attempt_prune positive, failed]
  rfl

theorem cut_of_access {access : Access} {h h' : History}
    (done : access.cut keep id h = .ok (o, h')) : h.cut keep id = .ok (o, h') := by
  unfold Access.cut at done
  split at done
  · cases done
  · exact done

theorem history_put_cut {l : Ledger} {access : Access} (positive : 1 ≤ keep)
    (done : access.cut keep id (l.history id) = .ok (o, h)) : (l.put id h).history id = h := by
  apply Ledger.history_put_empty
  intro empty
  have own := cut_of_access done
  rw [empty, History.cut_floorless (Nat.ne_of_gt positive) rfl] at own
  cases own
  rfl

/-- A prune fails or leaves another history of its validator, of which the outcome tells how many
rows are gone. -/
theorem Usable.call_prune_cases (usable : e.Usable) (positive : 1 ≤ keep) (id : Int) :
    (∃ f, e.call (.prune keep id) = (.error f, e)) ∨ ∃ o h,
      e.call (.prune keep id) = (.ok (.outcome o), { e with ledger := e.ledger.put id h }) ∧
        (e.ledger.put id h).history id = h ∧
        o.blocks + h.blocks.length = (e.ledger.history id).blocks.length ∧
        o.attestations + h.attestations.length = (e.ledger.history id).attestations.length := by
  cases done : e.access.cut keep id (e.ledger.history id) with
  | error f => exact .inl ⟨f, usable.call_prune_error positive done⟩
  | ok x =>
    obtain ⟨o, h⟩ := x
    obtain ⟨blocks, votes⟩ := History.counts_of_cut (cut_of_access done)
    exact .inr ⟨o, h, usable.call_prune_ok positive done, history_put_cut positive done, blocks,
      votes⟩

theorem Usable.prune_alike (usable : e.Usable) (usable' : e'.Usable) (positive : 1 ≤ keep)
    (access : e'.access = e.access) (same : e'.ledger.history id = e.ledger.history id) :
    (e'.call (.prune keep id)).1 = (e.call (.prune keep id)).1 ∧
      (e'.call (.prune keep id)).2.ledger.history id =
        (e.call (.prune keep id)).2.ledger.history id := by
  have alike : e'.access.cut keep id (e'.ledger.history id) =
      e.access.cut keep id (e.ledger.history id) := by
    rw [access, same]
  cases done : e.access.cut keep id (e.ledger.history id) with
  | error f =>
    rw [usable.call_prune_error positive done,
      usable'.call_prune_error positive (alike.trans done)]
    exact ⟨rfl, same⟩
  | ok x =>
    obtain ⟨o, h⟩ := x
    have done' := alike.trans done
    rw [usable.call_prune_ok positive done, usable'.call_prune_ok positive done']
    exact ⟨rfl, (history_put_cut positive done').trans (history_put_cut positive done).symm⟩

structure Framed (e e' : Engine) : Prop where
  guard : e'.guard = e.guard
  access : e'.access = e.access
  ledger : e.ledger.Framed e'.ledger

theorem Framed.trans {e'' : Engine} (first : e.Framed e') (second : e'.Framed e'') :
    e.Framed e'' :=
  ⟨second.guard.trans first.guard, second.access.trans first.access,
    first.ledger.trans second.ledger⟩

theorem Framed.symm (framed : e.Framed e') : e'.Framed e :=
  ⟨framed.guard.symm, framed.access.symm, framed.ledger.symm⟩

theorem Framed.eq_of_ledger (framed : e.Framed e') (same : e'.ledger = e.ledger) : e' = e := by
  obtain ⟨guard, access, -⟩ := framed
  cases e
  cases e'
  simp_all

theorem Usable.framed_prune (usable : e.Usable) (positive : 1 ≤ keep) (id : Int) :
    e.Framed (e.call (.prune keep id)).2 ∧ ∀ id', id' ≠ id →
      (e.call (.prune keep id)).2.ledger.history id' = e.ledger.history id' := by
  rcases usable.call_prune_cases positive id with ⟨f, failed⟩ | ⟨o, h, done, -⟩
  · rw [failed]
    exact ⟨⟨rfl, rfl, .refl e.ledger⟩, fun _ _ => rfl⟩
  · rw [done]
    have only := Ledger.changesOnly_put e.ledger id h
    exact ⟨⟨rfl, rfl, only.frame⟩, only.others⟩

theorem Usable.of_framed (usable : e.Usable) (framed : e.Framed e') : e'.Usable where
  access := by
    rw [framed.access]
    exact usable.access
  distinct := by
    rw [framed.ledger.ids]
    exact usable.distinct

end Engine

end SlashGuard
