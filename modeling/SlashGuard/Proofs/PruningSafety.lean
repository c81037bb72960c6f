import SlashGuard.Proofs.Runs

/-! What pruning does to refusals. Whatever conflicts with a dropped row lies under the floor, so a
refused request stays refused, except for a stored attestation that surrounds another one: once that
one is dropped the attestation passes as the same data. -/
namespace SlashGuard

namespace History

/-- Rows are dropped from below, by slot and by target, and none is forgotten. -/
structure Pruned (h h' : History) : Prop where
  advances : h.Advances h'
  blocks : h'.blocks ⊆ h.blocks
  votes : h'.attestations ⊆ h.attestations
  slots : ∀ b ∈ h'.blocks, ∀ x ∈ h.blocks, b.slot ≤ x.slot → x ∈ h'.blocks
  targets : ∀ a ∈ h'.attestations, ∀ x ∈ h.attestations, a.target ≤ x.target →
    x ∈ h'.attestations

theorem Pruned.refl (h : History) : h.Pruned h :=
  ⟨.refl h, fun _ hb => hb, fun _ ha => ha, fun _ _ _ hx _ => hx, fun _ _ _ hx _ => hx⟩

theorem Pruned.trans {h h' h'' : History} (first : h.Pruned h') (second : h'.Pruned h'') :
    h.Pruned h'' where
  advances := first.advances.trans second.advances
  blocks := fun _ hb => first.blocks (second.blocks hb)
  votes := fun _ ha => first.votes (second.votes ha)
  slots := fun b hb x hx le => second.slots b hb x (first.slots b (second.blocks hb) x hx le) le
  targets := fun a ha x hx le =>
    second.targets a ha x (first.targets a (second.votes ha) x hx le) le

theorem pruned_pruneBlocks (place : Nat) (h : History) : h.Pruned (h.pruneBlocks place) := by
  have advances := advances_pruneBlocks place h
  rcases pruneBlocks_cases place h with same | ⟨low, m, -, -, blocks, votes, -⟩
  · rw [same]
    exact .refl h
  · refine ⟨advances, ?_, ?_, ?_, ?_⟩
    · rw [blocks]
      exact fun _ hb => (List.mem_filter.mp hb).1
    · rw [votes]
      exact fun _ ha => ha
    · rw [blocks]
      intro b hb x hx le
      have above := of_decide_eq_true (List.mem_filter.mp hb).2
      exact List.mem_filter.mpr ⟨hx, decide_eq_true (Int.le_trans above le)⟩
    · rw [votes]
      exact fun _ _ _ hx _ => hx

theorem Kept.pruned_pruneAttestations {h : History} (kept : h.Kept) (place : Nat) :
    h.Pruned (h.pruneAttestations place) := by
  have advances := kept.advances_pruneAttestations place
  rcases pruneAttestations_cases place h with same | ⟨s, t, m, -, -, -, blocks, votes, -⟩
  · rw [same]
    exact .refl h
  · refine ⟨advances, ?_, ?_, ?_, ?_⟩
    · rw [blocks]
      exact fun _ hb => hb
    · rw [votes]
      exact fun _ ha => (List.mem_filter.mp ha).1
    · rw [blocks]
      exact fun _ _ _ hx _ => hx
    · rw [votes]
      intro a ha x hx le
      have above := of_decide_eq_true (List.mem_filter.mp ha).2
      exact List.mem_filter.mpr ⟨hx, decide_eq_true (Int.le_trans above le)⟩

theorem Kept.pruned_prune {h : History} (kept : h.Kept) (place place' : Nat) :
    h.Pruned (h.prune place place') :=
  (pruned_pruneBlocks place h).trans ((kept.pruneBlocks place).pruned_pruneAttestations place')

theorem Pruned.stores {h h' : History} (pruned : h.Pruned h') {r : Record} (stored : h'.Stores r) :
    h.Stores r := by
  cases r with
  | block b => exact pruned.blocks stored
  | attestation a => exact pruned.votes stored

/-- A stored attestation surrounds one that is stored before and conflicts with none that is stored
after. -/
def Frees (h h' : History) (r : Record) : Prop :=
  ∃ a, r = .attestation a ∧ h'.Stores r ∧ h'.Apart r ∧
    ∃ c, h.Stores (.attestation c) ∧ a.Surrounds c

theorem Frees.stores {h h' : History} {r : Record} (frees : h.Frees h' r) : h'.Stores r := by
  obtain ⟨a, -, stored, -⟩ := frees
  exact stored

/-- What was refused is not fresh after pruning: what was stored is remembered, and what is open
was open. -/
theorem Pruned.not_valid {h h' : History} (pruned : h.Pruned h') (legible : h.Legible)
    {r : Record} {why : Refusal} (refused : h.judge r = .refused why) :
    h'.judge r ≠ .allowed .valid := by
  intro valid
  rw [pruned.advances.valid legible valid] at refused
  cases refused

/-- Of two records that conflict, the later by slot or target is not dropped before the other. So
only an attestation that ends earlier is, which the other surrounds. -/
theorem Pruned.surrounds_of_dropped {h h' : History} (pruned : h.Pruned h') {r x : Record}
    (clash : x.Slashable r) (stored : h'.Stores r) (hx : h.Stores x) (dropped : ¬ h'.Stores x) :
    ∃ a c, r = .attestation a ∧ x = .attestation c ∧ a.Surrounds c := by
  cases r with
  | block b =>
    cases x with
    | block c =>
      have slots := Int.le_of_eq (Slot.cast_inj.mpr clash.1.symm)
      exact False.elim (dropped (pruned.slots b.row stored c.row hx slots))
    | attestation c => exact False.elim clash
  | attestation a =>
    cases x with
    | block c => exact False.elim clash
    | attestation c =>
      have earlier (ends : a.row.target ≤ c.row.target) : False :=
        dropped (pruned.targets a.row stored c.row hx ends)
      rcases clash with ⟨target, -⟩ | ⟨-, ends⟩ | outer
      · exact False.elim (earlier (Int.le_of_eq (Epoch.cast_inj.mpr target.symm)))
      · exact False.elim (earlier (Int.le_of_lt (toNat_cast_lt.mpr ends)))
      · exact ⟨a, c, rfl, rfl, outer⟩

theorem Pruned.frees {h h' : History} (pruned : h.Pruned h') (legible : h.Legible)
    (legible' : h'.Legible) {r : Record} {why : Refusal} (refused : h.judge r = .refused why)
    {safe : Safe} (allowed : h'.judge r = .allowed safe) : h.Frees h' r := by
  have apart := legible'.apart_of_judge allowed
  cases safe with
  | valid => exact False.elim (pruned.not_valid legible refused allowed)
  | sameData =>
    have stored := (legible'.judge_sameData.mp allowed).2.1
    obtain ⟨x, hx, clash⟩ := legible.clash_of_refused (not_inverted_of_judge allowed)
      (pruned.stores stored) refused
    have dropped : ¬ h'.Stores x := fun remains => apart x remains clash
    obtain ⟨a, c, rfl, rfl, outer⟩ := pruned.surrounds_of_dropped clash stored hx dropped
    exact ⟨a, rfl, stored, apart, c, hx, outer⟩

theorem Frees.judge {h h' : History} (kept : h.Kept) (kept' : h'.Kept) {r : Record}
    (frees : h.Frees h' r) :
    (∃ why, h.judge r = .refused why) ∧ h'.judge r = .allowed .sameData := by
  obtain ⟨a, rfl, stored, apart, c, hc, outer⟩ := frees
  obtain ⟨-, range⟩ := kept'.fits_of_stores stored
  constructor
  · cases judged : h.judge (.attestation a) with
    | refused why => exact ⟨why, rfl⟩
    | allowed safe =>
      have clash : (Record.attestation c).Slashable (.attestation a) := .inr (.inr outer)
      exact False.elim (kept.legible.apart_of_judge judged (.attestation c) hc clash)
  · exact kept'.legible.judge_sameData.mpr ⟨range, stored, apart⟩

end History

namespace Ledger

structure Pruned (l l' : Ledger) : Prop where
  ids : l'.ids = l.ids
  network : l'.network = l.network
  histories : ∀ id, (l.history id).Pruned (l'.history id)

theorem pruned_of_cut {l l' : Ledger} (kept : l.Kept) (cut : Pruning.Cut l l') : l.Pruned l' := by
  cases cut with
  | history id place place' registered known =>
    exact ⟨ids_put l id _, network_put l id _,
      forall_history_put (P := fun id' => (l.history id').Pruned) (fun _ => .refl _)
        ((kept.histories id).pruned_prune place place')⟩

theorem pruned_of_cuts {l l' : Ledger} (kept : l.Kept) (cuts : Pruning.Cuts l l') :
    l.Pruned l' := by
  induction cuts with
  | refl => exact ⟨rfl, rfl, fun _ => .refl _⟩
  | tail before cut ih =>
    have last := pruned_of_cut (Pruning.Cuts.kept before kept) cut
    exact ⟨last.ids.trans ih.ids, last.network.trans ih.network,
      fun id => (ih.histories id).trans (last.histories id)⟩

theorem Pruned.isRegistered {l l' : Ledger} (pruned : l.Pruned l') (id : Int) :
    l'.isRegistered id = l.isRegistered id := by
  rw [Bool.eq_iff_iff, isRegistered_iff_mem_ids, isRegistered_iff_mem_ids, pruned.ids]

theorem Pruned.takes {l l' : Ledger} (pruned : l.Pruned l') {r : Root} (takes : l.Takes r) :
    l'.Takes r := by
  intro bytes known
  exact takes bytes (pruned.network ▸ known)

end Ledger

def Call.pruning (keep : Nat) : Option Int → Call
  | some id => .prune keep id
  | none => .pruneAll keep

namespace Engine

variable {e : Engine} {id : Int} {network : Root} {r : Record}

def Refuses (e : Engine) (c : Call) : Prop :=
  ∃ why, (e.call c).1 = .ok (.verdict (.refused why))

theorem Kept.pruned_call (kept : e.Kept) (keep : Nat) (who : Option Int) :
    e.ledger.Pruned (e.call (.pruning keep who)).2.ledger := by
  cases who with
  | some id =>
    obtain ⟨l, called, cuts⟩ := kept.prune_cuts keep id
    simp only [Call.pruning, called]
    exact Ledger.pruned_of_cuts kept.ledger cuts
  | none =>
    obtain ⟨l, called, cuts⟩ := kept.pruneAll_cuts keep
    simp only [Call.pruning, called]
    exact Ledger.pruned_of_cuts kept.ledger cuts

theorem Kept.refuses_iff (kept : e.Kept) (range : ¬ r.Inverted) :
    e.Refuses (.sign id network r) ↔
      e.Decides id network r ∧ ∃ why, (e.ledger.history id).judge r = .refused why := by
  have other (why : Refusal) (judged : (e.ledger.history id).judge r = .refused why) :
      (.refused why : Verdict) ≠ .refused .invalidRange := by
    intro same
    rw [same] at judged
    exact range (History.judge_invalidRange.mp judged)
  constructor
  · rintro ⟨why, answered⟩
    by_cases decides : e.Decides id network r
    · rw [kept.call_sign range decides] at answered
      exact ⟨decides, why, by simpa using answered⟩
    · obtain ⟨f, fails⟩ := kept.call_sign_fails range decides
      rw [fails] at answered
      cases answered
  · rintro ⟨decides, why, judged⟩
    exact ⟨why, (kept.answer_iff (other why judged)).mpr ⟨decides, judged⟩⟩

/-- Pruning keeps every refusal of a request to sign but that of an attestation that it frees on the
network of the ledger. -/
theorem pruning_keeps_refusal_iff (cs : List Call) (keep : Nat) (who : Option Int) (id : Int)
    (network : Root) (r : Record) :
    ((fresh.run cs).Refuses (.sign id network r) →
        ((fresh.run cs).call (.pruning keep who)).2.Refuses (.sign id network r)) ↔
      ¬ ((fresh.run cs).ledger.network = some network.bytes ∧
        ((fresh.run cs).ledger.history id).Frees
          (((fresh.run cs).call (.pruning keep who)).2.ledger.history id) r) := by
  have kept := Kept.fresh.run cs
  have kept' := kept.call (.pruning keep who)
  have pruned := kept.pruned_call keep who
  have history := kept.ledger.histories id
  have history' := kept'.ledger.histories id
  constructor
  · rintro keeps ⟨known, frees⟩
    obtain ⟨⟨why, refused⟩, allowed⟩ := frees.judge history history'
    have before := (pruned.histories id).stores frees.stores
    obtain ⟨decides, range⟩ := kept.decides_of_stores before known
    have after := keeps ((kept.refuses_iff range).mpr ⟨decides, why, refused⟩)
    obtain ⟨-, why', refused'⟩ := (kept'.refuses_iff range).mp after
    rw [allowed] at refused'
    cases refused'
  · intro free refuses
    by_cases range : r.Inverted
    · exact ⟨.invalidRange, by rw [call_sign_inverted range]⟩
    · obtain ⟨decides, why, refused⟩ := (kept.refuses_iff range).mp refuses
      have decides' : ((fresh.run cs).call (.pruning keep who)).2.Decides id network r :=
        ⟨pruned.takes decides.takes, (pruned.isRegistered id).trans decides.registered,
          decides.fits⟩
      refine (kept'.refuses_iff range).mpr ⟨decides', ?_⟩
      -- If it were allowed now, what it conflicted with would have been dropped: it would be freed.
      cases judged : (((fresh.run cs).call (.pruning keep who)).2.ledger.history id).judge r with
      | refused why' => exact ⟨why', rfl⟩
      | allowed safe =>
        have frees := (pruned.histories id).frees history.legible history'.legible refused judged
        have known := kept.ledger.known_of_stores ((pruned.histories id).stores frees.stores)
        exact False.elim (free ⟨Ledger.network_of_takes decides.takes known, frees⟩)

def voteText : Text.Utf8.Source :=
  ("[[5,\"".toList ++ Text.Hex.write (Root.filled 0).bytes ++ "\"],[[\"01\",[],[[5,10,\"".toList ++
    Text.Hex.write (Root.filled 10).bytes ++ "\"],[4,11,\"".toList ++
    Text.Hex.write (Root.filled 11).bytes ++ "\"]]]]]".toList).map some

/-- Both attestations are stored, and the marks stand at the highest epochs of the two. -/
theorem call_voteText : fresh.call (.importText voteText) =
    (.ok (.imported ⟨1, 0, 0, 2, 0, 1⟩), ⟨⟨some 1, some (Root.filled 0).bytes, 1, [⟨1, [1],
      ⟨[], [⟨5, 10, (Root.filled 10).bytes⟩, ⟨4, 11, (Root.filled 11).bytes⟩],
        some ⟨none, some 5, some 11⟩⟩⟩]⟩, ⟨some (.filled 0)⟩, .full⟩) := by
  decide +kernel

/-- The second attestation is refused while the first is stored, and approved once it is pruned. -/
theorem pruning_frees_surrounding_vote :
    ¬ ((fresh.run [.importText voteText]).Refuses
        (.sign 1 (.filled 0) (.attestation ⟨⟨4⟩, ⟨11⟩, .filled 11⟩)) →
      ((fresh.run [.importText voteText]).call (.pruning 1 (some 1))).2.Refuses
        (.sign 1 (.filled 0) (.attestation ⟨⟨4⟩, ⟨11⟩, .filled 11⟩))) := by
  intro keeps
  have surrounds : ((fresh.run [.importText voteText]).call
      (.sign 1 (.filled 0) (.attestation ⟨⟨4⟩, ⟨11⟩, .filled 11⟩))).1 =
      .ok (.verdict (.refused .surrounds)) := by
    rw [run_cons, call_voteText]
    decide +kernel
  obtain ⟨why, refused⟩ := keeps ⟨.surrounds, surrounds⟩
  have approved : (((fresh.run [.importText voteText]).call (.pruning 1 (some 1))).2.call
      (.sign 1 (.filled 0) (.attestation ⟨⟨4⟩, ⟨11⟩, .filled 11⟩))).1 =
      .ok (.verdict (.allowed .sameData)) := by
    rw [run_cons, call_voteText]
    decide +kernel
  rw [approved] at refused
  cases refused

end Engine

end SlashGuard
