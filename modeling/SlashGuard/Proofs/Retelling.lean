import SlashGuard.Proofs.ImportRules

/-! What entries tell is which records of which keys, and a ledger that takes them up depends on
that alone: entries that are permuted, repeated or split lead to the same histories, and what a
ledger knows already leaves it as it was. -/
namespace SlashGuard

namespace Import

def Names (hs : List KeyHistory) (key : PublicKey) : Prop := ∃ h ∈ hs, h.key = key

def Reports (hs : List KeyHistory) (key : PublicKey) (r : Record) : Prop :=
  ∃ h ∈ hs, h.key = key ∧ r ∈ recordsOf h

structure Agree (hs hs' : List KeyHistory) : Prop where
  keys : ∀ key, Names hs key ↔ Names hs' key
  records : ∀ key r, Reports hs key r ↔ Reports hs' key r

/-- Entries in another order, with their records in another order, repeated or split. -/
inductive Rearranged : List KeyHistory → List KeyHistory → Prop
  | entries {hs hs' : List KeyHistory} (perm : hs.Perm hs') : Rearranged hs hs'
  | records {key : PublicKey} {bs bs' : List Block} {vs vs' : List Attestation}
      (blocks : bs.Perm bs') (votes : vs.Perm vs') (hs : List KeyHistory) :
      Rearranged (⟨key, bs, vs⟩ :: hs) (⟨key, bs', vs'⟩ :: hs)
  | repeatEntry (h : KeyHistory) (hs : List KeyHistory) : Rearranged (h :: hs) (h :: h :: hs)
  | repeatBlock (key : PublicKey) (b : Block) (bs : List Block) (vs : List Attestation)
      (hs : List KeyHistory) : Rearranged (⟨key, b :: bs, vs⟩ :: hs) (⟨key, b :: b :: bs, vs⟩ :: hs)
  | repeatVote (key : PublicKey) (bs : List Block) (a : Attestation) (vs : List Attestation)
      (hs : List KeyHistory) : Rearranged (⟨key, bs, a :: vs⟩ :: hs) (⟨key, bs, a :: a :: vs⟩ :: hs)
  | split (key : PublicKey) (bs bs' : List Block) (vs vs' : List Attestation)
      (hs : List KeyHistory) :
      Rearranged (⟨key, bs ++ bs', vs ++ vs'⟩ :: hs) (⟨key, bs, vs⟩ :: ⟨key, bs', vs'⟩ :: hs)
  | symm {hs hs' : List KeyHistory} (other : Rearranged hs hs') : Rearranged hs' hs
  | trans {hs hs' hs'' : List KeyHistory} (first : Rearranged hs hs')
      (second : Rearranged hs' hs'') : Rearranged hs hs''

variable {hs hs' : List KeyHistory} {key : PublicKey} {r : Record}

theorem Agree.append {gs gs' : List KeyHistory} (agree : Agree gs gs') (hs : List KeyHistory) :
    Agree (gs ++ hs) (gs' ++ hs) := by
  constructor
  · intro key
    have own := agree.keys key
    simp only [Names, List.mem_append, or_and_right, exists_or] at own ⊢
    rw [own]
  · intro key r
    have own := agree.records key r
    simp only [Reports, List.mem_append, or_and_right, exists_or] at own ⊢
    rw [own]

theorem Rearranged.agree (rearranged : Rearranged hs hs') : Agree hs hs' := by
  -- Only the first entries differ in a step; `append` carries the others along.
  induction rearranged with
  | entries perm => exact ⟨fun _ => by simp [Names, perm.mem_iff],
      fun _ _ => by simp [Reports, perm.mem_iff]⟩
  | @records key bs bs' vs vs' blocks votes hs =>
    have one : Agree [⟨key, bs, vs⟩] [⟨key, bs', vs'⟩] :=
      ⟨fun _ => by simp [Names],
        fun _ _ => by simp [Reports, recordsOf, blocks.mem_iff, votes.mem_iff]⟩
    exact one.append hs
  | repeatEntry h hs =>
    have one : Agree [h] [h, h] := ⟨fun _ => by simp [Names], fun _ _ => by simp [Reports]⟩
    exact one.append hs
  | repeatBlock key b bs vs hs =>
    have one : Agree [⟨key, b :: bs, vs⟩] [⟨key, b :: b :: bs, vs⟩] :=
      ⟨fun _ => by simp [Names], fun _ _ => by simp [Reports, recordsOf]⟩
    exact one.append hs
  | repeatVote key bs a vs hs =>
    have one : Agree [⟨key, bs, a :: vs⟩] [⟨key, bs, a :: a :: vs⟩] :=
      ⟨fun _ => by simp [Names], fun _ _ => by simp [Reports, recordsOf]⟩
    exact one.append hs
  | split key bs bs' vs vs' hs =>
    have one : Agree [⟨key, bs ++ bs', vs ++ vs'⟩] [⟨key, bs, vs⟩, ⟨key, bs', vs'⟩] := by
      refine ⟨fun _ => by simp [Names], fun key' r => ?_⟩
      cases r with
      | block b => simp [Reports, recordsOf, and_or_left]
      | attestation a => simp [Reports, recordsOf, and_or_left]
    exact one.append hs
  | symm _ ih => exact ⟨fun key => (ih.keys key).symm, fun key r => (ih.records key r).symm⟩
  | trans _ _ ih ih' =>
    exact ⟨fun key => (ih.keys key).trans (ih'.keys key),
      fun key r => (ih.records key r).trans (ih'.records key r)⟩

theorem good_iff_records {h : KeyHistory} :
    h.Good ↔ ∀ r ∈ recordsOf h, r.Fits ∧ ¬ r.Inverted := by
  constructor
  · rintro good (b | a) listed
    · exact ⟨good.blocks b (block_mem_recordsOf.mp listed), id⟩
    · obtain ⟨fits, range⟩ := good.votes a (attestation_mem_recordsOf.mp listed)
      exact ⟨fits, UInt64.not_lt.mpr range⟩
  · intro good
    constructor
    · intro b hb
      exact (good _ (block_mem_recordsOf.mpr hb)).1
    · intro a ha
      obtain ⟨fits, range⟩ := good _ (attestation_mem_recordsOf.mpr ha)
      exact ⟨fits, UInt64.not_lt.mp range⟩

theorem all_good_iff :
    (∀ h ∈ hs, h.Good) ↔ ∀ key r, Reports hs key r → r.Fits ∧ ¬ r.Inverted := by
  constructor
  · rintro good key r ⟨h, member, -, listed⟩
    exact good_iff_records.mp (good h member) r listed
  · intro good h member
    exact good_iff_records.mpr fun r listed => good h.key r ⟨h, member, rfl, listed⟩

theorem Agree.good (agree : Agree hs hs') (good : ∀ h ∈ hs, h.Good) : ∀ h ∈ hs', h.Good := by
  rw [all_good_iff] at good ⊢
  exact fun key r reported => good key r ((agree.records key r).mpr reported)

theorem mem_blocksFor_iff {b : Block} :
    b ∈ Ledger.blocksFor key hs ↔ Reports hs key (.block b) := by
  simp [Ledger.mem_blocksFor, Reports, block_mem_recordsOf]

theorem mem_votesFor_iff {a : Attestation} :
    a ∈ Ledger.votesFor key hs ↔ Reports hs key (.attestation a) := by
  simp [Ledger.mem_votesFor, Reports, attestation_mem_recordsOf]

theorem Agree.block_rows (agree : Agree hs hs') (key : PublicKey) (x : BlockRow) :
    x ∈ (Ledger.blocksFor key hs).map Block.row ↔
      x ∈ (Ledger.blocksFor key hs').map Block.row := by
  simp only [List.mem_map, mem_blocksFor_iff, agree.records]

theorem Agree.vote_rows (agree : Agree hs hs') (key : PublicKey) (x : AttestationRow) :
    x ∈ (Ledger.votesFor key hs).map Attestation.row ↔
      x ∈ (Ledger.votesFor key hs').map Attestation.row := by
  simp only [List.mem_map, mem_votesFor_iff, agree.records]

end Import

namespace Ledger

variable {l : Ledger}

/-- Ledgers that differ at most in ids and in the order of registration. -/
structure Alike (l l' : Ledger) : Prop where
  version : l'.version = l.version
  network : l'.network = l.network
  keys : ∀ key, (l'.idOf key).isSome = (l.idOf key).isSome
  histories : ∀ key, l'.historyOf key = l.historyOf key

theorem absorbAll_alike (arranged : l.Arranged) {hs hs' : List KeyHistory}
    (agree : Import.Agree hs hs') : (l.absorbAll hs).Alike (l.absorbAll hs') where
  version := by rw [version_absorbAll, version_absorbAll]
  network := by rw [network_absorbAll, network_absorbAll]
  keys := by
    intro key
    rw [Bool.eq_iff_iff, isSome_idOf_absorbAll, isSome_idOf_absorbAll]
    exact or_congr_right (agree.keys key).symm
  histories := by
    intro key
    rw [historyOf_absorbAll arranged, historyOf_absorbAll arranged]
    exact ((arranged.historyOf key).join_congr (agree.block_rows key) (agree.vote_rows key)).symm

/-- A ledger has registered the key of an entry, and nothing in the entry is news. -/
structure Knows (l : Ledger) (h : KeyHistory) : Prop where
  registered : l.idOf h.key ≠ none
  same : (l.historyOf h.key).join (h.blocks.map Block.row) (h.attestations.map Attestation.row) =
    l.historyOf h.key

theorem knows_absorbAll (arranged : l.Arranged) {hs : List KeyHistory} {h : KeyHistory}
    (member : h ∈ hs) : (l.absorbAll hs).Knows h where
  registered := by
    rw [← Option.isSome_iff_ne_none, isSome_idOf_absorbAll]
    exact .inr ⟨h, member, rfl⟩
  same := by
    rw [historyOf_absorbAll arranged, History.join_join]
    refine (arranged.historyOf h.key).join_congr ?_ ?_
    · intro x
      rw [List.mem_append, or_iff_left_iff_imp]
      intro own
      obtain ⟨b, hb, rfl⟩ := List.mem_map.mp own
      exact List.mem_map_of_mem (mem_blocksFor.mpr ⟨h, member, rfl, hb⟩)
    · intro x
      rw [List.mem_append, or_iff_left_iff_imp]
      intro own
      obtain ⟨a, ha, rfl⟩ := List.mem_map.mp own
      exact List.mem_map_of_mem (mem_votesFor.mpr ⟨h, member, rfl, ha⟩)

theorem absorb_of_knows (distinct : l.ids.Nodup) {h : KeyHistory} (knows : l.Knows h) :
    l.absorb h = { l with issued := l.issued + 1 } := by
  obtain ⟨id, known⟩ := Option.ne_none_iff_exists'.mp knows.registered
  rw [absorb, knows.same, enroll_known known, historyOf_eq known]
  exact put_history (l := { l with issued := l.issued + 1 }) distinct id

theorem Knows.absorb (distinct : l.ids.Nodup) {h g : KeyHistory} (other : l.Knows g)
    (knows : l.Knows h) : (l.absorb h).Knows g := by
  rw [absorb_of_knows distinct knows]
  exact ⟨other.registered, other.same⟩

theorem absorbAll_of_knows (distinct : l.ids.Nodup) {hs : List KeyHistory}
    (knows : ∀ h ∈ hs, l.Knows h) :
    l.absorbAll hs = { l with issued := l.issued + hs.length } := by
  induction hs generalizing l with
  | nil => simp [absorbAll]
  | cons h hs ih =>
    obtain ⟨first, rest⟩ := List.forall_mem_cons.mp knows
    have step := absorb_of_knows distinct first
    have later : ∀ g ∈ hs, (l.absorb h).Knows g := fun g hg => (rest g hg).absorb distinct first
    rw [absorbAll_cons, ih (by rw [step]; exact distinct) later, step]
    simp only [List.length_cons, Ledger.mk.injEq, true_and, and_true]
    omega

theorem Knows.blocks {h : KeyHistory} (knows : l.Knows h) :
    ∀ x ∈ h.blocks.map Block.row, x ∈ (l.historyOf h.key).blocks := by
  intro x hx
  rw [← knows.same, History.blocks_join]
  exact mem_insertAll.mpr (.inl hx)

theorem Knows.votes {h : KeyHistory} (knows : l.Knows h) :
    ∀ x ∈ h.attestations.map Attestation.row, x ∈ (l.historyOf h.key).attestations := by
  intro x hx
  rw [← knows.same, History.attestations_join]
  exact mem_insertAll.mpr (.inl hx)

end Ledger

namespace ImportSummary

theorem addHistories_of_knows {l : Ledger} (distinct : l.ids.Nodup) {hs : List KeyHistory}
    (knows : ∀ h ∈ hs, l.Knows h) (s : ImportSummary) : s.addHistories l hs = { s with
      validators := s.validators + hs.length
      blocksSkipped := s.blocksSkipped + (hs.flatMap KeyHistory.blocks).length
      attestationsSkipped :=
        s.attestationsSkipped + (hs.flatMap KeyHistory.attestations).length } := by
  induction hs generalizing l s with
  | nil => rfl
  | cons h hs ih =>
    obtain ⟨first, rest⟩ := List.forall_mem_cons.mp knows
    have step := Ledger.absorb_of_knows distinct first
    have later : ∀ g ∈ hs, (l.absorb h).Knows g := fun g hg => (rest g hg).absorb distinct first
    rw [addHistories, ih (by rw [step]; exact distinct) later]
    simp only [addHistory, blockTally, voteTally, Tally.all_of_known first.blocks,
      Tally.all_of_known first.votes, addBlocks, addVotes, List.length_map, List.flatMap_cons,
      List.length_append, List.length_cons, Nat.add_zero, ImportSummary.mk.injEq, true_and,
      and_true]
    omega

end ImportSummary

end SlashGuard
