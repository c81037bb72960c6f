import SlashGuard.Proofs.Runs

/-! Writes of a ledger. Whatever a call does to a ledger, be it in order or not, is a sequence of
writes: a key is registered, the network is stored, or a history is edited in one of a few ways.
Only pruning drops rows. -/
namespace SlashGuard

/-- An edit of a history. Rows are dropped only where `drops` says so. -/
inductive History.Edit (drops : Prop) (h : History) : History → Prop
  | addBlock (b : BlockRow) : Edit drops h (h.addBlock b)
  | addAttestation (a : AttestationRow) : Edit drops h (h.addAttestation a)
  | initSlot (slot : Int) : Edit drops h (h.initSlot slot)
  | initEpochs (source target : Int) : Edit drops h (h.initEpochs source target)
  | raiseSlot (slot : Int) : Edit drops h (h.raiseSlot slot)
  | raiseEpochs (source target : Int) : Edit drops h (h.raiseEpochs source target)
  | dropBlocks (may : drops) (slot : Int) : Edit drops h (h.dropBlocks slot)
  | dropAttestations (may : drops) (target : Int) : Edit drops h (h.dropAttestations target)

theorem History.Edit.stores {drops : Prop} {h h' : History} (edit : h.Edit drops h')
    (never : ¬ drops) {r : Record} (stored : h.Stores r) : h'.Stores r := by
  cases edit with
  | addBlock b =>
    rw [addBlock_eq]
    cases r with
    | block c => exact mem_insertNew.mpr (.inr stored)
    | attestation a => exact stored
  | addAttestation a =>
    rw [addAttestation_eq]
    cases r with
    | block b => exact stored
    | attestation c => exact mem_insertNew.mpr (.inr stored)
  | initSlot slot => cases r <;> exact stored
  | initEpochs source target => cases r <;> exact stored
  | raiseSlot slot => cases r <;> exact stored
  | raiseEpochs source target => cases r <;> exact stored
  | dropBlocks may slot => exact False.elim (never may)
  | dropAttestations may target => exact False.elim (never may)

namespace Ledger

inductive Write (drops : Prop) (l : Ledger) : Ledger → Prop
  | enroll (key : PublicKey) : Write drops l (l.enroll key).2
  | adopt (r : Root) : Write drops l (l.adopt r)
  | amend (id : Int) (f : History → History) (edit : ∀ h : History, h.Edit drops (f h)) :
      Write drops l (l.amend id f)

abbrev Writes (drops : Prop) : Ledger → Ledger → Prop := Relation.ReflTransGen (Write drops)

theorem history_amend (l : Ledger) (id : Int) (f : History → History) (id' : Int) :
    (l.amend id f).history id' = l.history id' ∨
      (l.amend id f).history id' = f (l.history id') := by
  simp only [history]
  rw [find_amend _ _ _ _ (fun _ => rfl)]
  cases l.accounts.find? (fun a => a.id = id') with
  | none => exact .inl rfl
  | some a =>
    simp only [Option.map_some, Option.getD_some]
    split
    · exact .inr rfl
    · exact .inl rfl

variable {drops : Prop} {l l' : Ledger} {id : Int}

theorem Write.edits (write : Write drops l l') (id : Int) :
    l'.history id = l.history id ∨ (l.history id).Edit drops (l'.history id) := by
  cases write with
  | enroll key => exact .inl (history_enroll l key id)
  | adopt r => exact .inl (history_adopt l r id)
  | amend who f edit =>
    rcases history_amend l who f id with same | edited
    · exact .inl same
    · rw [edited]
      exact .inr (edit _)

theorem Writes.stores (writes : Writes drops l l') (never : ¬ drops) {r : Record}
    (stored : (l.history id).Stores r) : (l'.history id).Stores r := by
  induction writes with
  | refl => exact stored
  | tail _ write ih =>
    rcases write.edits id with same | edit
    · rwa [same]
    · exact edit.stores never ih

theorem write_writes {f : History → History} (edit : ∀ h : History, h.Edit drops (f h))
    (wrote : l.write id f = .ok l') : Writes drops l l' := by
  unfold write at wrote
  split at wrote
  · cases wrote
    exact .single (.amend id f edit)
  · contradiction

theorem addBlock_writes {b : Block} {new : Bool} (added : l.addBlock id b = .ok (new, l')) :
    Writes drops l l' := by
  obtain ⟨row, -, added⟩ := bind_eq_ok.mp added
  obtain ⟨l1, wrote, same⟩ := bind_eq_ok.mp added
  cases same
  exact write_writes (fun h => .addBlock row) wrote

theorem addAttestation_writes {a : Attestation} {new : Bool}
    (added : l.addAttestation id a = .ok (new, l')) : Writes drops l l' := by
  obtain ⟨row, -, added⟩ := bind_eq_ok.mp added
  obtain ⟨l1, wrote, same⟩ := bind_eq_ok.mp added
  cases same
  exact write_writes (fun h => .addAttestation row) wrote

theorem initSlot_writes {slot : Slot} (set : l.initSlot id slot = .ok l') :
    Writes drops l l' := by
  obtain ⟨v, -, wrote⟩ := bind_eq_ok.mp set
  exact write_writes (fun h => .initSlot v) wrote

theorem initEpochs_writes {source target : Epoch} (set : l.initEpochs id source target = .ok l') :
    Writes drops l l' := by
  obtain ⟨s, -, set⟩ := bind_eq_ok.mp set
  obtain ⟨t, -, wrote⟩ := bind_eq_ok.mp set
  exact write_writes (fun h => .initEpochs s t) wrote

theorem raiseSlot_writes {slot : Slot} (raised : l.raiseSlot id slot = .ok l') :
    Writes drops l l' := by
  obtain ⟨v, -, wrote⟩ := bind_eq_ok.mp raised
  exact write_writes (fun h => .raiseSlot v) wrote

theorem raiseEpochs_writes {source target : Epoch}
    (raised : l.raiseEpochs id source target = .ok l') : Writes drops l l' := by
  obtain ⟨s, -, raised⟩ := bind_eq_ok.mp raised
  obtain ⟨t, -, wrote⟩ := bind_eq_ok.mp raised
  exact write_writes (fun h => .raiseEpochs s t) wrote

theorem dropBlocks_writes (may : drops) {slot : Slot} {n : Nat}
    (dropped : l.dropBlocks id slot = .ok (n, l')) : Writes drops l l' := by
  obtain ⟨v, -, same⟩ := bind_eq_ok.mp dropped
  cases same
  exact .single (.amend id _ fun h => .dropBlocks may v)

theorem dropAttestations_writes (may : drops) {target : Epoch} {n : Nat}
    (dropped : l.dropAttestations id target = .ok (n, l')) : Writes drops l l' := by
  obtain ⟨v, -, same⟩ := bind_eq_ok.mp dropped
  cases same
  exact .single (.amend id _ fun h => .dropAttestations may v)

theorem enrollAll_writes (keys : List PublicKey) (l : Ledger) :
    Writes drops l (l.enrollAll keys).2 := by
  induction keys generalizing l with
  | nil => exact .refl
  | cons key keys ih => exact .head (.enroll key) (ih (l.enroll key).2)

theorem accept_writes {g : Guard} {r : Root} (accepted : g.accept l r = .ok l') :
    Writes drops l l' := by
  unfold Guard.accept at accepted
  split at accepted
  · obtain ⟨u, -, same⟩ := bind_eq_ok.mp accepted
    cases same
    exact .refl
  · obtain ⟨known, -, accepted⟩ := bind_eq_ok.mp accepted
    cases known with
    | none =>
      cases accepted
      exact .single (.adopt r)
    | some stored =>
      obtain ⟨u, -, same⟩ := bind_eq_ok.mp accepted
      cases same
      exact .refl

end Ledger

open Ledger

variable {drops : Prop} {l l' : Ledger} {id : Int}

namespace Signing

variable {v : Verdict}

theorem writes_of_asked {α : Type} {x : Except Failure α} {found : α → Prop}
    [DecidablePred found] {answer : Verdict} {next : α → Except Failure (Verdict × Ledger)}
    (asked : (x >>= fun a => if found a then pure (answer, l) else next a) = .ok (v, l'))
    (rest : ∀ a, next a = .ok (v, l') → Writes drops l l') : Writes drops l l' := by
  obtain ⟨a, -, asked⟩ := bind_eq_ok.mp asked
  split at asked
  · cases asked
    exact .refl
  · exact rest a asked

theorem checkBlock_writes {b : Block} (checked : checkBlock l id b = .ok (v, l')) :
    Writes drops l l' := by
  obtain ⟨u, -, checked⟩ := bind_eq_ok.mp checked
  refine writes_of_asked checked fun clash checked => ?_
  refine writes_of_asked checked fun stored checked => ?_
  refine writes_of_asked checked fun mark checked => ?_
  obtain ⟨⟨new, l1⟩, added, checked⟩ := bind_eq_ok.mp checked
  obtain ⟨l2, set, same⟩ := bind_eq_ok.mp checked
  cases same
  exact (addBlock_writes added).trans (initSlot_writes set)

theorem checkAttestation_writes {a : Attestation}
    (checked : checkAttestation l id a = .ok (v, l')) : Writes drops l l' := by
  unfold checkAttestation at checked
  split at checked
  · cases checked
    exact .refl
  · obtain ⟨u, -, checked⟩ := bind_eq_ok.mp checked
    refine writes_of_asked checked fun double checked => ?_
    refine writes_of_asked checked fun outer checked => ?_
    refine writes_of_asked checked fun inner checked => ?_
    refine writes_of_asked checked fun stored checked => ?_
    refine writes_of_asked checked fun mark checked => ?_
    obtain ⟨⟨new, l1⟩, added, checked⟩ := bind_eq_ok.mp checked
    obtain ⟨l2, set, same⟩ := bind_eq_ok.mp checked
    cases same
    exact (addAttestation_writes added).trans (initEpochs_writes set)

end Signing

namespace Pruning

variable {keep : Nat}

theorem pruneBlocks_writes (may : drops) {slot : Option Slot} {n : Nat}
    (pruned : pruneBlocks l keep id slot = .ok (n, l')) : Writes drops l l' := by
  cases slot with
  | none =>
    cases pruned
    exact .refl
  | some low =>
    obtain ⟨found, -, pruned⟩ := bind_eq_ok.mp pruned
    cases found with
    | none =>
      cases pruned
      exact .refl
    | some mark =>
      obtain ⟨l1, raised, dropped⟩ := bind_eq_ok.mp pruned
      exact (raiseSlot_writes raised).trans (dropBlocks_writes may dropped)

theorem pruneAttestations_writes (may : drops) {source target : Option Epoch} {n : Nat}
    (pruned : pruneAttestations l keep id source target = .ok (n, l')) : Writes drops l l' := by
  unfold pruneAttestations at pruned
  split at pruned
  · obtain ⟨found, -, pruned⟩ := bind_eq_ok.mp pruned
    cases found with
    | none =>
      cases pruned
      exact .refl
    | some mark =>
      obtain ⟨l1, raised, dropped⟩ := bind_eq_ok.mp pruned
      exact (raiseEpochs_writes raised).trans (dropAttestations_writes may dropped)
  · cases pruned
    exact .refl

theorem prune_writes (may : drops) {o : PruneOutcome}
    (pruned : prune l keep id = .ok (o, l')) : Writes drops l l' := by
  unfold prune at pruned
  split at pruned
  · contradiction
  · split at pruned
    · obtain ⟨mark, -, pruned⟩ := bind_eq_ok.mp pruned
      cases mark with
      | none =>
        cases pruned
        exact .refl
      | some mark =>
        obtain ⟨⟨n, l1⟩, blocks, pruned⟩ := bind_eq_ok.mp pruned
        obtain ⟨⟨m, l2⟩, votes, pruned⟩ := bind_eq_ok.mp pruned
        obtain ⟨w, -, same⟩ := bind_eq_ok.mp pruned
        cases same
        exact (pruneBlocks_writes may blocks).trans (pruneAttestations_writes may votes)
    · cases pruned
      exact .refl

theorem pruneNext_writes (may : drops) (keep : Nat) (id : Int) (s : PruneSummary) :
    Writes drops l (pruneNext keep (s, l) id).2 := by
  simp only [pruneNext]
  split
  · rename_i pruned
    exact prune_writes may pruned
  · exact .refl

theorem foldl_pruneNext_writes (may : drops) (keep : Nat) (ids : List Int) (s : PruneSummary) :
    Writes drops l (ids.foldl (pruneNext keep) (s, l)).2 := by
  induction ids generalizing s l with
  | nil => exact .refl
  | cons id ids ih =>
    have first : Writes drops l (pruneNext keep (s, l) id).2 := pruneNext_writes may keep id s
    exact first.trans (ih (pruneNext keep (s, l) id).1)

theorem pruneAll_writes (may : drops) {s : PruneSummary}
    (pruned : pruneAll l keep = .ok (s, l')) : Writes drops l l' := by
  unfold pruneAll at pruned
  split at pruned
  · contradiction
  · have writes : Writes drops l (l.ids.foldl (pruneNext keep) (.none, l)).2 :=
      foldl_pruneNext_writes may keep l.ids .none
    rwa [Except.ok.inj pruned] at writes

end Pruning

namespace Import

variable {s s' : ImportSummary}

theorem addBlock_writes {b : Block} (added : addBlock id s l b = .ok (s', l')) :
    Writes drops l l' := by
  obtain ⟨stored, -, added⟩ := bind_eq_ok.mp added
  split at added
  · cases added
    exact .refl
  · obtain ⟨clash, -, added⟩ := bind_eq_ok.mp added
    obtain ⟨⟨new, l1⟩, wrote, same⟩ := bind_eq_ok.mp added
    cases same
    exact Ledger.addBlock_writes wrote

theorem addBlocks_writes {bs : List Block} (added : addBlocks id s l bs = .ok (s', l')) :
    Writes drops l l' := by
  induction bs generalizing s l with
  | nil =>
    cases added
    exact .refl
  | cons b bs ih =>
    obtain ⟨⟨s1, l1⟩, first, rest⟩ := bind_eq_ok.mp added
    exact (addBlock_writes first).trans (ih rest)

theorem addAttestation_writes {key : PublicKey} {index : Nat} {a : Attestation}
    (added : addAttestation key id index s l a = .ok (s', l')) : Writes drops l l' := by
  unfold addAttestation at added
  split at added
  · contradiction
  · obtain ⟨stored, -, added⟩ := bind_eq_ok.mp added
    split at added
    · cases added
      exact .refl
    · obtain ⟨clash, -, added⟩ := bind_eq_ok.mp added
      obtain ⟨⟨new, l1⟩, wrote, same⟩ := bind_eq_ok.mp added
      cases same
      exact Ledger.addAttestation_writes wrote

theorem addAttestations_writes {key : PublicKey} {index : Nat} {vs : List Attestation}
    (added : addAttestations key id index s l vs = .ok (s', l')) : Writes drops l l' := by
  induction vs generalizing index s l with
  | nil =>
    cases added
    exact .refl
  | cons a vs ih =>
    obtain ⟨⟨s1, l1⟩, first, rest⟩ := bind_eq_ok.mp added
    exact (addAttestation_writes first).trans (ih rest)

theorem raiseToTopSlot_writes (raised : raiseToTopSlot l id = .ok l') : Writes drops l l' := by
  unfold raiseToTopSlot at raised
  split at raised
  · exact raiseSlot_writes raised
  · cases raised
    exact .refl

theorem raiseToTopEpochs_writes (raised : raiseToTopEpochs l id = .ok l') :
    Writes drops l l' := by
  unfold raiseToTopEpochs at raised
  split at raised
  · exact raiseEpochs_writes raised
  · cases raised
    exact .refl

theorem addHistory_writes {h : KeyHistory} (added : addHistory s l h = .ok (s', l')) :
    Writes drops l l' := by
  rcases enrolled : l.enroll h.key with ⟨id, l0⟩
  simp only [addHistory, enrolled, ite_bind] at added
  obtain ⟨⟨s1, l1⟩, blocks, added⟩ := bind_eq_ok.mp added
  obtain ⟨l2, slot, added⟩ := bind_eq_ok.mp added
  obtain ⟨⟨s3, l3⟩, votes, added⟩ := bind_eq_ok.mp added
  obtain ⟨l4, epochs, same⟩ := bind_eq_ok.mp added
  cases same
  have enroll : Writes drops l l0 := by
    have write : Write drops l (l.enroll h.key).2 := .enroll h.key
    rw [enrolled] at write
    exact .single write
  have second : Writes drops l1 l2 := by
    split at slot
    · cases slot
      exact .refl
    · exact raiseToTopSlot_writes slot
  have fourth : Writes drops l3 l' := by
    split at epochs
    · cases epochs
      exact .refl
    · exact raiseToTopEpochs_writes epochs
  calc Writes drops l l0 := enroll
    Writes drops _ l1 := addBlocks_writes blocks
    Writes drops _ l2 := second
    Writes drops _ l3 := addAttestations_writes votes
    Writes drops _ l' := fourth

theorem addHistories_writes {hs : List KeyHistory}
    (added : addHistories s l hs = .ok (s', l')) : Writes drops l l' := by
  induction hs generalizing s l with
  | nil =>
    cases added
    exact .refl
  | cons h hs ih =>
    obtain ⟨⟨s1, l1⟩, first, rest⟩ := bind_eq_ok.mp added
    exact (addHistory_writes first).trans (ih rest)

theorem document_writes {g g' : Guard} {d : Document} (done : document g l d = .ok (s, g', l')) :
    Writes drops l l' := by
  unfold document at done
  simp only at done
  split at done
  · obtain ⟨u, -, same⟩ := bind_eq_ok.mp done
    cases same
    exact .refl
  · obtain ⟨l1, accepted, done⟩ := bind_eq_ok.mp done
    obtain ⟨⟨s1, l2⟩, added, same⟩ := bind_eq_ok.mp done
    cases same
    exact (accept_writes accepted).trans (addHistories_writes added)

end Import

inductive Call.Prunes : Call → Prop
  | one (keep : Nat) (id : Int) : Prunes (.prune keep id)
  | all (keep : Nat) : Prunes (.pruneAll keep)

namespace Engine

variable {e e' : Engine}

theorem writer_ok {writes : Ledger → Bool} (given : e.writer writes = .ok l) : l = e.ledger := by
  unfold writer at given
  split at given
  · exact (Except.ok.inj given).symm
  · split at given
    · contradiction
    · exact (Except.ok.inj given).symm
  · contradiction
  · contradiction

theorem register_writes {keys : List PublicKey} {ids : List Int}
    (done : e.register keys = .ok (ids, e')) : Writes drops e.ledger e'.ledger := by
  obtain ⟨l, given, same⟩ := bind_eq_ok.mp done
  cases writer_ok given
  cases same
  exact enrollAll_writes keys e.ledger

theorem maySignBlock_writes {b : Block} {network : Root} {v : Verdict}
    (done : e.maySignBlock id b network = .ok (v, e')) : Writes drops e.ledger e'.ledger := by
  obtain ⟨l, given, done⟩ := bind_eq_ok.mp done
  cases writer_ok given
  obtain ⟨⟨v1, l1⟩, checked, same⟩ := bind_eq_ok.mp done
  obtain ⟨l2, accepted, checked⟩ := bind_eq_ok.mp checked
  cases same
  exact (accept_writes accepted).trans (Signing.checkBlock_writes checked)

theorem maySignAttestation_writes {a : Attestation} {network : Root} {v : Verdict}
    (done : e.maySignAttestation id a network = .ok (v, e')) :
    Writes drops e.ledger e'.ledger := by
  unfold maySignAttestation at done
  split at done
  · cases done
    exact .refl
  · obtain ⟨l, given, done⟩ := bind_eq_ok.mp done
    cases writer_ok given
    obtain ⟨⟨v1, l1⟩, checked, same⟩ := bind_eq_ok.mp done
    obtain ⟨l2, accepted, checked⟩ := bind_eq_ok.mp checked
    cases same
    exact (accept_writes accepted).trans (Signing.checkAttestation_writes checked)

theorem prune_writes (may : drops) {keep : Nat} {o : PruneOutcome}
    (done : e.prune keep id = .ok (o, e')) : Writes drops e.ledger e'.ledger := by
  obtain ⟨l, given, done⟩ := bind_eq_ok.mp done
  cases writer_ok given
  obtain ⟨⟨o1, l1⟩, pruned, same⟩ := bind_eq_ok.mp done
  cases same
  exact Pruning.prune_writes may pruned

theorem pruneAll_writes (may : drops) {keep : Nat} {s : PruneSummary}
    (done : e.pruneAll keep = .ok (s, e')) : Writes drops e.ledger e'.ledger := by
  unfold pruneAll at done
  split at done
  · contradiction
  · obtain ⟨l, given, done⟩ := bind_eq_ok.mp done
    cases writer_ok given
    split at done
    · cases done
      exact .refl
    · obtain ⟨⟨s1, l1⟩, pruned, same⟩ := bind_eq_ok.mp done
      cases same
      exact Pruning.pruneAll_writes may pruned

theorem pinNetwork_writes {network : Root} (done : e.pinNetwork network = .ok e') :
    Writes drops e.ledger e'.ledger := by
  obtain ⟨l, given, done⟩ := bind_eq_ok.mp done
  cases writer_ok given
  obtain ⟨l1, accepted, same⟩ := bind_eq_ok.mp done
  cases same
  exact accept_writes accepted

theorem importDocument_writes {d : Document} {s : ImportSummary}
    (done : e.importDocument d = .ok (s, e')) : Writes drops e.ledger e'.ledger := by
  obtain ⟨l, given, done⟩ := bind_eq_ok.mp done
  cases writer_ok given
  obtain ⟨⟨s1, g, l1⟩, imported, same⟩ := bind_eq_ok.mp done
  cases same
  exact Import.document_writes imported

theorem importText_writes {t : Text.Utf8.Source} {s : ImportSummary}
    (done : e.importText t = .ok (s, e')) : Writes drops e.ledger e'.ledger := by
  unfold importText at done
  split at done
  · contradiction
  · exact importDocument_writes done

theorem done_of_answered {α : Type} {x : Except Failure (α × Engine)} {f : α → Answer}
    {a : Answer} (answered : (x.map fun (y, e) => (f y, e)) = .ok (a, e')) :
    ∃ y, x = .ok (y, e') := by
  obtain ⟨⟨y, e1⟩, done, same⟩ := map_eq_ok.mp answered
  cases same
  exact ⟨y, done⟩

theorem attempt_writes {c : Call} {a : Answer} (answered : e.attempt c = .ok (a, e')) :
    Writes c.Prunes e.ledger e'.ledger := by
  cases c with
  | register keys =>
    obtain ⟨ids, done⟩ := done_of_answered answered
    exact register_writes done
  | lookup key =>
    obtain ⟨found, -, same⟩ := map_eq_ok.mp answered
    cases same
    exact .refl
  | maySignBlock id b network =>
    obtain ⟨v, done⟩ := done_of_answered answered
    exact maySignBlock_writes done
  | maySignAttestation id a network =>
    obtain ⟨v, done⟩ := done_of_answered answered
    exact maySignAttestation_writes done
  | watermark id =>
    obtain ⟨mark, -, same⟩ := map_eq_ok.mp answered
    cases same
    exact .refl
  | prune keep id =>
    obtain ⟨o, done⟩ := done_of_answered answered
    exact prune_writes (.one keep id) done
  | pruneAll keep =>
    obtain ⟨s, done⟩ := done_of_answered answered
    exact pruneAll_writes (.all keep) done
  | importText s =>
    obtain ⟨s, done⟩ := done_of_answered answered
    exact importText_writes done
  | exportText =>
    obtain ⟨text, -, same⟩ := map_eq_ok.mp answered
    cases same
    exact .refl
  | pinNetwork network =>
    obtain ⟨e1, done, same⟩ := map_eq_ok.mp answered
    cases same
    exact pinNetwork_writes done

/-- Every call writes the ledger, and drops rows only if it prunes. -/
theorem call_writes (e : Engine) (c : Call) : Writes c.Prunes e.ledger (e.call c).2.ledger := by
  rcases call_cases e c with ⟨f, fails⟩ | ⟨a, e', attempted, called⟩
  · rw [fails]
  · rw [called]
    exact attempt_writes attempted

end Engine

end SlashGuard
