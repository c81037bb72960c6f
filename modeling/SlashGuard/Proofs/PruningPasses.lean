import SlashGuard.Proofs.PruningCalls

/-! Pruning all validators is pruning each. Prunes of several validators end alike in any order,
each as if it were made alone; one that fails leaves its history and no other. A pass makes one of
each registered validator and tells their answers in sum. -/
namespace SlashGuard

namespace Engine

variable {e e' : Engine} {keep : Nat}

def prunes (keep : Nat) (ids : List Int) : List Call := ids.map (.prune keep)

/-- Each validator of a list is pruned as if alone, and no other is changed. -/
structure PrunedEach (e e' : Engine) (keep : Nat) (ids : List Int) : Prop where
  framed : e.Framed e'
  each : ∀ id ∈ ids, e'.ledger.history id = (e.call (.prune keep id)).2.ledger.history id
  others : ∀ id, id ∉ ids → e'.ledger.history id = e.ledger.history id

theorem Usable.run_prunes (usable : e.Usable) (positive : 1 ≤ keep) {ids : List Int}
    (distinct : ids.Nodup) : e.PrunedEach (e.run (prunes keep ids)) keep ids ∧
      (e.transcript (prunes keep ids)).map Prod.snd =
        ids.map fun id => (e.call (.prune keep id)).1 := by
  induction ids generalizing e with
  | nil => exact ⟨⟨⟨rfl, rfl, .refl e.ledger⟩, nofun, fun _ _ => rfl⟩, rfl⟩
  | cons id ids ih =>
    obtain ⟨absent, rest⟩ := List.nodup_cons.mp distinct
    obtain ⟨framed, others⟩ := usable.framed_prune positive id
    have usable' := usable.of_framed framed
    obtain ⟨pruned, answers⟩ := ih usable' rest
    -- What is still to be pruned is stored as it was, so it is pruned as it would have been first.
    have alike (id' : Int) (later : id' ∈ ids) := usable.prune_alike usable' positive framed.access
      (others id' fun same => absent (same ▸ later))
    refine ⟨⟨framed.trans pruned.framed, ?_, ?_⟩, ?_⟩
    · intro id' listed
      rcases List.mem_cons.mp listed with rfl | later
      · exact pruned.others id' absent
      · exact (pruned.each id' later).trans (alike id' later).2
    · intro id' unlisted
      have later := List.not_mem_of_not_mem_cons unlisted
      exact (pruned.others id' later).trans (others id' (List.ne_of_not_mem_cons unlisted))
    · have each := List.map_congr_left fun id' later => (alike id' later).1
      exact congrArg (List.cons _) (answers.trans each)

end Engine

theorem Ledger.accounts_eq {l : Ledger} (distinct : l.ids.Nodup) :
    l.accounts = l.roster.map fun entry => ⟨entry.1, entry.2, l.history entry.1⟩ := by
  rw [Ledger.roster, List.map_map]
  refine (List.map_id _).symm.trans (List.map_congr_left fun a member => ?_)
  simp only [id_eq, Function.comp_apply, Ledger.history_of_mem distinct member]

theorem Ledger.Framed.eq_of_histories {l l' : Ledger} (framed : l.Framed l')
    (distinct : l.ids.Nodup) (same : ∀ id, l'.history id = l.history id) : l' = l := by
  have distinct' : l'.ids.Nodup := by
    rw [framed.ids]
    exact distinct
  have accounts : l'.accounts = l.accounts := by
    rw [accounts_eq distinct, accounts_eq distinct', framed.roster]
    exact List.map_congr_left fun entry _ => by rw [same]
  obtain ⟨version, network, issued, -⟩ := framed
  cases l
  cases l'
  simp_all

theorem Ledger.history_of_not_mem {l : Ledger} {id : Int} (absent : id ∉ l.ids) :
    l.history id = .empty := by
  apply history_of_not_registered
  rw [Bool.eq_false_iff]
  exact mt isRegistered_iff_mem_ids.mp absent

namespace PruneSummary

def count (s : PruneSummary) : Except Failure Answer → PruneSummary
  | .ok (.outcome o) =>
    { s with
      pruned := s.pruned + 1, blocks := s.blocks + o.blocks,
      attestations := s.attestations + o.attestations }
  | _ => { s with failed := s.failed + 1 }

def tally (answers : List (Except Failure Answer)) : PruneSummary := answers.foldl count .none

theorem count_comm (s : PruneSummary) (x y : Except Failure Answer) :
    (s.count x).count y = (s.count y).count x := by
  unfold count
  split
  · split
    · simp only [PruneSummary.mk.injEq, true_and]
      omega
    · rfl
  · split <;> rfl

theorem tally_perm {xs ys : List (Except Failure Answer)} (perm : xs.Perm ys) :
    tally xs = tally ys :=
  perm.foldl_eq' (fun x _ y _ s => count_comm s x y) .none

end PruneSummary

namespace Engine

variable {e e' : Engine} {keep : Nat}

theorem Usable.run_perm (usable : e.Usable) (positive : 1 ≤ keep) {ids ids' : List Int}
    (perm : ids'.Perm ids) (distinct : ids.Nodup) :
    e.run (prunes keep ids') = e.run (prunes keep ids) := by
  obtain ⟨first, -⟩ := usable.run_prunes positive distinct
  obtain ⟨second, -⟩ := usable.run_prunes positive (perm.nodup_iff.mpr distinct)
  have same (id : Int) : (e.run (prunes keep ids')).ledger.history id =
      (e.run (prunes keep ids)).ledger.history id := by
    by_cases listed : id ∈ ids
    · rw [first.each id listed, second.each id (perm.mem_iff.mpr listed)]
    · rw [first.others id listed, second.others id (mt perm.mem_iff.mp listed)]
  have framed := first.framed.symm.trans second.framed
  exact framed.eq_of_ledger
    (framed.ledger.eq_of_histories (usable.of_framed first.framed).distinct same)

def passNext (access : Access) (keep : Nat) :
    PruneSummary × Ledger → Int → PruneSummary × Ledger :=
  if access = .reading then Pruning.surveyNext keep else Pruning.pruneNext keep

theorem Usable.passNext_eq (usable : e.Usable) (positive : 1 ≤ keep) (s : PruneSummary) (id : Int) :
    passNext e.access keep (s, e.ledger) id =
      (s.count (e.call (.prune keep id)).1, (e.call (.prune keep id)).2.ledger) := by
  rw [call, usable.attempt_eq positive]
  rcases usable.access with access | access
  · simp only [passNext, access, reduceCtorEq, if_false, decide_false, Bool.false_and,
      Bool.false_eq_true, Pruning.pruneNext]
    cases Pruning.prune e.ledger keep id <;> rfl
  · have asked := History.writes_eq_prunable e.ledger id
    simp only [passNext, access, if_true, decide_true, Bool.true_and, Pruning.surveyNext, asked]
    split
    · rfl
    · rw [Pruning.pruneNext]
      cases Pruning.prune e.ledger keep id <;> rfl

theorem Usable.foldl_passNext (usable : e.Usable) (positive : 1 ≤ keep) (ids : List Int)
    (s : PruneSummary) : ids.foldl (passNext e.access keep) (s, e.ledger) =
      (((e.transcript (prunes keep ids)).map Prod.snd).foldl PruneSummary.count s,
        (e.run (prunes keep ids)).ledger) := by
  induction ids generalizing e s with
  | nil => rfl
  | cons id ids ih =>
    obtain ⟨framed, -⟩ := usable.framed_prune positive id
    have rest := ih (usable.of_framed framed) (s.count (e.call (.prune keep id)).1)
    rw [framed.access] at rest
    rw [List.foldl_cons, usable.passNext_eq positive]
    exact rest

theorem Usable.call_prune_reading (usable : e.Usable) (positive : 1 ≤ keep)
    (reading : e.access = .reading) (id : Int) : (e.call (.prune keep id)).2 = e := by
  cases done : e.access.cut keep id (e.ledger.history id) with
  | error f => rw [usable.call_prune_error positive done]
  | ok x =>
    obtain ⟨o, h⟩ := x
    have idle : (e.ledger.history id).prunable = false := by
      unfold Access.cut at done
      split at done
      · cases done
      · rename_i free
        simpa [reading] using free
    have same := History.cut_of_not_prunable idle (cut_of_access done)
    rw [usable.call_prune_ok positive done, same, Ledger.put_history usable.distinct]

theorem Usable.run_prunes_reading (usable : e.Usable) (positive : 1 ≤ keep)
    (reading : e.access = .reading) (ids : List Int) : e.run (prunes keep ids) = e := by
  induction ids with
  | nil => rfl
  | cons id ids ih =>
    have first := usable.call_prune_reading positive reading id
    exact (congrArg (run · (prunes keep ids)) first).trans ih

/-- A pass makes a prune of each validator and tells their answers in sum. -/
theorem Usable.call_pruneAll (usable : e.Usable) (positive : 1 ≤ keep) :
    e.call (.pruneAll keep) =
      (.ok (.pruned (.tally ((e.transcript (prunes keep e.ledger.ids)).map Prod.snd))),
        e.run (prunes keep e.ledger.ids)) := by
  have nonzero : keep ≠ 0 := Nat.ne_of_gt positive
  have pass := usable.foldl_passNext positive e.ledger.ids .none
  rcases usable.access with access | access
  · have framed := (usable.run_prunes positive usable.distinct).1.framed
    have left : { e with ledger := (e.run (prunes keep e.ledger.ids)).ledger } =
        e.run (prunes keep e.ledger.ids) :=
      Framed.eq_of_ledger ⟨framed.guard.symm, framed.access.symm, .refl _⟩ rfl
    have writing : passNext e.access keep = Pruning.pruneNext keep := by
      simp [passNext, access]
    rw [writing] at pass
    simp only [call, attempt, pruneAll, if_neg nonzero, writer, access, ok_bind, Pruning.pruneAll,
      pass, reduceCtorEq, if_false, pure_ok, Except.map]
    rw [← access, left]
    rfl
  · have same := usable.run_prunes_reading positive access e.ledger.ids
    have surveying : passNext e.access keep = Pruning.surveyNext keep := by
      simp [passNext, access]
    rw [surveying] at pass
    simp only [call, attempt, pruneAll, if_neg nonzero, writer, access, Bool.false_eq_true,
      if_false, ok_bind, if_true, Pruning.surveyAll, pass, pure_ok, Except.map, same]
    rfl

end Engine

def Ledger.blockTotal (l : Ledger) : Nat :=
  l.ids.foldr (fun id n => (l.history id).blocks.length + n) 0

def Ledger.voteTotal (l : Ledger) : Nat :=
  l.ids.foldr (fun id n => (l.history id).attestations.length + n) 0

namespace Engine

variable {e e' : Engine} {keep : Nat}

/-- What a pass is to the prunes of each validator, and to what is stored. -/
structure PrunesEach (e e' : Engine) (keep : Nat) (s : PruneSummary) : Prop where
  order : ∀ ids, ids.Perm e.ledger.ids → e.run (prunes keep ids) = e' ∧
    s = .tally ((e.transcript (prunes keep ids)).map Prod.snd)
  alone : ∀ id, e'.ledger.history id = (e.call (.prune keep id)).2.ledger.history id
  failures : ∀ id f, (e.call (.prune keep id)).1 = .error f →
    e'.ledger.history id = e.ledger.history id
  failed : s.failed = e.ledger.ids.countP fun id => !(e.call (.prune keep id)).1.isOk
  pruned : s.pruned = e.ledger.ids.countP fun id => (e.call (.prune keep id)).1.isOk
  blocks : s.blocks + e'.ledger.blockTotal = e.ledger.blockTotal
  votes : s.attestations + e'.ledger.voteTotal = e.ledger.voteTotal
  framed : e.Framed e'

theorem Usable.alone (usable : e.Usable) (positive : 1 ≤ keep) (id : Int) :
    (e.run (prunes keep e.ledger.ids)).ledger.history id =
      (e.call (.prune keep id)).2.ledger.history id := by
  obtain ⟨pruned, -⟩ := usable.run_prunes positive usable.distinct
  by_cases listed : id ∈ e.ledger.ids
  · exact pruned.each id listed
  · -- An unknown validator has nothing stored, before and after.
    have single := (usable.framed_prune positive id).1
    rw [pruned.others id listed, Ledger.history_of_not_mem listed, Ledger.history_of_not_mem]
    rwa [single.ledger.ids]

def pruneAnswers (e : Engine) (keep : Nat) (ids : List Int) : List (Except Failure Answer) :=
  ids.map fun id => (e.call (.prune keep id)).1

theorem Usable.count_prune (usable : e.Usable) (positive : 1 ≤ keep) (id : Int)
    (s : PruneSummary) :
    (s.count (e.call (.prune keep id)).1).failed =
        s.failed + (if !(e.call (.prune keep id)).1.isOk then 1 else 0) ∧
      (s.count (e.call (.prune keep id)).1).pruned =
        s.pruned + (if (e.call (.prune keep id)).1.isOk then 1 else 0) ∧
      (s.count (e.call (.prune keep id)).1).blocks +
          ((e.call (.prune keep id)).2.ledger.history id).blocks.length =
        s.blocks + (e.ledger.history id).blocks.length ∧
      (s.count (e.call (.prune keep id)).1).attestations +
          ((e.call (.prune keep id)).2.ledger.history id).attestations.length =
        s.attestations + (e.ledger.history id).attestations.length := by
  rcases usable.call_prune_cases positive id with ⟨f, failed⟩ | ⟨o, h, done, self, blocks, votes⟩
  · rw [failed]
    exact ⟨rfl, rfl, rfl, rfl⟩
  · rw [done]
    refine ⟨rfl, rfl, ?_, ?_⟩
    · simp only [PruneSummary.count, self]
      omega
    · simp only [PruneSummary.count, self]
      omega

/-- The sum over a pass counts who fails and who does not, and what it says is deleted makes up for
what is left. -/
theorem Usable.foldl_count (usable : e.Usable) (positive : 1 ≤ keep) {ids : List Int}
    (s : PruneSummary)
    (alone : ∀ id ∈ ids, e'.ledger.history id = (e.call (.prune keep id)).2.ledger.history id) :
    ((e.pruneAnswers keep ids).foldl PruneSummary.count s).failed =
        s.failed + ids.countP (fun id => !(e.call (.prune keep id)).1.isOk) ∧
      ((e.pruneAnswers keep ids).foldl PruneSummary.count s).pruned =
        s.pruned + ids.countP (fun id => (e.call (.prune keep id)).1.isOk) ∧
      ((e.pruneAnswers keep ids).foldl PruneSummary.count s).blocks +
          ids.foldr (fun id n => (e'.ledger.history id).blocks.length + n) 0 =
        s.blocks + ids.foldr (fun id n => (e.ledger.history id).blocks.length + n) 0 ∧
      ((e.pruneAnswers keep ids).foldl PruneSummary.count s).attestations +
          ids.foldr (fun id n => (e'.ledger.history id).attestations.length + n) 0 =
        s.attestations +
          ids.foldr (fun id n => (e.ledger.history id).attestations.length + n) 0 := by
  induction ids generalizing s with
  | nil => exact ⟨rfl, rfl, rfl, rfl⟩
  | cons id ids ih =>
    obtain ⟨failed, pruned, blocks, votes⟩ := usable.count_prune positive id s
    obtain ⟨failed', pruned', blocks', votes'⟩ := ih (s.count (e.call (.prune keep id)).1)
      fun id' later => alone id' (List.mem_cons_of_mem id later)
    rw [← alone id List.mem_cons_self] at blocks votes
    simp only [pruneAnswers, List.map_cons, List.foldl_cons, List.countP_cons, List.foldr_cons]
      at failed' pruned' blocks' votes' ⊢
    omega

theorem Usable.prunesEach (usable : e.Usable) (positive : 1 ≤ keep) :
    e.PrunesEach (e.run (prunes keep e.ledger.ids)) keep
      (.tally ((e.transcript (prunes keep e.ledger.ids)).map Prod.snd)) := by
  obtain ⟨pruned, answers⟩ := usable.run_prunes positive usable.distinct
  obtain ⟨failures, successes, blocks, votes⟩ :=
    usable.foldl_count positive .none fun id _ => usable.alone positive id
  simp only [PruneSummary.none, Nat.zero_add] at failures successes blocks votes
  rw [answers]
  constructor
  · intro ids perm
    obtain ⟨-, answers'⟩ := usable.run_prunes positive (perm.nodup_iff.mpr usable.distinct)
    rw [answers']
    exact ⟨usable.run_perm positive perm usable.distinct,
      PruneSummary.tally_perm (perm.symm.map _)⟩
  · exact usable.alone positive
  · intro id f failed
    rw [usable.alone positive, call_error_unchanged failed]
  · exact failures
  · exact successes
  · rw [Ledger.blockTotal, pruned.framed.ledger.ids]
    exact blocks
  · rw [Ledger.voteTotal, pruned.framed.ledger.ids]
    exact votes
  · exact pruned.framed

theorem Reached.usable (reached : e.Reached) : e.Usable :=
  ⟨.inl reached.kept.access, reached.kept.ledger.distinct⟩

/-- A pass ends as the prunes of all registered validators do, made in any order or each alone, and
its sums are theirs. On a store that calls lead to it succeeds for every validator; on any other
the validators whose prune fails are counted as failed and left as they are. -/
theorem pruneAll_prunes_each :
    (∀ (e : Engine) (keep : Nat), e.Reached → (∀ id, (e.ledger.history id).Countable) →
      1 ≤ keep → ∃ s e', e.call (.pruneAll keep) = (.ok (.pruned s), e') ∧
        e.PrunesEach e' keep s ∧ s.failed = 0 ∧ s.pruned = e.ledger.ids.length) ∧
    ∀ (e : Engine) (keep : Nat), e.Usable → 1 ≤ keep →
      ∃ s e', e.call (.pruneAll keep) = (.ok (.pruned s), e') ∧ e.PrunesEach e' keep s := by
  constructor
  · intro e keep reached countable positive
    have each := reached.usable.prunesEach positive
    have succeeds (id : Int) : (e.call (.prune keep id)).1.isOk = true := by
      rw [reached.call_prune (countable id) positive]
      rfl
    refine ⟨_, _, reached.usable.call_pruneAll positive, each, ?_, ?_⟩
    · rw [each.failed, List.countP_eq_zero]
      intro id _
      simp [succeeds id]
    · rw [each.pruned, List.countP_eq_length]
      exact fun id _ => succeeds id
  · intro e keep usable positive
    exact ⟨_, _, usable.call_pruneAll positive, usable.prunesEach positive⟩

def spoiltEngine : Engine := unpinned ⟨some 1, none, 2,
  [⟨1, [1], [⟨3, []⟩, ⟨5, []⟩], [], some ⟨some 3, none, none⟩⟩,
    ⟨2, [2], [⟨-4, []⟩, ⟨-3, []⟩], [], some ⟨some 3, none, none⟩⟩]⟩

theorem pruneAll_prunes_each_spoilt :
    (∃ s, ((fresh.run (prunedRun.take 5)).call (.pruneAll 1)).1 = .ok (.pruned s) ∧
        s.failed = 0 ∧ s.pruned = 1) ∧
      (spoiltEngine.call (.pruneAll 1)).1 = .ok (.pruned ⟨1, 1, 1, 0⟩) ∧
      (spoiltEngine.call (.pruneAll 1)).2.ledger.history 2 = spoiltEngine.ledger.history 2 ∧
      (spoiltEngine.call (.pruneAll 1)).2.ledger.history 1 =
        (spoiltEngine.call (.prune 1 1)).2.ledger.history 1 := by
  have usable : spoiltEngine.Usable := ⟨.inl rfl, by decide⟩
  have reached := reached_run .fresh (prunedRun.take 5)
  have countable (id : Int) : ((fresh.run (prunedRun.take 5)).ledger.history id).Countable := by
    by_cases listed : id ∈ (fresh.run (prunedRun.take 5)).ledger.ids
    · have ids : (fresh.run (prunedRun.take 5)).ledger.ids = [1] := by decide +kernel
      rw [ids, List.mem_singleton] at listed
      rw [listed]
      decide +kernel
    · rw [Ledger.history_of_not_mem listed]
      decide
  obtain ⟨s, e', called, -, failed, pruned⟩ :=
    pruneAll_prunes_each.1 (fresh.run (prunedRun.take 5)) 1 reached countable (by decide)
  obtain ⟨s', e'', called', each⟩ := pruneAll_prunes_each.2 spoiltEngine 1 usable (by decide)
  have answer : (spoiltEngine.call (.pruneAll 1)).1 = .ok (.pruned ⟨1, 1, 1, 0⟩) := by
    decide +kernel
  refine ⟨⟨s, congrArg Prod.fst called, failed, pruned⟩, answer, ?_, ?_⟩
  · rw [called']
    exact each.failures 2 (.store (.negative (-3) 0)) (by decide +kernel)
  · rw [called']
    exact each.alone 1

end Engine

end SlashGuard
