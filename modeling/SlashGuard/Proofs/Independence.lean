import SlashGuard.Proofs.Locality

/-! Runs without some calls of other validators. The ledgers of both runs stay alike for a
validator: each call that is made in both reads what is alike or writes it alike, and a call that is
left out of one has its effect on another validator. -/
namespace SlashGuard

namespace Ledger.AlikeFor

variable {network : Root} {id id' : Int} {l l' : Ledger}

theorem put_alike (alike : AlikeFor network id l l') {h h' : History}
    (same : id' = id → h' = h) : AlikeFor network id (l.put id' h) (l'.put id' h') := by
  by_cases own : id' = id
  · rw [own, same own]
    exact alike.put h
  · have left : AlikeFor network id l (l.put id' h) := put_ne (Ne.symm own) l h
    exact left.symm.trans (alike.trans (put_ne (Ne.symm own) l' h'))

theorem enroll (alike : AlikeFor network id l l') (key : PublicKey) :
    (l'.enroll key).1 = (l.enroll key).1 ∧
      AlikeFor network id (l.enroll key).2 (l'.enroll key).2 := by
  have known : l'.idOf key = l.idOf key := by
    rw [idOf_eq_roster, idOf_eq_roster, alike.roster]
  have ids : (l'.enroll key).1 = (l.enroll key).1 ∧
      (l'.enroll key).2.roster = (l.enroll key).2.roster := by
    cases found : l.idOf key with
    | some id =>
      rw [enroll_known found, enroll_known (known.trans found)]
      exact ⟨rfl, alike.roster⟩
    | none =>
      rw [enroll_new found, enroll_new (known.trans found)]
      refine ⟨by rw [alike.issued], ?_⟩
      have rosters := alike.roster
      simp only [Ledger.roster] at rosters
      simp [Ledger.roster, rosters, alike.issued]
  refine ⟨ids.1, ids.2, ?_, ?_, ?_⟩
  · rw [issued_enroll, issued_enroll, alike.issued]
  · rw [networkFaults_congr (network_enroll l' key), networkFaults_congr (network_enroll l key),
      alike.objections]
  · rw [history_enroll, history_enroll, alike.history]

theorem enrollAll (alike : AlikeFor network id l l') (keys : List PublicKey) :
    (l'.enrollAll keys).1 = (l.enrollAll keys).1 ∧
      AlikeFor network id (l.enrollAll keys).2 (l'.enrollAll keys).2 := by
  induction keys generalizing l l' with
  | nil => exact ⟨rfl, alike⟩
  | cons key keys ih =>
    obtain ⟨first, between⟩ := alike.enroll key
    obtain ⟨rest, after⟩ := ih between
    exact ⟨by simp only [Ledger.enrollAll, first, rest], after⟩

theorem absorb (alike : AlikeFor network id l l') (arranged : l.Arranged) (arranged' : l'.Arranged)
    (h : KeyHistory) : AlikeFor network id (l.absorb h) (l'.absorb h) := by
  obtain ⟨same, enrolled⟩ := alike.enroll h.key
  have start := history_enrolled arranged.issued h.key
  have start' := history_enrolled arranged'.issued h.key
  rw [Ledger.absorb, Ledger.absorb, same]
  refine enrolled.put_alike fun own => ?_
  rw [own] at same start
  rw [same] at start'
  rw [← start, ← start', enrolled.history]

theorem absorbAll (alike : AlikeFor network id l l') (arranged : l.Arranged)
    (arranged' : l'.Arranged) (hs : List KeyHistory) :
    AlikeFor network id (l.absorbAll hs) (l'.absorbAll hs) := by
  induction hs generalizing l l' with
  | nil => exact alike
  | cons h hs ih =>
    exact ih (alike.absorb arranged arranged' h) (arranged.absorb h) (arranged'.absorb h)

theorem pruneNext (alike : AlikeFor network id l l') (kept : l.Kept) (kept' : l'.Kept) (keep : Nat)
    (s s' : PruneSummary) (id' : Int) : AlikeFor network id (Pruning.pruneNext keep (s, l) id').2
      (Pruning.pruneNext keep (s', l') id').2 := by
  rw [Pruning.pruneNext_ledger (kept.histories id').legible.ranged kept.distinct,
    Pruning.pruneNext_ledger (kept'.histories id').legible.ranged kept'.distinct]
  refine alike.put_alike fun own => ?_
  rw [own, alike.history]

theorem pruneAll (alike : AlikeFor network id l l') (kept : l.Kept) (kept' : l'.Kept) (keep : Nat)
    (ids : List Int) (s s' : PruneSummary) :
    AlikeFor network id (ids.foldl (Pruning.pruneNext keep) (s, l)).2
      (ids.foldl (Pruning.pruneNext keep) (s', l')).2 := by
  induction ids generalizing s s' l l' with
  | nil => exact alike
  | cons id' ids ih =>
    exact ih (alike.pruneNext kept kept' keep s s' id')
      ((Pruning.pruneNext_cuts keep id' kept s).kept kept)
      ((Pruning.pruneNext_cuts keep id' kept' s').kept kept') _ _

end Ledger.AlikeFor

/-- Calls whose answers tell of no other validator: those that address this one, and those that
speak of keys or of the network. -/
def Call.concerns (id : Int) : Call → Bool
  | .register _ | .lookup _ | .pinNetwork _ => true
  | .pruneAll _ | .importText _ | .exportText => false
  | c => c.validator? = some id

theorem Call.concerns_of_validator {c : Call} {id other : Int}
    (addressed : c.validator? = some other) : c.concerns id = decide (other = id) := by
  cases c <;> cases addressed <;> simp [concerns, validator?]

inductive Thinned (id : Int) : List Call → List Call → Prop
  | nil : Thinned id [] []
  | keep {cs ds : List Call} (c : Call) (rest : Thinned id cs ds) : Thinned id (c :: cs) (c :: ds)
  | drop {cs ds : List Call} {c : Call} {other : Int} (addressed : c.validator? = some other)
      (apart : other ≠ id) (rest : Thinned id cs ds) : Thinned id (c :: cs) ds

namespace Engine

variable {e e' : Engine} {c : Call} {network : Root} {id : Int}

theorem Kept.alike_of_other (kept : e.Kept) {other : Int} (addressed : c.validator? = some other)
    (apart : other ≠ id) (supplied : ∀ r ∈ c.network?, r = network) :
    Ledger.AlikeFor network id e.ledger (e.call c).2.ledger := by
  obtain ⟨effect, called⟩ := Call.local_of_validator addressed supplied
  rw [called kept]
  exact alike_suffer (Ne.symm apart) e _

def StayAlike (network : Root) (id : Int) (e e' : Engine) (c : Call) : Prop :=
  (c.concerns id = true → (e'.call c).1 = (e.call c).1) ∧
    Ledger.AlikeFor network id (e.call c).2.ledger (e'.call c).2.ledger

theorem stayAlike_of_addressed (kept : e.Kept) (kept' : e'.Kept)
    (alike : Ledger.AlikeFor network id e.ledger e'.ledger) {other : Int}
    (addressed : c.validator? = some other) (supplied : ∀ r ∈ c.network?, r = network) :
    StayAlike network id e e' c := by
  by_cases own : other = id
  · rw [own] at addressed
    obtain ⟨x, effect⟩ := (Call.local_of_validator addressed supplied).on_alike e
    rw [StayAlike, effect kept (.refl e.ledger), effect kept' alike]
    exact ⟨fun _ => rfl, (alike.settle_both x.settles x.settles).put x.history⟩
  · have left := kept.alike_of_other addressed own supplied
    have right := kept'.alike_of_other addressed own supplied
    refine ⟨fun concerned => ?_, left.symm.trans (alike.trans right)⟩
    rw [Call.concerns_of_validator addressed, decide_eq_true_eq] at concerned
    exact False.elim (own concerned)

theorem stayAlike_of_barring {fs : List Failure} {a a' : Answer} {e1 e2 : Engine}
    (alike : Ledger.AlikeFor network id e.ledger e'.ledger)
    (left : e.attempt c = barring fs (a, e1)) (right : e'.attempt c = barring fs (a', e2))
    (answers : c.concerns id = false ∨ a' = a)
    (stored : Ledger.AlikeFor network id e1.ledger e2.ledger) : StayAlike network id e e' c := by
  rw [StayAlike, call_barring left, call_barring right]
  cases fs with
  | nil =>
    refine ⟨fun concerned => ?_, stored⟩
    rcases answers with unconcerned | same
    · rw [unconcerned] at concerned
      exact False.elim (Bool.false_ne_true concerned)
    · rw [same]
  | cons f fs => exact ⟨fun _ => rfl, alike⟩

theorem stayAlike_importText (kept : e.Kept) (kept' : e'.Kept)
    (arranged : e.ledger.Arranged) (arranged' : e'.ledger.Arranged)
    (alike : Ledger.AlikeFor network id e.ledger e'.ledger) {s : Text.Utf8.Source}
    (supplied : ∀ r ∈ (Call.importText s).network?, r = network) :
    StayAlike network id e e' (.importText s) := by
  cases read : Document.read s with
  | error fault =>
    rw [StayAlike, call_importText_unread read, call_importText_unread read]
    exact ⟨fun _ => rfl, alike⟩
  | ok d =>
    have objections := alike.objections
    have named : (Call.importText s).network? = some d.metadata.network := by
      rw [Call.network?, read]
      rfl
    rw [← supplied d.metadata.network named] at objections alike ⊢
    by_cases none : d.histories = []
    · have right := kept'.attempt_import_nothing read none
      rw [objections] at right
      exact stayAlike_of_barring alike (kept.attempt_import_nothing read none) right
        (.inl rfl) alike
    · have right := kept'.attempt_import read none
      rw [Document.faults, objections] at right
      refine stayAlike_of_barring alike (kept.attempt_import read none) right (.inl rfl) ?_
      exact (alike.settle_both true true).absorbAll (arranged.adopt _) (arranged'.adopt _)
        d.histories

theorem Reached.stayAlike (reached : e.Reached) (reached' : e'.Reached)
    (alike : Ledger.AlikeFor network id e.ledger e'.ledger) (c : Call)
    (supplied : ∀ r ∈ c.network?, r = network) : StayAlike network id e e' c := by
  have kept := reached.kept
  have kept' := reached'.kept
  have addressed {other : Int} (self : c.validator? = some other) : StayAlike network id e e' c :=
    stayAlike_of_addressed kept kept' alike self supplied
  cases c with
  | register keys =>
    obtain ⟨ids, stored⟩ := alike.enrollAll keys
    rw [StayAlike, kept.call_register, kept'.call_register, ids]
    exact ⟨fun _ => rfl, stored⟩
  | lookup key =>
    rw [StayAlike, kept.call_lookup, kept'.call_lookup, Ledger.idOf_eq_roster,
      Ledger.idOf_eq_roster, alike.roster]
    exact ⟨fun _ => rfl, alike⟩
  | maySignBlock _ b other => exact addressed rfl
  | maySignAttestation _ a other => exact addressed rfl
  | watermark _ => exact addressed rfl
  | prune keep _ => exact addressed rfl
  | pruneAll keep =>
    have pruned := alike.pruneAll kept.ledger kept'.ledger keep e.ledger.ids .none .none
    have right := kept'.attempt_pruneAll keep
    rw [Ledger.ids_eq_roster, alike.roster, ← Ledger.ids_eq_roster] at right
    exact stayAlike_of_barring alike (kept.attempt_pruneAll keep) right (.inl rfl) pruned
  | importText s =>
    exact stayAlike_importText kept kept' reached.arranged reached'.arranged alike supplied
  | exportText =>
    have left : (e.call .exportText).2 = e := congrArg Prod.snd (call_of_reading rfl)
    have right : (e'.call .exportText).2 = e' := congrArg Prod.snd (call_of_reading rfl)
    rw [StayAlike, left, right]
    exact ⟨fun concerned => False.elim (Bool.false_ne_true concerned), alike⟩
  | pinNetwork other =>
    cases supplied other rfl
    have right := kept'.attempt_pin network
    rw [alike.objections] at right
    exact stayAlike_of_barring alike (kept.attempt_pin network) right (.inr rfl)
      (alike.settle_both true true)

theorem Reached.alike_thinned (reached : e.Reached) (reached' : e'.Reached)
    (alike : Ledger.AlikeFor network id e.ledger e'.ledger) {cs ds : List Call}
    (thinned : Thinned id cs ds) (supplied : ∀ c ∈ cs, ∀ r ∈ c.network?, r = network) :
    (e'.transcript ds).filter (fun x => x.1.concerns id) =
        (e.transcript cs).filter (fun x => x.1.concerns id) ∧
      Ledger.AlikeFor network id (e.run cs).ledger (e'.run ds).ledger := by
  induction thinned generalizing e e' with
  | nil => exact ⟨rfl, alike⟩
  | @keep cs ds c rest ih =>
    obtain ⟨first, others⟩ := List.forall_mem_cons.mp supplied
    obtain ⟨answer, next⟩ := reached.stayAlike reached' alike c first
    obtain ⟨answers, final⟩ := ih (reached.call c) (reached'.call c) next others
    refine ⟨?_, final⟩
    simp only [transcript, List.filter_cons, answers]
    split
    · rename_i concerned
      rw [answer concerned]
    · rfl
  | @drop cs ds c other addressed apart rest ih =>
    -- Only the first engine moves, and stays alike for the validator while it does.
    obtain ⟨first, others⟩ := List.forall_mem_cons.mp supplied
    have left := reached.kept.alike_of_other addressed apart first
    obtain ⟨answers, final⟩ := ih (reached.call c) reached' (left.symm.trans alike) others
    refine ⟨?_, final⟩
    have unconcerned : c.concerns id = false :=
      (Call.concerns_of_validator addressed).trans (decide_eq_false apart)
    simp only [transcript, List.filter_cons, unconcerned, answers]
    rfl

/-- Validators do not interfere. While one network is supplied, leaving out calls that address other
validators changes no answer to a call that concerns this one and nothing that is stored of it; and
two calls that address different validators can be made in either order. -/
theorem Reached.validators_independent (reached : e.Reached) (network : Root) :
    (∀ id cs ds, Thinned id cs ds → (∀ c ∈ cs, ∀ r ∈ c.network?, r = network) →
      (e.transcript ds).filter (fun x => x.1.concerns id) =
          (e.transcript cs).filter (fun x => x.1.concerns id) ∧
        (e.run ds).ledger.history id = (e.run cs).ledger.history id) ∧
    ∀ c d id id', c.validator? = some id → d.validator? = some id' → id ≠ id' →
      (∀ r ∈ c.network?, r = network) → (∀ r ∈ d.network?, r = network) →
      ((e.call c).2.call d).1 = (e.call d).1 ∧ ((e.call d).2.call c).1 = (e.call c).1 ∧
        ((e.call c).2.call d).2 = ((e.call d).2.call c).2 := by
  constructor
  · intro id cs ds thinned supplied
    obtain ⟨answers, alike⟩ := reached.alike_thinned reached (.refl e.ledger) thinned supplied
    exact ⟨answers, alike.history⟩
  · intro c d id id' addressed addressed' apart supplied supplied'
    exact (Call.local_of_validator addressed supplied).commutes
      (Call.local_of_validator addressed' supplied') apart reached.kept

theorem validators_independent_first :
    (fresh.transcript [.register [.single 1, .single 2],
        .maySignBlock 2 ⟨⟨5⟩, .filled 2⟩ (.filled 0)]).filter (fun x => x.1.concerns 2) =
      (fresh.transcript [.register [.single 1, .single 2],
        .maySignBlock 1 ⟨⟨5⟩, .filled 1⟩ (.filled 0),
        .maySignBlock 2 ⟨⟨5⟩, .filled 2⟩ (.filled 0)]).filter (fun x => x.1.concerns 2) :=
  ((Reached.fresh.validators_independent (.filled 0)).1 2 _ _
    (.keep _ (.drop rfl (by decide) (.keep _ .nil))) (by decide)).1

end Engine

end SlashGuard
