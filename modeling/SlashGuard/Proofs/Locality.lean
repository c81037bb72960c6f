import SlashGuard.Proofs.OneNetwork

/-! Calls that address one validator. What such a call does depends on what is stored of its
validator and on whether the store objects to the network, and it leaves another history of the
validator and perhaps the network. So calls that address different validators commute. -/
namespace SlashGuard

namespace Ledger

theorem put_comm {id id' : Int} (apart : id ≠ id') (l : Ledger) (h h' : History) :
    (l.put id h).put id' h' = (l.put id' h').put id h := by
  simp only [put, amend, List.map_map, Ledger.mk.injEq, true_and]
  apply List.map_congr_left
  intro a _
  simp only [Function.comp_apply]
  by_cases first : a.id = id
  · simp [first, apart]
  · by_cases second : a.id = id'
    · simp [second, apart.symm]
    · simp [first, second]

theorem networkFaults_congr {l l' : Ledger} (same : l'.network = l.network) (network : Root) :
    l'.networkFaults network = l.networkFaults network := by
  simp only [networkFaults, readNetwork, same]

def settle (l : Ledger) (settles : Bool) (network : Root) : Ledger :=
  if settles then l.adopt network else l

variable (l : Ledger) (settles : Bool) (network : Root)

@[simp] theorem history_settle (id : Int) :
    (l.settle settles network).history id = l.history id := by
  cases settles with
  | false => rfl
  | true => exact history_adopt l network id

@[simp] theorem roster_settle : (l.settle settles network).roster = l.roster := by
  cases settles with
  | false => rfl
  | true => exact roster_adopt l network

@[simp] theorem issued_settle : (l.settle settles network).issued = l.issued := by
  cases settles with
  | false => rfl
  | true => exact issued_adopt l network

@[simp] theorem networkFaults_settle :
    (l.settle settles network).networkFaults network = l.networkFaults network := by
  cases settles with
  | false => rfl
  | true =>
    cases known : l.network with
    | none =>
      have stored : (l.adopt network).network = some network.bytes := by
        simp [adopt, recordNetwork, known]
      have settled : (l.settle true network).networkFaults network = [] :=
        (Engine.networkFaults_of_stored stored network).trans (if_pos rfl)
      rw [settled, Engine.networkFaults_of_none known]
    | some bytes =>
      exact congrArg (networkFaults · network) (adopt_eq_self (by simp [known]) network)

theorem settle_put (id : Int) (h : History) :
    (l.put id h).settle settles network = (l.settle settles network).put id h := by
  cases settles with
  | false => rfl
  | true =>
    simp only [settle, if_true, adopt, recordNetwork, network_put]
    cases l.network <;> rfl

theorem settle_comm (settles' : Bool) :
    (l.settle settles network).settle settles' network =
      (l.settle settles' network).settle settles network := by
  cases settles <;> cases settles' <;> rfl

/-- Ledgers that have registered the same, object the same to a network, and store the same of one
validator. -/
structure AlikeFor (network : Root) (id : Int) (l l' : Ledger) : Prop where
  roster : l'.roster = l.roster
  issued : l'.issued = l.issued
  objections : l'.networkFaults network = l.networkFaults network
  history : l'.history id = l.history id

namespace AlikeFor

variable {network : Root} {id : Int} {l l' l'' : Ledger}

theorem refl (l : Ledger) : AlikeFor network id l l := ⟨rfl, rfl, rfl, rfl⟩

theorem symm (alike : AlikeFor network id l l') : AlikeFor network id l' l :=
  ⟨alike.roster.symm, alike.issued.symm, alike.objections.symm, alike.history.symm⟩

theorem trans (first : AlikeFor network id l l') (second : AlikeFor network id l' l'') :
    AlikeFor network id l l'' :=
  ⟨second.roster.trans first.roster, second.issued.trans first.issued,
    second.objections.trans first.objections, second.history.trans first.history⟩

theorem isRegistered (alike : AlikeFor network id l l') (id' : Int) :
    l'.isRegistered id' = l.isRegistered id' := by
  rw [isRegistered_eq_roster, isRegistered_eq_roster, alike.roster]

theorem settle (l : Ledger) (settles : Bool) : AlikeFor network id l (l.settle settles network) :=
  ⟨by simp, by simp, by simp, by simp⟩

theorem settle_both (alike : AlikeFor network id l l') (a b : Bool) :
    AlikeFor network id (l.settle a network) (l'.settle b network) :=
  (settle l a).symm.trans (alike.trans (settle l' b))

theorem put_ne {id' : Int} (apart : id ≠ id') (l : Ledger) (h : History) :
    AlikeFor network id l (l.put id' h) :=
  ⟨roster_put l id' h, rfl, networkFaults_congr rfl network, history_put_ne apart h⟩

theorem put (alike : AlikeFor network id l l') (h : History) :
    AlikeFor network id (l.put id h) (l'.put id h) where
  roster := by rw [roster_put, roster_put, alike.roster]
  issued := alike.issued
  objections := alike.objections
  history := by
    cases registered : l.isRegistered id with
    | true =>
      have registered' := (alike.isRegistered id).trans registered
      rw [history_put_self registered, history_put_self registered']
    | false =>
      -- Both ledgers are left as they are, and neither tells anything of the validator.
      have registered' := (alike.isRegistered id).trans registered
      rw [history_of_not_registered (by simpa using registered'),
        history_of_not_registered (by simpa using registered)]

end AlikeFor

end Ledger

/-- What a call does to the validator that it addresses: the reply, whether it settles the
network, and the history that it leaves. -/
structure Effect where
  reply : Except Failure Answer
  settles : Bool
  history : History

def Effect.barring (faults : List Failure) (h : History) (x : Effect) : Effect :=
  match faults with
  | [] => x
  | f :: _ => ⟨.error f, false, h⟩

def Guard.settle (g : Guard) (settles : Bool) (network : Root) : Guard :=
  if settles then g.pin network else g

theorem Guard.settle_comm (g : Guard) (settles settles' : Bool) (network : Root) :
    (g.settle settles network).settle settles' network =
      (g.settle settles' network).settle settles network := by
  cases settles <;> cases settles' <;> rfl

def Engine.suffer (e : Engine) (network : Root) (id : Int) (x : Effect) : Engine :=
  { e with
    ledger := (e.ledger.settle x.settles network).put id x.history
    guard := e.guard.settle x.settles network }

/-- A call reads nothing but what is stored of one validator and what is objected to the network,
and has its effect on the validator. -/
def Call.Local (c : Call) (network : Root) (id : Int) : Prop :=
  ∃ effect : List Failure → Bool → History → Effect, ∀ {e : Engine}, e.Kept →
    let x := effect (e.ledger.networkFaults network) (e.ledger.isRegistered id)
      (e.ledger.history id)
    e.call c = (x.reply, e.suffer network id x)

namespace Engine

variable {e : Engine} {c d : Call} {network : Root} {id id' : Int}

theorem suffer_comm (apart : id ≠ id') (e : Engine) (x y : Effect) :
    (e.suffer network id x).suffer network id' y =
      (e.suffer network id' y).suffer network id x := by
  have rows := Ledger.put_comm apart
    ((e.ledger.settle y.settles network).settle x.settles network) x.history y.history
  simp only [suffer, Ledger.settle_put, Ledger.settle_comm e.ledger x.settles,
    Guard.settle_comm e.guard x.settles, rows]

theorem alike_suffer (apart : id ≠ id') (e : Engine) (x : Effect) :
    Ledger.AlikeFor network id e.ledger (e.suffer network id' x).ledger :=
  (Ledger.AlikeFor.settle e.ledger x.settles).trans (.put_ne apart _ _)

theorem Kept.suffer_unchanged (kept : e.Kept) (reply : Except Failure Answer) :
    e.suffer network id ⟨reply, false, e.ledger.history id⟩ = e := by
  simp [suffer, Ledger.settle, Guard.settle, Ledger.put_history kept.ledger.distinct]

theorem Kept.call_suffers (kept : e.Kept) {fs : List Failure} {x : Effect} {a : Answer}
    (replied : x.reply = .ok a) (attempted : e.attempt c = barring fs (a, e.suffer network id x)) :
    e.call c = ((x.barring fs (e.ledger.history id)).reply,
      e.suffer network id (x.barring fs (e.ledger.history id))) := by
  rw [call_barring attempted]
  cases fs with
  | nil => exact congrArg (Prod.mk · _) replied.symm
  | cons f fs => exact congrArg (Prod.mk _) (kept.suffer_unchanged _).symm

end Engine

namespace Call

open Engine

variable {c d : Call} {network : Root} {id id' : Int}

theorem Local.on_alike (is_local : c.Local network id) (e : Engine) :
    ∃ x, ∀ {e' : Engine}, e'.Kept → Ledger.AlikeFor network id e.ledger e'.ledger →
      e'.call c = (x.reply, e'.suffer network id x) := by
  obtain ⟨effect, called⟩ := is_local
  refine ⟨effect (e.ledger.networkFaults network) (e.ledger.isRegistered id)
    (e.ledger.history id), fun {e'} kept' alike => ?_⟩
  rw [← alike.objections, ← alike.isRegistered, ← alike.history]
  exact called kept'

theorem Local.commutes (first : c.Local network id) (second : d.Local network id')
    (apart : id ≠ id') {e : Engine} (kept : e.Kept) :
    ((e.call c).2.call d).1 = (e.call d).1 ∧ ((e.call d).2.call c).1 = (e.call c).1 ∧
      ((e.call c).2.call d).2 = ((e.call d).2.call c).2 := by
  obtain ⟨x, effect⟩ := first.on_alike e
  obtain ⟨y, effect'⟩ := second.on_alike e
  have called := effect kept (.refl e.ledger)
  have called' := effect' kept (.refl e.ledger)
  -- Neither call changes what the other reads, so each has its effect again after the other.
  have kept1 := kept.call c
  have kept2 := kept.call d
  rw [called] at kept1
  rw [called'] at kept2
  have later := effect' kept1 (alike_suffer apart.symm e x)
  have later' := effect kept2 (alike_suffer apart e y)
  rw [called, called', later, later']
  exact ⟨rfl, rfl, suffer_comm apart e x y⟩

theorem local_sign {other : Root} {r : Record} (same : ¬ r.Inverted → other = network) :
    (Call.sign id other r).Local network id := by
  by_cases inverted : r.Inverted
  · refine ⟨fun _ _ h => ⟨.ok (.verdict (.refused .invalidRange)), false, h⟩, ?_⟩
    intro e kept
    rw [call_sign_inverted inverted]
    exact congrArg (Prod.mk _) (kept.suffer_unchanged _).symm
  · cases same inverted
    exact ⟨fun objections registered h =>
      Effect.barring (objections ++ Signing.faults registered id r) h
        ⟨.ok (.verdict (h.judge r)), true, h.asked r⟩,
      fun {e} kept => kept.call_suffers rfl (kept.attempt_request inverted)⟩

theorem local_prune (keep : Nat) (id : Int) (network : Root) :
    (Call.prune keep id).Local network id :=
  ⟨fun _ _ h => Effect.barring (h.pruneFaults keep) h
      ⟨.ok (.outcome (h.pruneOutcome keep id)), false, h.pruned keep⟩,
    fun {_} kept => kept.call_suffers rfl (kept.attempt_prune keep id)⟩

theorem local_watermark (id : Int) (network : Root) : (Call.watermark id).Local network id := by
  refine ⟨fun _ _ h => ⟨.ok (.watermark (h.mark id)), false, h⟩, ?_⟩
  intro e kept
  rw [kept.call_watermark]
  exact congrArg (Prod.mk _) (kept.suffer_unchanged _).symm

def validator? : Call → Option Int
  | .maySignBlock id _ _ | .maySignAttestation id _ _ | .watermark id | .prune _ id => some id
  | .register _ | .lookup _ | .pruneAll _ | .importText _ | .exportText | .pinNetwork _ => none

theorem local_of_validator (addressed : c.validator? = some id)
    (supplied : ∀ r ∈ c.network?, r = network) : c.Local network id := by
  cases c <;> cases addressed
  case maySignBlock b other =>
    exact @local_sign network id other (.block b) fun range => supplied other (network?_sign range)
  case maySignAttestation a other =>
    exact @local_sign network id other (.attestation a) fun range =>
      supplied other (network?_sign range)
  case watermark => exact local_watermark id network
  case prune keep => exact local_prune keep id network

end Call

end SlashGuard
