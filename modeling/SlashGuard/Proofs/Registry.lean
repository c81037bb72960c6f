import SlashGuard.Proofs.Reached

/-! The registry of validators. A key keeps its id, no two keys share one, and a key that comes
later has a higher one. Registering answers the ids of the keys one by one, and an import that
fails registers none. -/
namespace SlashGuard

namespace Ledger

variable {l l' : Ledger} {key key' : PublicKey} {id id' : Int}

theorem roster_prefix_enroll (l : Ledger) (key : PublicKey) :
    l.roster <+: (l.enroll key).2.roster := by
  cases known : l.idOf key with
  | some id =>
    rw [enroll_known known]
    exact List.prefix_rfl
  | none =>
    rw [enroll_new known]
    simp only [roster, List.map_append]
    exact List.prefix_append _ _

theorem Moves.roster_grown {told : Int → Record → Prop} (moves : Moves told l l') :
    l.roster <+: l'.roster := by
  induction moves with
  | refl => exact List.prefix_rfl
  | tail _ move ih =>
    refine ih.trans ?_
    cases move with
    | enroll key => exact roster_prefix_enroll _ key
    | adopt r => exact roster_adopt _ r ▸ List.prefix_rfl
    | change id h _ _ _ => exact roster_put _ id h ▸ List.prefix_rfl

theorem mem_roster_of_idOf (known : l.idOf key = some id) : (id, key.bytes) ∈ l.roster := by
  obtain ⟨a, member, hid, hkey⟩ := mem_of_idOf known
  exact List.mem_map.mpr ⟨a, member, by rw [hid, hkey]⟩

theorem idOf_of_grown (grown : l.roster <+: l'.roster) (known : l.idOf key = some id) :
    l'.idOf key = some id := by
  obtain ⟨more, whole⟩ := grown
  obtain ⟨entry, found, hid⟩ := Option.map_eq_some_iff.mp ((idOf_eq_roster l key).symm.trans known)
  rw [idOf_eq_roster, ← whole, List.find?_append, found]
  exact congrArg some hid

theorem lt_of_appended (arranged : l'.Arranged) (grown : l.roster <+: l'.roster)
    (known : l.idOf key = some id) (unknown : l.idOf key' = none)
    (later : l'.idOf key' = some id') : id < id' := by
  obtain ⟨more, whole⟩ := grown
  have before := mem_roster_of_idOf known
  have after : (id', key'.bytes) ∈ more := by
    have member := mem_roster_of_idOf later
    rw [← whole] at member
    refine (List.mem_append.mp member).resolve_left fun early => ?_
    exact idOf_eq_none.mp unknown (keys_eq_roster l ▸ List.mem_map_of_mem early)
  have rising := arranged.ids
  rw [ids_eq_roster, ← whole, List.map_append] at rising
  exact (List.pairwise_append.mp rising).2.2 id (List.mem_map_of_mem before) id'
    (List.mem_map_of_mem after)

theorem idOf_enrollAll (l : Ledger) (keys : List PublicKey) :
    List.Forall₂ (fun key id => (l.enrollAll keys).2.idOf key = some id) keys
      (l.enrollAll keys).1 := by
  induction keys generalizing l with
  | nil => exact .nil
  | cons key keys ih =>
    -- What is registered after a key leaves its id alone.
    have rest : Moves (fun _ _ => False) (l.enroll key).2 ((l.enroll key).2.enrollAll keys).2 :=
      Engine.enrollAll_moves keys (l.enroll key).2
    exact .cons (idOf_of_grown rest.roster_grown (idOf_enroll l key)) (ih (l.enroll key).2)

end Ledger

namespace Engine

inductive Later (e : Engine) : Engine → Prop
  | now : Later e e
  | call {e' : Engine} (later : Later e e') (c : Call) : Later e (e'.call c).2
  | reopen {e' e'' : Engine} (later : Later e e') (opened : load e'.ledger = .ok e'') : Later e e''

def Identifies (e : Engine) (key : PublicKey) (id : Int) : Prop :=
  (e.call (.lookup key)).1 = .ok (.id (some id))

variable {e e' : Engine} {key : PublicKey} {id : Int}

theorem Later.reached (later : e.Later e') (reached : e.Reached) : e'.Reached := by
  induction later with
  | now => exact reached
  | call _ c ih => exact ih.call c
  | reopen _ opened ih => exact ih.reopen opened

theorem Later.roster_grown (later : e.Later e') (reached : e.Reached) :
    e.ledger.roster <+: e'.ledger.roster := by
  induction later with
  | now => exact List.prefix_rfl
  | call earlier c ih =>
    exact ih.trans ((earlier.reached reached).kept.call_moved c).moves.roster_grown
  | reopen _ opened ih => rwa [load_ok opened]

theorem Kept.lookup_eq_iff (kept : e.Kept) {o : Option Int} :
    (e.call (.lookup key)).1 = .ok (.id o) ↔ e.ledger.idOf key = o := by
  rw [kept.call_lookup]
  simp

theorem Kept.identifies_iff (kept : e.Kept) :
    e.Identifies key id ↔ e.ledger.idOf key = some id := kept.lookup_eq_iff

/-- Ids and keys belong to each other for good: in every later state a key has the id it once had,
and no other key has it. A key that comes later has a higher id than those that were there.
Registering answers the id of each key in turn, and an import that fails changes nothing. -/
theorem Reached.registry_stable (reached : e.Reached) :
    (∀ e' key id, e.Later e' → e.Identifies key id →
      e'.Identifies key id ∧ ∀ other, e'.Identifies other id → other = key) ∧
    (∀ e' key key' id id', e.Later e' → e.Identifies key id →
      (e.call (.lookup key')).1 = .ok (.id none) → e'.Identifies key' id' → id < id') ∧
    (∀ keys, ∃ ids, (e.call (.register keys)).1 = .ok (.ids ids) ∧
      List.Forall₂ (e.call (.register keys)).2.Identifies keys ids) ∧
    (∀ s f, (e.call (.importText s)).1 = .error f → (e.call (.importText s)).2 = e) := by
  have kept := reached.kept
  refine ⟨?stays, ?rises, ?registers, fun s f => call_error_unchanged⟩
  case stays =>
    intro e' key id later known
    have after := (later.reached reached).kept
    have stays := Ledger.idOf_of_grown (later.roster_grown reached) (kept.identifies_iff.mp known)
    refine ⟨after.identifies_iff.mpr stays, fun other shared => ?_⟩
    exact Ledger.idOf_injective after.ledger.distinct (after.identifies_iff.mp shared) stays
  case rises =>
    intro e' key key' id id' later known unknown comes
    have after := later.reached reached
    exact Ledger.lt_of_appended after.arranged (later.roster_grown reached)
      (kept.identifies_iff.mp known) (kept.lookup_eq_iff.mp unknown)
      (after.kept.identifies_iff.mp comes)
  case registers =>
    intro keys
    have after := kept.call (.register keys)
    refine ⟨(e.ledger.enrollAll keys).1, by rw [kept.call_register], ?_⟩
    refine (Ledger.idOf_enrollAll e.ledger keys).imp fun key id known => ?_
    rw [after.identifies_iff, kept.call_register]
    exact known

theorem registry_stable_again :
    ((fresh.run [.register [.single 1]]).call (.register [.single 1, .single 2])).1 =
        .ok (.ids [1, 3]) ∧
      (fresh.run [.register [.single 1], .register [.single 1, .single 2]]).Identifies
        (.single 1) 1 ∧
      ∀ id, (fresh.run [.register [.single 1], .register [.single 1, .single 2]]).Identifies
        (.single 2) id → 1 < id := by
  have reached := reached_run .fresh [.register [.single 1]]
  have later : (fresh.run [.register [.single 1]]).Later
      (fresh.run [.register [.single 1], .register [.single 1, .single 2]]) :=
    .call .now (.register [.single 1, .single 2])
  obtain ⟨stays, rises, -⟩ := reached.registry_stable
  exact ⟨by decide, (stays _ (.single 1) 1 later rfl).1,
    fun id => rises _ (.single 1) (.single 2) 1 id later rfl rfl⟩

end Engine

end SlashGuard
