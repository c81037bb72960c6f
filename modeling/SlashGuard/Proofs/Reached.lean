import SlashGuard.Proofs.Runs

/-! Engines that calls lead to, also where the store is closed and opened again in between. The
invariant holds of each and its ledger is in order. -/
namespace SlashGuard.Engine

/-- An engine that calls and openings of its store lead to. -/
inductive Reached : Engine → Prop
  | fresh : Reached .fresh
  | call {e : Engine} (reached : Reached e) (c : Call) : Reached (e.call c).2
  | reopen {e e' : Engine} (reached : Reached e) (opened : load e.ledger = .ok e') : Reached e'

theorem reached_run {e : Engine} (reached : e.Reached) (cs : List Call) : (e.run cs).Reached := by
  induction cs generalizing e with
  | nil => exact reached
  | cons c cs ih => exact ih (reached.call c)

theorem load_ok {l : Ledger} {e : Engine} (opened : load l = .ok e) : e = unpinned l := by
  obtain ⟨u, -, opened⟩ := bind_eq_ok.mp opened
  exact (Except.ok.inj opened).symm

theorem Kept.unpinned {l : Ledger} (kept : l.Kept) : (Engine.unpinned l).Kept :=
  ⟨kept, rfl, nofun⟩

theorem Reached.kept {e : Engine} (reached : e.Reached) : e.Kept := by
  induction reached with
  | fresh => exact .fresh
  | call _ c ih => exact ih.call c
  | reopen _ opened ih =>
    rw [load_ok opened]
    exact .unpinned ih.ledger

theorem Reached.arranged {e : Engine} (reached : e.Reached) : e.ledger.Arranged := by
  induction reached with
  | fresh => exact .fresh
  | call reached c ih => exact (reached.kept.call_moved c).moves.arranged ih
  | reopen _ opened ih =>
    rw [load_ok opened]
    exact ih

end SlashGuard.Engine
