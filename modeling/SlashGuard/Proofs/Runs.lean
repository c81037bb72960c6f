import SlashGuard.Proofs.Calls

/-! Runs of an engine: calls of any kind in any order, from a fresh engine. Every call moves the
ledger, told of what it records, so the invariant holds after every run, and whatever a run has
recorded stays stored or covered by the floor. -/
namespace SlashGuard

def Root.filled (byte : UInt8) : Root := ⟨List.replicate rootSize byte, List.length_replicate⟩

def PublicKey.single (byte : UInt8) : PublicKey := ⟨[byte], nofun⟩

namespace Engine

/-- What a call records of a validator: a record that it approves, or what an imported document
lists for a key of the validator. -/
inductive Recorded (e : Engine) : Call → Int → Record → Prop
  | signed {id : Int} {network : Root} {r : Record} {safe : Safe}
      (approved : (e.call (.sign id network r)).1 = .ok (.verdict (.allowed safe))) :
      Recorded e (.sign id network r) id r
  | imported {s : Text.Utf8.Source} {d : Document} {summary : ImportSummary} {id : Int}
      {r : Record} (read : Document.read s = .ok d)
      (accepted : (e.call (.importText s)).1 = .ok (.imported summary))
      (listed : Import.Lists d.histories (e.call (.importText s)).2.ledger id r) :
      Recorded e (.importText s) id r

theorem eq_of_recorded {e : Engine} {c : Call} {id id' : Int} {network : Root} {r x : Record}
    (recorded : e.Recorded c id x) (request : c = .sign id' network r) : x = r := by
  cases recorded with
  | signed approved => exact (Call.sign_injective request).2.2
  | imported read accepted listed => exact False.elim (Call.sign_ne_importText request.symm)

/-- The ledger moves, and a network is held only once it is stored. -/
structure Moved (told : Int → Record → Prop) (e e' : Engine) : Prop where
  access : e'.access = e.access
  guard : ∀ p, e'.guard.pinned = some p →
    e.guard.pinned = some p ∨ e'.ledger.network = some p.bytes
  moves : Ledger.Moves told e.ledger e'.ledger

variable {e e' : Engine} {told : Int → Record → Prop}

theorem Moved.refl (e : Engine) : Moved told e e := ⟨rfl, fun _ held => .inl held, .refl⟩

theorem Moved.kept (moved : Moved told e e') (kept : e.Kept) : e'.Kept where
  ledger := moved.moves.kept kept.ledger
  access := moved.access.trans kept.access
  guard := by
    intro p held
    rcases moved.guard p held with held | stored
    · exact (moved.moves.grows kept.ledger).network p.bytes (kept.guard p held)
    · exact stored

theorem pin_guard {g : Guard} {r p : Root} (held : (g.pin r).pinned = some p) :
    g.pinned = some p ∨ p = r := by
  cases pinned : g.pinned with
  | none => simp_all [Guard.pin]
  | some q => simp_all [Guard.pin]

theorem Moved.pin {l : Ledger} {network : Root} (stored : l.network = some network.bytes)
    (moves : Ledger.Moves told e.ledger l) :
    Moved told e { e with ledger := l, guard := e.guard.pin network } where
  access := rfl
  guard := by
    intro p held
    rcases pin_guard held with held | rfl
    · exact .inl held
    · exact .inr stored
  moves := moves

theorem Moved.same_guard {l : Ledger} (moves : Ledger.Moves told e.ledger l) :
    Moved told e { e with ledger := l } :=
  ⟨rfl, fun _ held => .inl held, moves⟩

theorem Kept.sign_moved (kept : e.Kept) (id : Int) (network : Root) (r : Record) :
    Moved (e.Recorded (.sign id network r)) e (e.call (.sign id network r)).2 := by
  by_cases inverted : r.Inverted
  · rw [call_sign_inverted inverted]
    exact .refl e
  · by_cases decides : e.Decides id network r
    · have adopted := Ledger.network_adopt decides.takes
      have adopt : Ledger.Moves (e.Recorded (.sign id network r)) e.ledger
        (e.ledger.adopt network) := .single (.adopt network)
      have called := kept.call_sign inverted decides
      by_cases valid : (e.ledger.history id).judge r = .allowed .valid
      · have known : e.Recorded (.sign id network r) id r :=
          .signed (kept.approved_iff.mpr ⟨decides, valid⟩)
        rw [if_pos valid] at called
        rw [called]
        refine .pin adopted (adopt.tail (.change id _ ?_ (by simp [adopted]) ?_))
        · exact decides.registered_adopt
        · rw [Ledger.history_adopt]
          exact History.step_sign decides.fits known valid
      · rw [if_neg valid] at called
        rw [called]
        exact .pin adopted adopt
    · obtain ⟨f, fails⟩ := kept.call_sign_fails inverted decides
      rw [fails]
      exact .refl e

theorem enrollAll_moves (keys : List PublicKey) (l : Ledger) :
    Ledger.Moves told l (l.enrollAll keys).2 := by
  induction keys generalizing l with
  | nil => exact .refl
  | cons key keys ih => exact .head (.enroll key) (ih (l.enroll key).2)

theorem Kept.register_moved (kept : e.Kept) (keys : List PublicKey) :
    Moved told e (e.call (.register keys)).2 := by
  rw [kept.call_register]
  exact .same_guard (enrollAll_moves keys e.ledger)

theorem Kept.prune_cuts (kept : e.Kept) (keep : Nat) (id : Int) :
    ∃ l, (e.call (.prune keep id)).2 = { e with ledger := l } ∧ Pruning.Cuts e.ledger l := by
  rw [call_barring (kept.attempt_prune keep id)]
  split
  · exact ⟨_, rfl, Pruning.put_pruned_cuts kept.ledger keep id⟩
  · exact ⟨e.ledger, rfl, .refl⟩

theorem Kept.pruneAll_cuts (kept : e.Kept) (keep : Nat) :
    ∃ l, (e.call (.pruneAll keep)).2 = { e with ledger := l } ∧ Pruning.Cuts e.ledger l := by
  rw [call_barring (kept.attempt_pruneAll keep)]
  generalize (if keep = 0 then [Failure.nothingKept] else []) = faults
  split
  · exact ⟨_, rfl, Pruning.foldl_pruneNext_cuts keep e.ledger.ids kept.ledger .none⟩
  · exact ⟨e.ledger, rfl, .refl⟩

theorem Kept.pinNetwork_moved (kept : e.Kept) (network : Root) :
    Moved told e (e.call (.pinNetwork network)).2 := by
  rw [call_barring (kept.attempt_pin network)]
  split
  · rename_i none
    have takes := (networkFaults_eq_nil kept.ledger).mp none
    exact .pin (Ledger.network_adopt takes) (.single (.adopt network))
  · exact .refl e

theorem Kept.importText_cases (kept : e.Kept) (s : Text.Utf8.Source) :
    (∃ f, e.call (.importText s) = (.error f, e)) ∨
    ∃ d summary, Document.read s = .ok d ∧
      ((d.histories = [] ∧ e.call (.importText s) = (.ok (.imported summary), e)) ∨
      (d.faults e.ledger = [] ∧
        e.call (.importText s) = (.ok (.imported summary), e.imported d))) := by
  cases read : Document.read s with
  | error fault => exact .inl ⟨.input fault, call_importText_unread read⟩
  | ok d =>
    rcases kept.importDocument_cases d with
      ⟨f, failed⟩ | ⟨summary, ⟨entries, done⟩ | ⟨none, done⟩⟩
    · exact .inl ⟨f, call_importText_error read failed⟩
    · exact .inr ⟨d, summary, rfl, .inl ⟨entries, call_importText_ok read done⟩⟩
    · exact .inr ⟨d, summary, rfl, .inr ⟨none, call_importText_ok read done⟩⟩

theorem Kept.imported_moves (kept : e.Kept) {d : Document} (none : d.faults e.ledger = []) :
    Ledger.Moves (Import.Lists d.histories (e.imported d).ledger)
        (e.ledger.adopt d.metadata.network) (e.imported d).ledger ∧
      ∀ h ∈ d.histories, ∃ id, (e.imported d).ledger.idOf h.key = some id ∧
        ∀ r ∈ Import.recordsOf h, ((e.imported d).ledger.history id).Covers r := by
  obtain ⟨takes, good⟩ := (faults_eq_nil kept.ledger).mp none
  have adopted := Ledger.network_adopt takes
  exact Import.absorbAll_moves (kept.ledger.adopt _) (by simp [adopted]) good

theorem Kept.network_imported (kept : e.Kept) {d : Document} (none : d.faults e.ledger = []) :
    (e.imported d).ledger.network = some d.metadata.network.bytes := by
  obtain ⟨takes, -⟩ := (faults_eq_nil kept.ledger).mp none
  exact (Ledger.network_absorbAll _ _).trans (Ledger.network_adopt takes)

theorem Kept.import_moved (kept : e.Kept) (s : Text.Utf8.Source) :
    Moved (e.Recorded (.importText s)) e (e.call (.importText s)).2 := by
  rcases kept.importText_cases s with ⟨f, fails⟩ | ⟨d, summary, read, ⟨-, called⟩ | ⟨none, called⟩⟩
  · rw [fails]
    exact .refl e
  · rw [called]
    exact .refl e
  · have recorded (id : Int) (r : Record)
        (listed : Import.Lists d.histories (e.imported d).ledger id r) :
        e.Recorded (.importText s) id r :=
      .imported read (by rw [called]) (by rw [called]; exact listed)
    rw [called]
    exact .pin (kept.network_imported none)
      (.head (.adopt _) ((kept.imported_moves none).1.mono recorded))

theorem Kept.call_moved (kept : e.Kept) (c : Call) : Moved (e.Recorded c) e (e.call c).2 := by
  have unchanged (same : (e.call c).2 = e) : Moved (e.Recorded c) e (e.call c).2 := by
    rw [same]
    exact .refl e
  cases c with
  | register keys => exact kept.register_moved keys
  | lookup key => exact unchanged (congrArg Prod.snd (call_of_reading rfl))
  | maySignBlock id b network => exact kept.sign_moved id network (.block b)
  | maySignAttestation id a network => exact kept.sign_moved id network (.attestation a)
  | watermark id => exact unchanged (congrArg Prod.snd (call_of_reading rfl))
  | prune keep id =>
    obtain ⟨l, called, cuts⟩ := kept.prune_cuts keep id
    rw [called]
    exact .same_guard cuts.moves
  | pruneAll keep =>
    obtain ⟨l, called, cuts⟩ := kept.pruneAll_cuts keep
    rw [called]
    exact .same_guard cuts.moves
  | importText s => exact kept.import_moved s
  | exportText => exact unchanged (congrArg Prod.snd (call_of_reading rfl))
  | pinNetwork network => exact kept.pinNetwork_moved network

theorem Kept.call (kept : e.Kept) (c : Call) : (e.call c).2.Kept :=
  (kept.call_moved c).kept kept

theorem Kept.stores_of_approved (kept : e.Kept) {id : Int} {network : Root} {r : Record}
    {safe : Safe} (approved : (e.call (.sign id network r)).1 = .ok (.verdict (.allowed safe))) :
    ((e.call (.sign id network r)).2.ledger.history id).Stores r := by
  obtain ⟨decides, allowed⟩ := kept.approved_iff.mp approved
  have range := History.not_inverted_of_judge allowed
  rw [kept.call_sign range decides]
  cases safe with
  | valid =>
    simp only [if_pos allowed, Ledger.history_put_self decides.registered_adopt]
    exact History.stores_sign.mpr (.inr rfl)
  | sameData =>
    have stored := ((kept.ledger.histories id).legible.judge_sameData.mp allowed).2.1
    have other : (e.ledger.history id).judge r ≠ .allowed .valid := by
      rw [allowed]
      nofun
    simpa only [if_neg other, Ledger.history_adopt] using stored

theorem Kept.covers_of_recorded (kept : e.Kept) {c : Call} {id : Int} {r : Record}
    (recorded : e.Recorded c id r) : ((e.call c).2.ledger.history id).Covers r := by
  cases recorded with
  | signed approved => exact History.covers_of_stores (kept.stores_of_approved approved)
  | @imported s d summary _ _ read accepted listed =>
    rcases kept.importText_cases s with ⟨f, fails⟩ | ⟨d', summary', read', ⟨none, -⟩ |
      ⟨none, called⟩⟩
    · rw [fails] at accepted
      cases accepted
    · rw [read] at read'
      cases read'
      obtain ⟨h, member, -⟩ := listed
      rw [none] at member
      cases member
    · rw [read] at read'
      cases read'
      rw [called] at listed ⊢
      obtain ⟨h, member, key, lists⟩ := listed
      obtain ⟨id', key', covered⟩ := (kept.imported_moves none).2 h member
      rw [key] at key'
      cases key'
      exact covered r lists

def Records (e : Engine) (cs : List Call) (id : Int) (r : Record) : Prop :=
  ∃ before c after, cs = before ++ c :: after ∧ (e.run before).Recorded c id r

theorem run_cons (e : Engine) (c : Call) (cs : List Call) :
    e.run (c :: cs) = (e.call c).2.run cs := rfl

theorem run_append (e : Engine) (cs ds : List Call) : e.run (cs ++ ds) = (e.run cs).run ds := by
  simp only [run, List.foldl_append]

def transcript (e : Engine) : List Call → List (Call × Except Failure Answer)
  | [] => []
  | c :: cs => (c, (e.call c).1) :: (e.call c).2.transcript cs

theorem Kept.run_moved (kept : e.Kept) (cs : List Call) :
    Ledger.Moves (e.Records cs) e.ledger (e.run cs).ledger := by
  -- What the rest of the run records is said of the engine after the first call.
  induction cs generalizing e with
  | nil => exact .refl
  | cons c cs ih =>
    have first : Ledger.Moves (e.Records (c :: cs)) e.ledger (e.call c).2.ledger :=
      (kept.call_moved c).moves.mono fun id r recorded => ⟨[], c, cs, rfl, recorded⟩
    refine first.trans ((ih (kept.call c)).mono ?_)
    rintro id r ⟨before, d, after, rfl, recorded⟩
    exact ⟨c :: before, d, after, rfl, recorded⟩

theorem Kept.run (kept : e.Kept) (cs : List Call) : (e.run cs).Kept := by
  induction cs generalizing e with
  | nil => exact kept
  | cons c cs ih => exact ih (kept.call c)

/-- Whatever a run has recorded is stored, or the floor covers it. -/
theorem Kept.run_covers (kept : e.Kept) {cs : List Call} {id : Int} {r : Record}
    (recorded : e.Records cs id r) : ((e.run cs).ledger.history id).Covers r := by
  obtain ⟨before, c, after, rfl, recorded⟩ := recorded
  have kept1 := kept.run before
  have covered := kept1.covers_of_recorded recorded
  have grows := ((kept1.call c).run_moved after).grows (kept1.call c).ledger
  rw [run_append, run_cons]
  exact (grows.advances id).covers covered

theorem run_begins {P : Engine → Prop} {cs : List Call} (before : ¬ P e) (after : P (e.run cs)) :
    ∃ xs c ys, cs = xs ++ c :: ys ∧ ¬ P (e.run xs) ∧ P ((e.run xs).call c).2 := by
  induction cs generalizing e with
  | nil => exact False.elim (before after)
  | cons c cs ih =>
    by_cases first : P (e.call c).2
    · exact ⟨[], c, cs, rfl, before, first⟩
    · obtain ⟨xs, d, ys, rfl, pending, begins⟩ := ih first after
      exact ⟨c :: xs, d, ys, rfl, pending, begins⟩

end Engine

end SlashGuard
