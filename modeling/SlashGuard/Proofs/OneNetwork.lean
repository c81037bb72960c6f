import SlashGuard.Proofs.Reached

/-! The network of a store. A stored network stays, and every call that supplies another one fails
and changes nothing. A call that fails on a store without a network leaves it without. -/
namespace SlashGuard

/-- The network that a call asks for. An inverted attestation is refused before its network is
looked at, and a text that is no document names none. -/
def Call.network? : Call → Option Root
  | .maySignBlock _ _ network | .pinNetwork network => some network
  | .maySignAttestation _ a network =>
    if a.target.number < a.source.number then none else some network
  | .importText s => (Document.read s).toOption.map fun d => d.metadata.network
  | .register _ | .lookup _ | .watermark _ | .prune _ _ | .pruneAll _ | .exportText => none

theorem Call.network?_sign {id : Int} {network : Root} {r : Record} (range : ¬ r.Inverted) :
    (Call.sign id network r).network? = some network := by
  cases r with
  | block b => rfl
  | attestation a => exact if_neg range

namespace Engine

variable {e : Engine} {c : Call} {network : Root}

/-- A call succeeds on a network: it approves a record, imports a document that has entries, or
pins the network. -/
inductive Accepts (e : Engine) : Call → Root → Prop
  | approval {id : Int} {network : Root} {r : Record} {safe : Safe}
      (approved : (e.call (.sign id network r)).1 = .ok (.verdict (.allowed safe))) :
      Accepts e (.sign id network r) network
  | entries {s : Text.Utf8.Source} {d : Document} {a : Answer} (read : Document.read s = .ok d)
      (entries : d.histories ≠ []) (imported : (e.call (.importText s)).1 = .ok a) :
      Accepts e (.importText s) d.metadata.network
  | pin {network : Root} {a : Answer} (pinned : (e.call (.pinNetwork network)).1 = .ok a) :
      Accepts e (.pinNetwork network) network

theorem Kept.attempt_supplied (kept : e.Kept) (supplied : c.network? = some network) :
    ∃ fs a e', e.attempt c = barring (e.ledger.networkFaults network ++ fs) (a, e') := by
  have last {fs : List Failure} {a : Answer} {e' : Engine}
      (attempted : e.attempt c = barring fs (a, e')) :
      e.attempt c = barring (fs ++ []) (a, e') := by
    rwa [List.append_nil]
  cases c
  case maySignBlock id b other =>
    cases supplied
    exact ⟨_, _, _, @Kept.attempt_request e kept id network (.block b) not_false⟩
  case maySignAttestation id a other =>
    by_cases inverted : a.target.number < a.source.number
    · rw [Call.network?, if_pos inverted] at supplied
      cases supplied
    · rw [Call.network?, if_neg inverted] at supplied
      cases supplied
      exact ⟨_, _, _, @Kept.attempt_request e kept id network (.attestation a) inverted⟩
  case importText s =>
    cases read : Document.read s with
    | error fault =>
      rw [Call.network?, read] at supplied
      cases supplied
    | ok d =>
      rw [Call.network?, read] at supplied
      cases supplied
      by_cases none : d.histories = []
      · exact ⟨[], _, _, last (kept.attempt_import_nothing read none)⟩
      · exact ⟨_, _, _, kept.attempt_import read none⟩
  case pinNetwork other =>
    cases supplied
    exact ⟨[], _, _, last (kept.attempt_pin network)⟩
  all_goals cases supplied

theorem Kept.refuses_other (kept : e.Kept) {p : Root} (stored : e.ledger.network = some p.bytes)
    (supplied : c.network? = some network) (other : network ≠ p) :
    e.call c = (.error (.otherNetwork network p), e) := by
  obtain ⟨fs, a, e', attempted⟩ := kept.attempt_supplied supplied
  rw [networkFaults_of_stored stored, if_neg other] at attempted
  exact call_barring attempted

theorem Kept.takes_of_accepts (kept : e.Kept) (accepts : e.Accepts c network) :
    e.ledger.Takes network ∧ (e.call c).2.ledger.network = some network.bytes := by
  cases accepts with
  | approval approved =>
    obtain ⟨decides, allowed⟩ := kept.approved_iff.mp approved
    have adopted := Ledger.network_adopt decides.takes
    rw [kept.call_sign (History.not_inverted_of_judge allowed) decides]
    refine ⟨decides.takes, ?_⟩
    split
    · exact adopted
    · exact adopted
  | entries read entries imported =>
    obtain ⟨none, after⟩ := call_barring_ok (kept.attempt_import read entries) imported
    rw [after]
    exact ⟨((faults_eq_nil kept.ledger).mp none).1, kept.network_imported none⟩
  | pin pinned =>
    obtain ⟨none, after⟩ := call_barring_ok (kept.attempt_pin network) pinned
    have takes := (networkFaults_eq_nil kept.ledger).mp none
    rw [after]
    exact ⟨takes, Ledger.network_adopt takes⟩

theorem Kept.unpinned_of_none (kept : e.Kept) (free : e.ledger.network = none) :
    e.guard.pinned = none := by
  cases pinned : e.guard.pinned with
  | none => rfl
  | some p =>
    have stored := kept.guard p pinned
    rw [free] at stored
    cases stored

theorem takes_of_none {l : Ledger} (free : l.network = none) (network : Root) :
    l.Takes network := Ledger.takes_iff_network.mpr (.inl free)

theorem Kept.pins (kept : e.Kept) (free : e.ledger.network = none) (network : Root) :
    (e.call (.pinNetwork network)).1 = .ok .done ∧
      (e.call (.pinNetwork network)).2.ledger.network = some network.bytes := by
  have attempted := kept.attempt_pin network
  rw [networkFaults_of_none free] at attempted
  rw [call_barring attempted]
  exact ⟨rfl, Ledger.network_adopt (takes_of_none free network)⟩

/-- Without a network nothing is stored, so every request in range is approved. -/
theorem Kept.approves (kept : e.Kept) (free : e.ledger.network = none) (network : Root) {id : Int}
    {r : Record} (registered : e.ledger.isRegistered id = true) (fits : r.Fits)
    (range : ¬ r.Inverted) :
    (e.call (.sign id network r)).1 = .ok (.verdict (.allowed .valid)) := by
  have empty : e.ledger.history id = .empty :=
    not_not.mp fun some => kept.ledger.known id some free
  refine kept.approved_iff.mpr ⟨⟨takes_of_none free network, registered, fits⟩, ?_⟩
  rw [empty, History.judge_empty range]

/-- A store belongs to one network. Once stored it stays, and whatever is held is stored; a call
succeeds on that network only and fails on any other. Where none is stored, a call that fails leaves
neither a stored network nor a held one, so that any can still be pinned or brought by a request. -/
theorem Reached.one_network (reached : e.Reached) :
    (∀ bytes, e.ledger.network = some bytes → ∃ p : Root, p.bytes = bytes ∧
      ∀ cs, (e.run cs).ledger.network = some p.bytes) ∧
    (∀ p, e.guard.pinned = some p → e.ledger.network = some p.bytes) ∧
    (∀ c r, e.Accepts c r → (∀ p : Root, e.ledger.network = some p.bytes → r = p) ∧
      (e.call c).2.ledger.network = some r.bytes) ∧
    (∀ c r p, e.ledger.network = some p.bytes → c.network? = some r → r ≠ p →
      e.call c = (.error (.otherNetwork r p), e)) ∧
    (∀ c f, e.ledger.network = none → (e.call c).1 = .error f →
      (e.call c).2.ledger.network = none ∧ (e.call c).2.guard.pinned = none ∧
      ∀ r, ((e.call c).2.call (.pinNetwork r)).1 = .ok .done ∧
        ((e.call c).2.call (.pinNetwork r)).2.ledger.network = some r.bytes ∧
        ∀ id x, e.ledger.isRegistered id = true → x.Fits → ¬ x.Inverted →
          ((e.call c).2.call (.sign id r x)).1 = .ok (.verdict (.allowed .valid))) := by
  have kept := reached.kept
  refine ⟨?stays, kept.guard, ?accepted, ?refused, ?free⟩
  case stays =>
    intro bytes stored
    refine ⟨⟨bytes, kept.ledger.network bytes stored⟩, rfl, fun cs => ?_⟩
    exact ((kept.run_moved cs).grows kept.ledger).network bytes stored
  case accepted =>
    intro c r accepts
    obtain ⟨takes, after⟩ := kept.takes_of_accepts accepts
    exact ⟨fun p stored => (takes_iff stored).mp takes, after⟩
  case refused => exact fun c r p stored => kept.refuses_other stored
  case free =>
    intro c f free fails
    rw [call_error_unchanged fails]
    refine ⟨free, kept.unpinned_of_none free, fun r => ?_⟩
    obtain ⟨pinned, stored⟩ := kept.pins free r
    exact ⟨pinned, stored, fun id x => kept.approves free r⟩

theorem one_network_second :
    ((fresh.run [.register [.single 1], .maySignBlock 7 ⟨⟨1⟩, .filled 1⟩ (.filled 2)]).call
        (.maySignBlock 1 ⟨⟨1⟩, .filled 1⟩ (.filled 3))).1 = .ok (.verdict (.allowed .valid)) ∧
      ((fresh.run [.register [.single 1], .maySignBlock 7 ⟨⟨1⟩, .filled 1⟩ (.filled 2),
        .maySignBlock 1 ⟨⟨1⟩, .filled 1⟩ (.filled 3)]).call (.pinNetwork (.filled 2))).1 =
        .error (.otherNetwork (.filled 2) (.filled 3)) := by
  refine ⟨by decide, ?_⟩
  rw [(reached_run .fresh _).one_network.2.2.2.1 _ (.filled 2) (.filled 3) (by decide) rfl
    (by decide)]

end Engine

end SlashGuard
