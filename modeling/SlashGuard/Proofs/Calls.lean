import SlashGuard.Engine
import SlashGuard.Proofs.SigningRules
import SlashGuard.Proofs.PruningRules
import SlashGuard.Proofs.ImportRules

/-! Calls of an engine that reads and writes, as equations. Barring faults, each gives its answer and
leaves its ledger, and one that fails leaves the engine as it was. A request to sign is answered by
the verdict on the history of the validator; it meets an objection to the network first, then asks
for the validator, then meets a number out of range. -/
namespace SlashGuard

def Call.sign (id : Int) (network : Root) : Record → Call
  | .block b => .maySignBlock id b network
  | .attestation a => .maySignAttestation id a network

theorem Call.sign_injective {id id' : Int} {network network' : Root} {r r' : Record}
    (h : Call.sign id network r = Call.sign id' network' r') :
    id = id' ∧ network = network' ∧ r = r' := by
  cases r with
  | block b =>
    cases r' with
    | block b' =>
      cases h
      exact ⟨rfl, rfl, rfl⟩
    | attestation a' => cases h
  | attestation a =>
    cases r' with
    | block b' => cases h
    | attestation a' =>
      cases h
      exact ⟨rfl, rfl, rfl⟩

theorem Call.sign_ne_importText {id : Int} {network : Root} {r : Record}
    {s : Text.Utf8.Source} : Call.sign id network r ≠ .importText s := by
  cases r <;> nofun

instance {α : Type} [DecidableEq α] : DecidableEq (Except Failure α)
  | .ok a, .ok b => decidable_of_iff (a = b) (by simp)
  | .error f, .error g => decidable_of_iff (f = g) (by simp)
  | .ok _, .error _ => .isFalse nofun
  | .error _, .ok _ => .isFalse nofun

namespace Engine

/-- The invariant of an engine that nothing has restricted: the network that it holds is stored. -/
structure Kept (e : Engine) : Prop where
  ledger : e.ledger.Kept
  access : e.access = .full
  guard : ∀ r, e.guard.pinned = some r → e.ledger.network = some r.bytes

theorem Kept.fresh : Engine.fresh.Kept := ⟨Ledger.Kept.fresh, rfl, nofun⟩

variable {e : Engine}

theorem Kept.writer_eq (kept : e.Kept) (writes : Ledger → Bool) :
    e.writer writes = .ok e.ledger := by
  simp only [writer, kept.access]

theorem Kept.reader_eq (kept : e.Kept) : e.reader = .ok e.ledger := by
  simp only [reader, kept.access]

theorem call_cases (e : Engine) (c : Call) : (∃ f, e.call c = (.error f, e)) ∨
    ∃ a e', e.attempt c = .ok (a, e') ∧ e.call c = (.ok a, e') := by
  unfold call
  cases e.attempt c with
  | error f => exact .inl ⟨f, rfl⟩
  | ok answer => exact .inr ⟨answer.1, answer.2, rfl, rfl⟩

theorem call_error_unchanged {c : Call} {f : Failure} (failed : (e.call c).1 = .error f) :
    (e.call c).2 = e := by
  rcases call_cases e c with ⟨g, fails⟩ | ⟨a, e', -, called⟩
  · rw [fails]
  · rw [called] at failed
    cases failed

theorem call_of_reading {α : Type} {c : Call} {x : Except Failure α} {f : α → Answer}
    (reads : e.attempt c = x.map fun a => (f a, e)) : e.call c = (x.map f, e) := by
  rw [call, reads]
  cases x <;> rfl

theorem call_barring {c : Call} {fs : List Failure} {a : Answer} {e' : Engine}
    (attempted : e.attempt c = barring fs (a, e')) :
    e.call c = (barring fs a, if fs = [] then e' else e) := by
  cases fs with
  | nil => simp [call, attempted, barring]
  | cons f fs => simp [call, attempted, barring]

theorem call_barring_ok {fs : List Failure} {a b : Answer} {e' : Engine}
    (attempted : e.attempt c = barring fs (a, e')) (ok : (e.call c).1 = .ok b) :
    fs = [] ∧ (e.call c).2 = e' := by
  rw [call_barring attempted] at ok ⊢
  obtain ⟨none, -⟩ := barring_eq_ok.mp ok
  exact ⟨none, if_pos none⟩

theorem takes_iff {l : Ledger} {p r : Root} (stored : l.network = some p.bytes) :
    l.Takes r ↔ r = p := by
  constructor
  · intro takes
    exact Root.ext_bytes (takes p.bytes stored).symm
  · rintro rfl bytes known
    rw [stored] at known
    exact (Option.some.inj known).symm

theorem adopt_eq_of_stored {l : Ledger} {p : Root} (stored : l.network = some p.bytes) (r : Root) :
    l.adopt r = l := Ledger.adopt_eq_self (by simp [stored]) r

theorem networkFaults_of_stored {l : Ledger} {p : Root} (stored : l.network = some p.bytes)
    (r : Root) : l.networkFaults r = if r = p then [] else [.otherNetwork r p] := by
  simp only [Ledger.networkFaults, Ledger.readNetwork, stored, readRoot_eq, Except.map]

theorem networkFaults_of_none {l : Ledger} (free : l.network = none) (r : Root) :
    l.networkFaults r = [] := by
  simp only [Ledger.networkFaults, Ledger.readNetwork, free]

theorem networkFaults_eq_nil {l : Ledger} (kept : l.Kept) {r : Root} :
    l.networkFaults r = [] ↔ l.Takes r := by
  cases known : l.network with
  | none => simp [networkFaults_of_none known, Ledger.Takes, known]
  | some bytes =>
    obtain ⟨p, stored⟩ : ∃ p : Root, l.network = some p.bytes :=
      ⟨⟨bytes, kept.network bytes known⟩, known⟩
    rw [networkFaults_of_stored stored, takes_iff stored]
    split <;> simp_all

theorem compare_barring (r p : Root) :
    Guard.compare r p = barring (if r = p then [] else [.otherNetwork r p]) () := by
  unfold Guard.compare
  split <;> rfl

/-- What is held is stored, so the ledger alone decides on a network. -/
theorem Kept.accept_eq (kept : e.Kept) (r : Root) :
    e.guard.accept e.ledger r = barring (e.ledger.networkFaults r) (e.ledger.adopt r) := by
  unfold Guard.accept
  cases pinned : e.guard.pinned with
  | some p =>
    have stored := kept.guard p pinned
    rw [networkFaults_of_stored stored, adopt_eq_of_stored stored]
    simp only [compare_barring]
    exact barring_last fun _ => rfl
  | none =>
    cases known : e.ledger.network with
    | none =>
      rw [networkFaults_of_none known]
      simp only [Ledger.readNetwork, known]
      rfl
    | some bytes =>
      obtain ⟨p, rfl⟩ : ∃ p : Root, p.bytes = bytes :=
        ⟨⟨bytes, kept.ledger.network bytes known⟩, rfl⟩
      rw [networkFaults_of_stored known, adopt_eq_of_stored known]
      simp only [Ledger.readNetwork, known, readRoot_eq, Except.map, ok_bind, compare_barring]
      exact barring_last fun _ => rfl

theorem check_eq_accept (g : Guard) (l : Ledger) (r : Root) :
    g.check l r = g.accept l r >>= fun _ => .ok () := by
  unfold Guard.check Guard.accept
  cases g.pinned with
  | some p =>
    simp only
    cases Guard.compare r p <;> rfl
  | none =>
    simp only
    cases l.readNetwork with
    | error f => rfl
    | ok known =>
      cases known with
      | none => rfl
      | some stored =>
        simp only [ok_bind]
        cases Guard.compare r stored <;> rfl

theorem Kept.check_network (kept : e.Kept) (r : Root) :
    e.guard.check e.ledger r = barring (e.ledger.networkFaults r) () := by
  rw [check_eq_accept, kept.accept_eq]
  exact barring_last fun _ => rfl

theorem Kept.attempt_pin (kept : e.Kept) (network : Root) : e.attempt (.pinNetwork network) =
      barring (e.ledger.networkFaults network) (.done, { e with
        ledger := e.ledger.adopt network, guard := e.guard.pin network }) := by
  have pinned : e.pinNetwork network = barring (e.ledger.networkFaults network)
      { e with ledger := e.ledger.adopt network, guard := e.guard.pin network } := by
    simp only [pinNetwork, kept.writer_eq, ok_bind, kept.accept_eq]
    exact barring_last fun _ => rfl
  rw [attempt, pinned, barring_map]

def decided (e : Engine) (network : Root) (answer : Verdict × Ledger) : Answer × Engine :=
  (.verdict answer.1, { e with ledger := answer.2, guard := e.guard.pin network })

theorem Kept.attempt_sign (kept : e.Kept) {id : Int} {network : Root} {r : Record}
    (range : ¬ r.Inverted) : e.attempt (.sign id network r) =
      (e.guard.accept e.ledger network >>= fun l => Signing.check l id r).map
        (e.decided network) := by
  cases r with
  | block b =>
    simp only [Call.sign, attempt, maySignBlock, kept.writer_eq, ok_bind, Signing.check]
    cases (e.guard.accept e.ledger network >>= fun l => Signing.checkBlock l id b) <;> rfl
  | attestation a =>
    have forward : ¬ a.target.number < a.source.number := range
    simp only [Call.sign, attempt, maySignAttestation, Signing.checkRange, if_neg forward,
      kept.writer_eq, ok_bind, Signing.check]
    cases (e.guard.accept e.ledger network >>= fun l => Signing.checkAttestation l id a) <;> rfl

theorem Kept.attempt_request (kept : e.Kept) {id : Int} {network : Root} {r : Record}
    (range : ¬ r.Inverted) : e.attempt (.sign id network r) =
      barring (e.ledger.networkFaults network ++ Signing.faults (e.ledger.isRegistered id) id r)
        (.verdict ((e.ledger.history id).judge r), { e with
          ledger := (e.ledger.adopt network).put id ((e.ledger.history id).asked r)
          guard := e.guard.pin network }) := by
  have adopted := kept.ledger.adopt network
  have checked := Signing.check_barring (adopted.histories id).legible adopted.distinct range
  rw [Ledger.isRegistered_adopt, Ledger.history_adopt] at checked
  have both : (e.guard.accept e.ledger network >>= fun l => Signing.check l id r) =
      barring (e.ledger.networkFaults network ++ Signing.faults (e.ledger.isRegistered id) id r)
        ((e.ledger.history id).judge r,
          (e.ledger.adopt network).put id ((e.ledger.history id).asked r)) := by
    rw [kept.accept_eq]
    exact barring_bind fun _ => checked
  rw [kept.attempt_sign range, both, barring_map]
  rfl

/-- A request that is decided: its network is the stored one, if any, its validator is registered,
and its record fits the store. -/
structure Decides (e : Engine) (id : Int) (network : Root) (r : Record) : Prop where
  takes : e.ledger.Takes network
  registered : e.ledger.isRegistered id = true
  fits : r.Fits

theorem Decides.registered_adopt {id : Int} {network : Root} {r : Record}
    (decides : e.Decides id network r) : (e.ledger.adopt network).isRegistered id = true := by
  rw [Ledger.isRegistered_adopt]
  exact decides.registered

theorem Kept.decides_of_stores (kept : e.Kept) {id : Int} {network : Root} {r : Record}
    (stored : (e.ledger.history id).Stores r) (known : e.ledger.network = some network.bytes) :
    e.Decides id network r ∧ ¬ r.Inverted := by
  obtain ⟨fits, range⟩ := (kept.ledger.histories id).fits_of_stores stored
  have registered := Ledger.registered_of_history (History.ne_empty_of_stores stored)
  exact ⟨⟨(takes_iff known).mpr rfl, registered, fits⟩, range⟩

theorem Kept.decides_iff_faults (kept : e.Kept) {id : Int} {network : Root} {r : Record}
    (range : ¬ r.Inverted) : e.Decides id network r ↔
      e.ledger.networkFaults network ++ Signing.faults (e.ledger.isRegistered id) id r = [] := by
  rw [List.append_eq_nil_iff, networkFaults_eq_nil kept.ledger, Signing.faults_eq_nil range]
  exact ⟨fun decides => ⟨decides.takes, decides.registered, decides.fits⟩,
    fun ⟨takes, registered, fits⟩ => ⟨takes, registered, fits⟩⟩

/-- A request that is decided is answered by the verdict on the history, and stored if it is
fresh. -/
theorem Kept.call_sign (kept : e.Kept) {id : Int} {network : Root} {r : Record}
    (range : ¬ r.Inverted) (decides : e.Decides id network r) :
    e.call (.sign id network r) = (.ok (.verdict ((e.ledger.history id).judge r)), { e with
      ledger := if (e.ledger.history id).judge r = .allowed .valid then
          (e.ledger.adopt network).put id ((e.ledger.history id).sign r)
        else e.ledger.adopt network
      guard := e.guard.pin network }) := by
  have adopted := kept.ledger.adopt network
  have ledger : (e.ledger.adopt network).put id ((e.ledger.history id).asked r) =
      if (e.ledger.history id).judge r = .allowed .valid then
        (e.ledger.adopt network).put id ((e.ledger.history id).sign r)
      else e.ledger.adopt network := by
    simp only [History.asked]
    split
    · rfl
    · rw [← Ledger.history_adopt e.ledger network id, Ledger.put_history adopted.distinct]
  have attempted := @Kept.attempt_request e kept id network r range
  rw [(kept.decides_iff_faults range).mp decides, ledger] at attempted
  exact call_barring attempted

theorem call_sign_inverted {id : Int} {network : Root} {r : Record} (inverted : r.Inverted) :
    e.call (.sign id network r) = (.ok (.verdict (.refused .invalidRange)), e) := by
  cases r with
  | block b => exact False.elim inverted
  | attestation a =>
    have backward : a.target.number < a.source.number := inverted
    simp only [Call.sign, call, attempt, maySignAttestation, Signing.checkRange, if_pos backward]
    rfl

theorem Kept.call_sign_fails (kept : e.Kept) {id : Int} {network : Root} {r : Record}
    (range : ¬ r.Inverted) (fails : ¬ e.Decides id network r) :
    ∃ f, e.call (.sign id network r) = (.error f, e) := by
  have attempted := @Kept.attempt_request e kept id network r range
  cases objected : e.ledger.networkFaults network ++
      Signing.faults (e.ledger.isRegistered id) id r with
  | nil => exact False.elim (fails ((kept.decides_iff_faults range).mpr objected))
  | cons f fs =>
    rw [objected] at attempted
    exact ⟨f, call_barring attempted⟩

/-- But for inverted attestations, a verdict is answered exactly where the request is decided and
that is the verdict on the history. -/
theorem Kept.answer_iff (kept : e.Kept) {id : Int} {network : Root} {r : Record} {v : Verdict}
    (other : v ≠ .refused .invalidRange) :
    (e.call (.sign id network r)).1 = .ok (.verdict v) ↔
      e.Decides id network r ∧ (e.ledger.history id).judge r = v := by
  by_cases inverted : r.Inverted
  · rw [call_sign_inverted inverted, History.judge_invalidRange.mpr inverted]
    simp [other.symm]
  · by_cases decides : e.Decides id network r
    · rw [kept.call_sign inverted decides]
      simp [decides]
    · obtain ⟨f, fails⟩ := kept.call_sign_fails inverted decides
      rw [fails]
      simp [decides]

theorem Kept.approved_iff (kept : e.Kept) {id : Int} {network : Root} {r : Record} {safe : Safe} :
    (e.call (.sign id network r)).1 = .ok (.verdict (.allowed safe)) ↔
      e.Decides id network r ∧ (e.ledger.history id).judge r = .allowed safe :=
  kept.answer_iff nofun

theorem Kept.call_register (kept : e.Kept) (keys : List PublicKey) :
    e.call (.register keys) = (.ok (.ids (e.ledger.enrollAll keys).1),
      { e with ledger := (e.ledger.enrollAll keys).2 }) := by
  simp only [Engine.call, attempt, register, kept.writer_eq, ok_bind, pure_ok, Except.map]

theorem Kept.call_lookup (kept : e.Kept) (key : PublicKey) :
    e.call (.lookup key) = (.ok (.id (e.ledger.idOf key)), e) := by
  simp only [Engine.call, attempt, lookup, kept.reader_eq, ok_bind, pure_ok, Except.map]

theorem attempt_prune {id : Int} (access : e.access = .full) (distinct : e.ledger.ids.Nodup)
    (ranged : (e.ledger.history id).Ranged) (keep : Nat) : e.attempt (.prune keep id) =
      barring ((e.ledger.history id).pruneFaults keep)
        (.outcome ((e.ledger.history id).pruneOutcome keep id),
          { e with ledger := e.ledger.put id ((e.ledger.history id).pruned keep) }) := by
  have pruned : e.prune keep id = barring ((e.ledger.history id).pruneFaults keep)
      ((e.ledger.history id).pruneOutcome keep id,
        { e with ledger := e.ledger.put id ((e.ledger.history id).pruned keep) }) := by
    simp only [prune, writer, access, ok_bind, Pruning.prune_barring ranged distinct]
    exact barring_last fun _ => rfl
  rw [attempt, pruned, barring_map]

theorem Kept.attempt_prune (kept : e.Kept) (keep : Nat) (id : Int) :
    e.attempt (.prune keep id) = barring ((e.ledger.history id).pruneFaults keep)
      (.outcome ((e.ledger.history id).pruneOutcome keep id),
        { e with ledger := e.ledger.put id ((e.ledger.history id).pruned keep) }) :=
  Engine.attempt_prune kept.access kept.ledger.distinct (kept.ledger.histories id).legible.ranged
    keep

theorem Kept.attempt_pruneAll (kept : e.Kept) (keep : Nat) : e.attempt (.pruneAll keep) =
      barring (if keep = 0 then [.nothingKept] else [])
        (.pruned (e.ledger.ids.foldl (Pruning.pruneNext keep) (.none, e.ledger)).1, { e with
          ledger := (e.ledger.ids.foldl (Pruning.pruneNext keep) (.none, e.ledger)).2 }) := by
  have writes : e.access ≠ .reading := by
    rw [kept.access]
    nofun
  simp only [attempt, pruneAll, kept.writer_eq, if_neg writes, ok_bind, Pruning.pruneAll]
  split <;> rfl

theorem call_watermark {id : Int} (access : e.access = .full)
    (ranged : (e.ledger.history id).Ranged) :
    e.call (.watermark id) = (.ok (.watermark ((e.ledger.history id).mark id)), e) := by
  have read : e.watermark id = .ok ((e.ledger.history id).mark id) := by
    simp only [watermark, reader, access, ok_bind]
    exact Ledger.watermark_eq ranged
  have reads : e.attempt (.watermark id) = (e.watermark id).map fun w => (.watermark w, e) := rfl
  rw [call_of_reading reads, read]
  rfl

theorem Kept.call_watermark (kept : e.Kept) (id : Int) :
    e.call (.watermark id) = (.ok (.watermark ((e.ledger.history id).mark id)), e) :=
  Engine.call_watermark kept.access (kept.ledger.histories id).legible.ranged

def imported (e : Engine) (d : Document) : Engine :=
  { e with
    ledger := (e.ledger.adopt d.metadata.network).absorbAll d.histories
    guard := e.guard.pin d.metadata.network }

def importSummary (e : Engine) (d : Document) : ImportSummary :=
  ImportSummary.none.addHistories (e.ledger.adopt d.metadata.network) d.histories

theorem Kept.importDocument_eq (kept : e.Kept) {d : Document} (entries : d.histories ≠ []) :
    e.importDocument d = barring (d.faults e.ledger) (e.importSummary d, e.imported d) := by
  have body : Import.document e.guard e.ledger d = barring (d.faults e.ledger)
      (e.importSummary d, (e.imported d).guard, (e.imported d).ledger) := by
    simp only [Import.document, kept.accept_eq]
    refine barring_bind fun none => ?_
    have takes := (networkFaults_eq_nil kept.ledger).mp none
    have adopted := Ledger.network_adopt takes
    rw [Import.addHistories_eq (kept.ledger.adopt _) (by simp [adopted])]
    exact barring_last fun _ => rfl
  simp only [importDocument, kept.writer_eq, ok_bind, body]
  exact barring_last fun _ => rfl

theorem faults_eq_nil {l : Ledger} (kept : l.Kept) {d : Document} :
    d.faults l = [] ↔ l.Takes d.metadata.network ∧ ∀ h ∈ d.histories, h.Good := by
  rw [Document.faults, List.append_eq_nil_iff, networkFaults_eq_nil kept, List.flatMap_eq_nil_iff]
  exact and_congr_right' (forall₂_congr fun _ _ => KeyHistory.faults_eq_nil)

theorem Kept.importDocument_nothing (kept : e.Kept) {d : Document} (none : d.histories = []) :
    e.importDocument d = barring (e.ledger.networkFaults d.metadata.network) (.none, e) := by
  have body : Import.document e.guard e.ledger d =
      barring (e.ledger.networkFaults d.metadata.network) (.none, e.guard, e.ledger) := by
    simp only [Import.document, none, kept.check_network]
    exact barring_last fun _ => rfl
  simp only [importDocument, kept.writer_eq, ok_bind, body]
  exact barring_last fun _ => rfl

theorem Kept.attempt_import (kept : e.Kept) {s : Text.Utf8.Source} {d : Document}
    (read : Document.read s = .ok d) (entries : d.histories ≠ []) :
    e.attempt (.importText s) =
      barring (d.faults e.ledger) (.imported (e.importSummary d), e.imported d) := by
  simp only [attempt, importText, read, kept.importDocument_eq entries, barring_map]

theorem Kept.attempt_import_nothing (kept : e.Kept) {s : Text.Utf8.Source} {d : Document}
    (read : Document.read s = .ok d) (none : d.histories = []) :
    e.attempt (.importText s) =
      barring (e.ledger.networkFaults d.metadata.network) (.imported .none, e) := by
  simp only [attempt, importText, read, kept.importDocument_nothing none, barring_map]

/-- An import of a document fails, or changes nothing for want of entries, or stores the entries
after the network. -/
theorem Kept.importDocument_cases (kept : e.Kept) (d : Document) :
    (∃ f, e.importDocument d = .error f) ∨ ∃ summary,
      (d.histories = [] ∧ e.importDocument d = .ok (summary, e)) ∨
      (d.faults e.ledger = [] ∧ e.importDocument d = .ok (summary, e.imported d)) := by
  by_cases entries : d.histories = []
  · have outcome := kept.importDocument_nothing entries
    cases faults : e.ledger.networkFaults d.metadata.network with
    | nil =>
      rw [faults] at outcome
      exact .inr ⟨_, .inl ⟨entries, outcome⟩⟩
    | cons f fs =>
      rw [faults] at outcome
      exact .inl ⟨f, outcome⟩
  · have outcome := kept.importDocument_eq entries
    cases faults : d.faults e.ledger with
    | nil =>
      rw [faults] at outcome
      exact .inr ⟨_, .inr ⟨rfl, outcome⟩⟩
    | cons f fs =>
      rw [faults] at outcome
      exact .inl ⟨f, outcome⟩

theorem call_importText_unread {s : Text.Utf8.Source} {fault : InputFault}
    (read : Document.read s = .error fault) :
    e.call (.importText s) = (.error (.input fault), e) := by
  simp only [call, attempt, importText, read, Except.map]

theorem call_importText_ok {s : Text.Utf8.Source} {d : Document} (read : Document.read s = .ok d)
    {summary : ImportSummary} {e' : Engine} (imported : e.importDocument d = .ok (summary, e')) :
    e.call (.importText s) = (.ok (.imported summary), e') := by
  simp only [call, attempt, importText, read, imported, Except.map]

theorem call_importText_error {s : Text.Utf8.Source} {d : Document}
    (read : Document.read s = .ok d) {f : Failure} (failed : e.importDocument d = .error f) :
    e.call (.importText s) = (.error f, e) := by
  simp only [call, attempt, importText, read, failed, Except.map]

theorem Kept.call_exportText (kept : e.Kept) {d : Document}
    (exported : Export.document e.ledger = .ok d) :
    e.call .exportText = (.ok (.text d.page), e) := by
  simp only [call, attempt, exportText, exportDocument, kept.writer_eq, ok_bind, exported]
  rfl

end Engine

end SlashGuard
