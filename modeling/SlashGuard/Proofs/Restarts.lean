import SlashGuard.Proofs.OneNetwork
import SlashGuard.Proofs.Openings

/-! Restarts. What an engine holds of the network is stored as well, so it answers and stores as one
that holds nothing over the same ledger; a ledger that calls have led to is of the current schema,
so opening it changes nothing; and the file of a store gives the ledger that was kept in it. -/
namespace SlashGuard

theorem Ledger.Moves.version {told : Int → Record → Prop} {l l' : Ledger}
    (moves : Moves told l l') : l'.version = l.version := by
  induction moves with
  | refl => rfl
  | tail _ move ih => cases move <;> simp [ih]

theorem Ledger.migrate_eq_self {l : Ledger} {v : Int} (current : l.version = some v) :
    l.migrate = l := by
  cases l
  simp_all [Ledger.migrate]

namespace Engine

variable {e e' : Engine}

theorem Reached.version (reached : e.Reached) : e.ledger.version = some schemaVersion := by
  induction reached with
  | fresh => rfl
  | call reached c ih => exact (reached.kept.call_moved c).moves.version.trans ih
  | reopen _ opened ih =>
    rw [load_ok opened]
    exact ih

theorem load_current {l : Ledger} (current : l.version = some schemaVersion) :
    load l = .ok (unpinned l) := by
  simp [load, Ledger.checkVersion, current]

theorem create_current {l : Ledger} (current : l.version = some schemaVersion) :
    create l = .ok (unpinned l) := by
  rw [create, Ledger.migrate_eq_self current, load_current current]

def Agree (e e' : Engine) (c : Call) : Prop :=
  (e.call c).1 = (e'.call c).1 ∧ (e.call c).2.ledger = (e'.call c).2.ledger

theorem agree_of_barring {c : Call} (same : e.ledger = e'.ledger) {fs : List Failure} {a : Answer}
    {e1 e2 : Engine} (left : e.attempt c = barring fs (a, e1))
    (right : e'.attempt c = barring fs (a, e2)) (stored : e1.ledger = e2.ledger) :
    Agree e e' c := by
  rw [Agree, call_barring left, call_barring right]
  cases fs with
  | nil => exact ⟨rfl, stored⟩
  | cons f fs => exact ⟨rfl, same⟩

theorem Kept.agree_sign (kept : e.Kept) (kept' : e'.Kept) (same : e.ledger = e'.ledger) (id : Int)
    (network : Root) (r : Record) : Agree e e' (.sign id network r) := by
  by_cases inverted : r.Inverted
  · rw [Agree, call_sign_inverted inverted, call_sign_inverted inverted]
    exact ⟨rfl, same⟩
  · have right := @Kept.attempt_request e' kept' id network r inverted
    rw [← same] at right
    exact agree_of_barring same (kept.attempt_request inverted) right rfl

theorem Kept.agree_import (kept : e.Kept) (kept' : e'.Kept) (same : e.ledger = e'.ledger)
    (s : Text.Utf8.Source) : Agree e e' (.importText s) := by
  cases read : Document.read s with
  | error fault =>
    rw [Agree, call_importText_unread read, call_importText_unread read]
    exact ⟨rfl, same⟩
  | ok d =>
    by_cases entries : d.histories = []
    · have right := kept'.attempt_import_nothing read entries
      rw [← same] at right
      exact agree_of_barring same (kept.attempt_import_nothing read entries) right same
    · have right := kept'.attempt_import read entries
      rw [importSummary, ← same] at right
      refine agree_of_barring same (kept.attempt_import read entries) right ?_
      simp only [Engine.imported, same]

/-- What an engine does depends on its ledger alone, whatever network it holds. -/
theorem Kept.agree (kept : e.Kept) (kept' : e'.Kept) (same : e.ledger = e'.ledger) (c : Call) :
    Agree e e' c := by
  cases c with
  | register keys =>
    rw [Agree, kept.call_register, kept'.call_register, same]
    exact ⟨rfl, rfl⟩
  | lookup key =>
    rw [Agree, kept.call_lookup, kept'.call_lookup, same]
    exact ⟨rfl, rfl⟩
  | maySignBlock id b network => exact kept.agree_sign kept' same id network (.block b)
  | maySignAttestation id a network => exact kept.agree_sign kept' same id network (.attestation a)
  | watermark id =>
    rw [Agree, kept.call_watermark, kept'.call_watermark, same]
    exact ⟨rfl, rfl⟩
  | prune keep id =>
    have right := kept'.attempt_prune keep id
    rw [← same] at right
    exact agree_of_barring same (kept.attempt_prune keep id) right rfl
  | pruneAll keep =>
    have right := kept'.attempt_pruneAll keep
    rw [← same] at right
    exact agree_of_barring same (kept.attempt_pruneAll keep) right rfl
  | importText s => exact kept.agree_import kept' same s
  | exportText =>
    have text : e.exportText = e'.exportText := by
      simp only [exportText, exportDocument, kept.writer_eq, kept'.writer_eq, same]
    have left : e.attempt .exportText = e.exportText.map fun s => (.text s, e) := rfl
    have right : e'.attempt .exportText = e'.exportText.map fun s => (.text s, e') := rfl
    rw [Agree, call_of_reading left, call_of_reading right, text]
    exact ⟨rfl, same⟩
  | pinNetwork network =>
    have right := kept'.attempt_pin network
    rw [← same] at right
    exact agree_of_barring same (kept.attempt_pin network) right rfl

theorem Kept.transcript_eq (kept : e.Kept) (kept' : e'.Kept) (same : e.ledger = e'.ledger)
    (cs : List Call) :
    e.transcript cs = e'.transcript cs ∧ (e.run cs).ledger = (e'.run cs).ledger := by
  induction cs generalizing e e' with
  | nil => exact ⟨rfl, same⟩
  | cons c cs ih =>
    obtain ⟨answer, stored⟩ := kept.agree kept' same c
    obtain ⟨rest, final⟩ := ih (kept.call c) (kept'.call c) stored
    simp only [transcript, run_cons, answer, rest, final, and_self]

/-- What happens to a store: a call, or it is closed and opened again, be it as one to create. -/
inductive Event
  | call (c : Call)
  | load
  | create

def Event.call? : Event → Option Call
  | .call c => some c
  | .load | .create => none

def play (e : Engine) :
    List Event → Except Failure (List (Call × Except Failure Answer) × Engine)
  | [] => .ok ([], e)
  | .call c :: es => do
    let (answers, last) ← (e.call c).2.play es
    return ((c, (e.call c).1) :: answers, last)
  | .load :: es => do (← load e.ledger).play es
  | .create :: es => do (← create e.ledger).play es

theorem Reached.play_eq (reached : e.Reached) (reached' : e'.Reached)
    (same : e'.ledger = e.ledger) (es : List Event) :
    ∃ last, e'.play es = .ok (e.transcript (es.filterMap Event.call?), last) ∧ last.Reached ∧
      last.ledger = (e.run (es.filterMap Event.call?)).ledger := by
  -- Opening the store between two calls gives another engine over the ledger of the first.
  induction es generalizing e e' with
  | nil => exact ⟨e', rfl, reached', same⟩
  | cons event es ih =>
    have current := reached'.version
    have opened := load_current current
    cases event with
    | call c =>
      obtain ⟨answer, stored⟩ := reached'.kept.agree reached.kept same c
      obtain ⟨last, played, whole⟩ := ih (reached.call c) (reached'.call c) stored
      exact ⟨last, by simp [play, played, answer, Event.call?, transcript], whole⟩
    | load =>
      obtain ⟨last, played, whole⟩ := ih reached (reached'.reopen opened) same
      refine ⟨last, ?_, whole⟩
      simp only [play, opened, ok_bind]
      exact played
    | create =>
      obtain ⟨last, played, whole⟩ := ih reached (reached'.reopen opened) same
      refine ⟨last, ?_, whole⟩
      simp only [play, create_current current, ok_bind]
      exact played

/-- The same of a store in the file of a name: every ledger is kept there, and opening closes it
first. -/
def playFile (name : String) (e : Engine) (s : Storage) :
    List Event → Work (List (Call × Except Failure Answer) × Engine × Storage)
  | [] => return ([], e, s)
  | .call c :: es => do
    let s ← modifyGet (·.keep (e.call c).2.ledger s)
    let (answers, last) ← playFile name (e.call c).2 s es
    return ((c, (e.call c).1) :: answers, last)
  | .load :: es => do
    modify (·.close s)
    let (e, s) ← Files.openLedger name
    playFile name e s es
  | .create :: es => do
    modify (·.close s)
    let (e, s) ← Files.createLedger name
    playFile name e s es

theorem Reached.playFile_eq (reached : e.Reached) {name : String} {p : Place}
    (spells : Spells name p) {fs : Files} (holds : fs.Holds p e.ledger) {es : List Event}
    {answers : List (Call × Except Failure Answer)} {last : Engine}
    (played : e.play es = .ok (answers, last)) :
    ∃ fs', (playFile name e (.file (.sole p)) es).run fs =
        (.ok (answers, last, .file (.sole p)), fs') ∧ fs'.Holds p last.ledger := by
  induction es generalizing e fs answers with
  | nil =>
    cases played
    exact ⟨fs, rfl, holds⟩
  | cons event es ih =>
    have current := reached.version
    have rests := holds.close spells.some
    have opened := load_current current
    cases event with
    | call c =>
      obtain ⟨⟨rest, last'⟩, next, whole⟩ := bind_eq_ok.mp played
      cases whole
      obtain ⟨fs1, kept, holds1⟩ := holds.keep spells.some (e.call c).2.ledger
      obtain ⟨fs', ran, holds'⟩ := ih (reached.call c) holds1 next
      refine ⟨fs', ?_, holds'⟩
      rw [playFile, run_bind (run_keep kept), run_bind ran]
      rfl
    | load =>
      rw [play, opened, ok_bind] at played
      obtain ⟨fs', ran, holds'⟩ := ih (reached.reopen opened) (rests.opened spells.some) played
      refine ⟨fs', ?_, holds'⟩
      rw [playFile, run_modify_bind, run_bind (rests.openLedger spells current)]
      exact ran
    | create =>
      rw [play, create_current current, ok_bind] at played
      obtain ⟨fs', ran, holds'⟩ := ih (reached.reopen opened) (rests.opened spells.some) played
      refine ⟨fs', ?_, holds'⟩
      rw [playFile, run_modify_bind, run_bind (rests.createLedger spells current)]
      exact ran

/-- Closing a store and opening it again is never noticed: at whatever points of a run that
happens, all calls are answered and all rows stored as if it had not. That holds of a new store in
a file too, where opening reads what was kept. An engine that holds a network and one that holds
none over the same ledger answer all further calls alike. -/
theorem Reached.restarts_unnoticed (reached : e.Reached) :
    (∀ es, ∃ last, e.play es = .ok (e.transcript (es.filterMap Event.call?), last) ∧
      last.ledger = (e.run (es.filterMap Event.call?)).ledger) ∧
    (∀ name p fs es, Spells name p → fs.Vacant p → ∃ last s fs',
      (do let (e, s) ← Files.createLedger name; playFile name e s es).run fs =
        (.ok (Engine.fresh.transcript (es.filterMap Event.call?), last, s), fs') ∧
      fs'.content s = .ok (Engine.fresh.run (es.filterMap Event.call?)).ledger) ∧
    ∀ e' : Engine, e'.Reached → e'.ledger = e.ledger → ∀ cs,
      e'.transcript cs = e.transcript cs ∧ (e'.run cs).ledger = (e.run cs).ledger := by
  refine ⟨?plain, ?file, fun e' reached' same => reached'.kept.transcript_eq reached.kept same⟩
  case plain =>
    intro es
    obtain ⟨last, played, -, stored⟩ := reached.play_eq reached rfl es
    exact ⟨last, played, stored⟩
  case file =>
    intro name p fs es spells vacant
    obtain ⟨fs1, created, holds⟩ := vacant.createLedger spells
    obtain ⟨last, played, -, stored⟩ := Reached.fresh.play_eq .fresh rfl es
    obtain ⟨fs', ran, holds'⟩ := Reached.fresh.playFile_eq spells holds played
    refine ⟨last, .file (.sole p), fs', ?_, ?_⟩
    · rw [run_bind created]
      exact ran
    · rw [holds'.content, stored]

theorem restarts_unnoticed_pinned :
    (∃ last, (fresh.run [.register [.single 1], .pinNetwork (.filled 0)]).play
        [.load, .call (.maySignBlock 1 ⟨⟨1⟩, .filled 1⟩ (.filled 1)), .create,
          .call (.maySignBlock 1 ⟨⟨1⟩, .filled 1⟩ (.filled 0))] =
      .ok ([(.maySignBlock 1 ⟨⟨1⟩, .filled 1⟩ (.filled 1),
          .error (.otherNetwork (.filled 1) (.filled 0))),
        (.maySignBlock 1 ⟨⟨1⟩, .filled 1⟩ (.filled 0), .ok (.verdict (.allowed .valid)))], last)) ∧
    ∃ last s fs', (do
        let (e, s) ← Files.createLedger "/db/s.db"
        playFile "/db/s.db" e s [.call (.pinNetwork (.filled 0)), .load,
          .call (.pinNetwork (.filled 1))]).run ⟨[], [(["db"], .directory)], []⟩ =
      (.ok ([(.pinNetwork (.filled 0), .ok .done),
        (.pinNetwork (.filled 1), .error (.otherNetwork (.filled 1) (.filled 0)))], last, s), fs') := by
  constructor
  · obtain ⟨last, played, -⟩ := (reached_run .fresh
      [.register [.single 1], .pinNetwork (.filled 0)]).restarts_unnoticed.1
      [.load, .call (.maySignBlock 1 ⟨⟨1⟩, .filled 1⟩ (.filled 1)), .create,
        .call (.maySignBlock 1 ⟨⟨1⟩, .filled 1⟩ (.filled 0))]
    exact ⟨last, played.trans (congrArg (fun answers => Except.ok (answers, last)) (by decide))⟩
  · have vacant : (⟨[], [(["db"], .directory)], []⟩ : Files).Vacant ["db", "s.db"] :=
      ⟨⟨Files.leads_short rfl, rfl, rfl, rfl, rfl⟩, rfl⟩
    obtain ⟨last, s, fs', played, -⟩ := Reached.fresh.restarts_unnoticed.2.1 "/db/s.db"
      ["db", "s.db"] ⟨[], [(["db"], .directory)], []⟩
      [.call (.pinNetwork (.filled 0)), .load, .call (.pinNetwork (.filled 1))] spells_short vacant
    exact ⟨last, s, fs', played.trans
      (congrArg (fun answers => (Except.ok (answers, last, s), fs')) (by decide))⟩

end Engine

end SlashGuard
