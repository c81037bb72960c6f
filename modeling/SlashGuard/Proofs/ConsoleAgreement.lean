import SlashGuard.Console.Run
import SlashGuard.Proofs.OtherFiles
import SlashGuard.Proofs.Restarts
import SlashGuard.Proofs.Serving

/-! The console beside the service. A command on the file of a ledger and the request to the same
effect, to a service over that ledger, end alike: the command prints what the reply tells and both
leave one ledger, or both fail for one reason and leave it as it was. -/
namespace SlashGuard

inductive Engine.Alike {α : Type} :
    Except Failure (α × Engine) → Except Failure (α × Engine) → Prop
  | failed (f : Failure) : Alike (.error f) (.error f)
  | done (a : α) {e e' : Engine} (same : e.ledger = e'.ledger) : Alike (.ok (a, e)) (.ok (a, e'))

theorem Engine.alike_of_agree {α : Type} {e e' : Engine} {c : Call}
    {x y : Except Failure (α × Engine)} {f : α → Answer} (inj : ∀ a b, f a = f b → a = b)
    (left : e.attempt c = x.map fun (a, e) => (f a, e))
    (right : e'.attempt c = y.map fun (a, e) => (f a, e)) (agree : e.Agree e' c) : Alike x y := by
  obtain ⟨answer, stored⟩ := agree
  simp only [call, left, right] at answer stored
  cases x with
  | error failure =>
    cases y with
    | error failure' =>
      cases answer
      exact .failed failure
    | ok b => cases answer
  | ok a =>
    cases y with
    | error failure' => cases answer
    | ok b =>
      obtain ⟨a, e1⟩ := a
      obtain ⟨b, e2⟩ := b
      cases inj a b (by simpa [Except.map] using answer)
      exact .done a stored

inductive Complains (what : String) : ClientFailure → String → Prop
  | badKey (fault : InputFault) :
      Complains what (.input fault) ("Invalid public key: " ++ fault.message)
  | unknown (key : PublicKey) : Complains what (.unknownValidator key)
      (what ++ ": " ++ (ServiceFailure.unknownValidator key).message)
  | engine (f : Failure) :
      Complains what (.engine f) (what ++ ": " ++ (ServiceFailure.engine f).message)

theorem keys_cases (texts : List String) :
    (∃ fault, Offline.keys texts = .error (.input fault) ∧
      texts.mapM Service.parseKey = .error ("Invalid public key: " ++ fault.message)) ∨
    ∃ keys, Offline.keys texts = .ok keys ∧ texts.mapM Service.parseKey = .ok keys := by
  have console : Offline.keys texts = (texts.mapM PublicKey.ofHex).mapError .input :=
    mapM_mapError _ _ _
  have service : texts.mapM Service.parseKey =
      (texts.mapM PublicKey.ofHex).mapError fun f => "Invalid public key: " ++ f.message :=
    mapM_mapError _ _ _
  rw [console, service]
  cases texts.mapM PublicKey.ofHex with
  | error fault => exact .inl ⟨fault, rfl, rfl⟩
  | ok keys => exact .inr ⟨keys, rfl, rfl⟩

inductive KeyFault (text : String) : ClientFailure → Prop
  | unread {fault : InputFault} (read : PublicKey.ofHex text = .error fault) :
      KeyFault text (.input fault)
  | unknown {key : PublicKey} (read : PublicKey.ofHex text = .ok key) :
      KeyFault text (.unknownValidator key)

theorem Engine.Kept.lookup_eq {e : Engine} (kept : e.Kept) (key : PublicKey) :
    e.lookup key = .ok (e.ledger.idOf key) := by
  rw [Engine.lookup, kept.reader_eq]
  rfl

/-- A key that cannot be found is noticed before anything else, also before the number to keep. -/
theorem Offline.prune_of_unknown {e : Engine} (kept : e.Kept) {text : String}
    (unknown : ∀ key, PublicKey.ofHex text = .ok key → e.ledger.idOf key = none) (keep : UInt64) :
    ∃ f, KeyFault text f ∧ Offline.prune e keep (some text) = .error f := by
  cases read : PublicKey.ofHex text with
  | error fault =>
    refine ⟨.input fault, .unread read, ?_⟩
    rw [Offline.prune, read]
    rfl
  | ok key =>
    refine ⟨.unknownValidator key, .unknown read, ?_⟩
    rw [Offline.prune, read, mapError_ok, ok_bind, kept.lookup_eq, unknown key read]
    rfl

namespace Service

variable {s : Service} {what : String} {e : Engine}

/-- What the console makes of a ledger, and what the service that is asked for the same does. -/
inductive Matches (s : Service) (what : String) {α : Type} (g : α → Reply) :
    Except ClientFailure (α × Engine) → Reply × Service → Prop
  | done (a : α) {e e' : Engine} (same : e.ledger = e'.ledger) :
      Matches s what g (.ok (a, e)) (g a, { s with engine := e' })
  | failed {f : ClientFailure} {m : String} (complains : Complains what f m) :
      Matches s what g (.error f) (.error m, s)

theorem matches_of_alike {α β : Type} {x y : Except Failure (α × Engine)} {r : Request}
    {console : Except ClientFailure (β × Engine)} (f : α → β) (g : β → Reply)
    (alike : Engine.Alike x y) (left : console = (x.mapError .engine).map fun (a, e) => (f a, e))
    (right : s.answer r = (failed what ServiceFailure.message (y.mapError .engine)).map
      fun (a, e) => (g (f a), { s with engine := e })) : s.Matches what g console (s.handle r) := by
  rw [handle, left, right]
  cases alike with
  | failed failure => exact .failed (.engine failure)
  | done a same => exact .done (f a) same

theorem matches_register (kept : e.Kept) (kept' : s.engine.Kept) (same : e.ledger = s.engine.ledger)
    (texts : List String) : s.Matches "Registration failed" .registered
      (Offline.keys texts >>= Offline.register e) (s.handle (.register texts)) := by
  rcases keys_cases texts with ⟨fault, console, service⟩ | ⟨keys, console, service⟩
  · rw [console, handle, answer, service]
    exact .failed (.badKey fault)
  · refine matches_of_alike id .registered (x := e.register keys) (y := s.engine.register keys)
      (Engine.alike_of_agree (f := .ids) (by simp) rfl rfl (kept.agree kept' same (.register keys)))
      ?_ ?_
    · rw [console, ok_bind, Offline.register]
      cases e.register keys <;> rfl
    · simp only [answer, service, bind, Except.bind]
      cases s.engine.register keys <;> rfl

theorem matches_import (kept : e.Kept) (kept' : s.engine.Kept) (same : e.ledger = s.engine.ledger)
    (text : String) : s.Matches "Import failed" .imported
      (Offline.importText e (.ok (Text.Utf8.ofText text))) (s.handle (.importText text)) := by
  refine matches_of_alike id .imported (x := e.importText (Text.Utf8.ofText text))
    (y := s.engine.importText (Text.Utf8.ofText text))
    (Engine.alike_of_agree (f := .imported) (by simp) rfl rfl
      (kept.agree kept' same (.importText (Text.Utf8.ofText text)))) ?_ ?_
  · simp only [Offline.importText, mapError_ok, ok_bind]
    cases e.importText (Text.Utf8.ofText text) <;> rfl
  · simp only [answer, bind, Except.bind]
    cases s.engine.importText (Text.Utf8.ofText text) <;> rfl

theorem matches_export (kept : e.Kept) (kept' : s.engine.Kept) (same : e.ledger = s.engine.ledger) :
    s.Matches "Export failed" .exported ((Offline.exportText e).map fun text => (text, e))
      (s.handle .exportText) := by
  refine matches_of_alike id .exported (x := e.exportText.map fun text => (text, e))
    (y := s.engine.exportText.map fun text => (text, s.engine))
    (Engine.alike_of_agree (f := .text) (by simp) ?_ ?_ (kept.agree kept' same .exportText)) ?_ ?_
  · rw [Engine.attempt]
    cases e.exportText <;> rfl
  · rw [Engine.attempt]
    cases s.engine.exportText <;> rfl
  · rw [Offline.exportText]
    cases e.exportText <;> rfl
  · simp only [answer, bind, Except.bind]
    cases s.engine.exportText <;> rfl

theorem resolve_eq (kept : s.engine.Kept) (key : PublicKey) :
    s.resolve key = match s.engine.ledger.idOf key with
      | some id => .ok id
      | none => .error (.unknownValidator key) := by
  rw [resolve, kept.lookup_eq]
  cases s.engine.ledger.idOf key <;> rfl

theorem matches_pruneAll (kept : e.Kept) (kept' : s.engine.Kept)
    (same : e.ledger = s.engine.ledger) (keep : UInt64) : s.Matches "Pruning failed" .pruned
      (Offline.prune e keep none) (s.handle (.prune keep none)) := by
  refine matches_of_alike id .pruned (x := e.pruneAll keep.toNat)
    (y := s.engine.pruneAll keep.toNat)
    (Engine.alike_of_agree (f := .pruned) (by simp) rfl rfl
      (kept.agree kept' same (.pruneAll keep.toNat))) ?_ ?_
  · rw [Offline.prune]
    cases e.pruneAll keep.toNat <;> rfl
  · simp only [answer, prune, pruneAll, bind, Except.bind]
    cases s.engine.pruneAll keep.toNat <;> rfl

theorem matches_prune_of_key (kept : e.Kept) (kept' : s.engine.Kept)
    (same : e.ledger = s.engine.ledger) (keep : UInt64) {text : String} {key : PublicKey}
    (read : PublicKey.ofHex text = .ok key) : s.Matches "Pruning failed" .pruned
      (Offline.prune e keep (some text)) (s.handle (.prune keep (some text))) := by
  have parsed := parseKey_eq_ok.mpr read
  have resolved := resolve_eq kept' key
  rw [← same] at resolved
  cases known : e.ledger.idOf key with
  | none =>
    rw [known] at resolved
    have console : Offline.prune e keep (some text) = .error (.unknownValidator key) := by
      simp only [Offline.prune, read, mapError_ok, ok_bind, kept.lookup_eq, known]
    have refused : s.answer (.prune keep (some text)) = .error
        ("Pruning failed" ++ ": " ++ (ServiceFailure.unknownValidator key).message) := by
      simp only [answer, parsed, Except.map, prune, resolved, bind, Except.bind]
      rfl
    rw [console, handle, refused]
    exact .failed (.unknown key)
  | some id =>
    rw [known] at resolved
    refine matches_of_alike .ofOutcome .pruned (x := e.prune keep.toNat id)
      (y := s.engine.prune keep.toNat id)
      (Engine.alike_of_agree (f := .outcome) (by simp) rfl rfl
        (kept.agree kept' same (.prune keep.toNat id))) ?_ ?_
    · simp only [Offline.prune, read, mapError_ok, ok_bind, kept.lookup_eq, known]
      cases e.prune keep.toNat id <;> rfl
    · simp only [answer, parsed, Except.map, prune, resolved, bind, Except.bind]
      cases s.engine.prune keep.toNat id <;> rfl

theorem matches_prune (kept : e.Kept) (kept' : s.engine.Kept) (same : e.ledger = s.engine.ledger)
    (keep : UInt64) (key : Option String) : s.Matches "Pruning failed" .pruned
      (Offline.prune e keep key) (s.handle (.prune keep key)) := by
  cases key with
  | none => exact matches_pruneAll kept kept' same keep
  | some text =>
    cases read : PublicKey.ofHex text with
    | ok key => exact matches_prune_of_key kept kept' same keep read
    | error fault =>
      have refused : parseKey text = .error ("Invalid public key: " ++ fault.message) := by
        rw [parseKey, read]
        rfl
      rw [Offline.prune, read, handle, answer, refused]
      exact .failed (.badKey fault)

end Service

structure Files.Opens (fs : Files) (name : String) (p : Place) (l : Ledger) : Prop
    extends fs.Rests p l where
  opens : (openLedger name).run fs = (.ok (.unpinned l, .file (.sole p)), fs.opened p l)

theorem Files.Rests.opens_of_spells {fs : Files} {name : String} {p : Place} {l : Ledger}
    (rests : fs.Rests p l) (spells : Spells name p) (current : l.version = .some schemaVersion) :
    fs.Opens name p l := ⟨rests, rests.openLedger spells current⟩

namespace Console

def exportName (moment : String) (file : Option String) : String :=
  file.getD ("slashing-protection-" ++ moment ++ ".json")

inductive Prints (moment : String) : Command → Reply → String → Prop
  | registered (texts : List String) (ids : List Int) :
      Prints moment (.register texts) (.registered ids) (registerReport texts ids)
  | imported (file : String) (o : ImportSummary) :
      Prints moment (.importFile file) (.imported o) (importReport file o)
  | pruned (keep : UInt64) (key : Option String) (o : PruneSummary) :
      Prints moment (.prune keep key) (.pruned o) (pruneReport o)
  | exported (file : Option String) (text : String) :
      Prints moment (.exportFile file) (.exported text)
        ("✓ Exported slashing protection data to " ++ exportName moment file ++ "\n")

/-- A command and a request end alike: the command prints what the reply tells, or both fail for
one reason. -/
inductive Ends (moment what : String) (c : Command) : Outcome → Reply → Prop
  | done {h : Host} {text : String} {reply : Reply} (prints : Prints moment c reply text) :
      Ends moment what c ⟨h, text, none⟩ reply
  | failed {h : Host} {f : ClientFailure} {m : String} (complains : Complains what f m) :
      Ends moment what c (fail h f) (.error m)

theorem Ends.failure_eq_none_iff {moment what : String} {c : Command} {o : Outcome} {reply : Reply}
    (ends : Ends moment what c o reply) : o.failure = none ↔ ∀ m, reply ≠ .error m := by
  cases ends with
  | done prints =>
    refine ⟨fun _ m same => ?_, fun _ => rfl⟩
    subst same
    cases prints
  | @failed h f m complains =>
    refine ⟨fun none => ?_, fun other => absurd rfl (other m)⟩
    cases none

structure Follows (moment what : String) (c : Command) (p : Place) (o : Outcome)
    (told : Reply × Service) : Prop where
  ends : Ends moment what c o told.1
  keeps : o.host.files.Keeps p told.2.engine.ledger

section Resting

variable {h : Host} {name what : String} {p : Place} {l : Ledger} {s : Service} {c : Command}

theorem withEngine_eq (opens : h.files.Opens name p l) (w : Host → Engine → Storage → Outcome) :
    withEngine h name w =
      let o := w { h with files := h.files.opened p l } (.unpinned l) (.file (.sole p))
      { o with host := { o.host with files := o.host.files.close (.file (.sole p)) } } := by
  rw [withEngine, opens.opens]

/-- A command opens the ledger, makes something of it, and saves what that leaves. -/
theorem follows_of_matches {moment : String} {α : Type} {x : Except ClientFailure (α × Engine)}
    {g : α → Reply} {print : α → String} {w : Host → Engine → Storage → Outcome}
    {told : Reply × Service}
    (opens : h.files.Opens name p s.engine.ledger) (prints : ∀ a, Prints moment c (g a) (print a))
    (does : w { h with files := h.files.opened p s.engine.ledger } (.unpinned s.engine.ledger)
        (.file (.sole p)) = match x with
      | .error f => fail { h with files := h.files.opened p s.engine.ledger } f
      | .ok (a, e) => ⟨save { h with files := h.files.opened p s.engine.ledger } e
          (.file (.sole p)), print a, none⟩)
    (same : s.Matches what g x told) :
    Follows moment what c p (withEngine h name w) told := by
  have holds := opens.toRests.opened opens.some
  rw [withEngine_eq opens, does]
  cases same with
  | failed complains => exact ⟨.failed complains, (holds.close opens.some).keeps⟩
  | @done a e e' same =>
    obtain ⟨fs', kept, holds'⟩ := holds.keep opens.some e.ledger
    refine ⟨.done (prints a), ?_⟩
    simp only [save, kept]
    rw [← same]
    exact (holds'.close opens.some).keeps

variable (socket moment : String)

theorem follows_register (kept : s.engine.Kept) (opens : h.files.Opens name p s.engine.ledger)
    (texts : List String) : Follows moment "Registration failed" (.register texts) p
      (execute h name socket moment (.register texts)) (s.handle (.register texts)) := by
  have same := Service.matches_register (Engine.Kept.unpinned kept.ledger) kept rfl texts
  rw [execute]
  cases read : Offline.keys texts with
  | error f =>
    -- The file is not opened before all keys are read.
    rw [read, error_bind] at same
    generalize s.handle (.register texts) = told at same
    cases same with
    | failed complains => exact ⟨.failed complains, opens.toRests.keeps⟩
  | ok keys =>
    rw [read, ok_bind] at same
    exact follows_of_matches opens (.registered texts) rfl same

theorem follows_import (kept : s.engine.Kept) (opens : h.files.Opens name p s.engine.ledger)
    {file text : String} (reads : h.files.readText (.ofText file) = .ok text) :
    Follows moment "Import failed" (.importFile file) p
      (execute h name socket moment (.importFile file)) (s.handle (.importText text)) := by
  have same := Service.matches_import (Engine.Kept.unpinned kept.ledger) kept rfl text
  rw [execute]
  refine follows_of_matches opens (.imported file) ?_ same
  simp only [opens.toRests.grows.readText reads, Except.map]
  cases Offline.importText (.unpinned s.engine.ledger) (.ok (Text.Utf8.ofText text)) <;> rfl

theorem follows_prune (kept : s.engine.Kept) (opens : h.files.Opens name p s.engine.ledger)
    (keep : UInt64) (key : Option String) : Follows moment "Pruning failed" (.prune keep key) p
      (execute h name socket moment (.prune keep key)) (s.handle (.prune keep key)) := by
  have same := Service.matches_prune (Engine.Kept.unpinned kept.ledger) kept rfl keep key
  rw [execute]
  refine follows_of_matches opens (.pruned keep key) ?_ same
  cases Offline.prune (.unpinned s.engine.ledger) keep key <;> rfl

theorem execute_export (opens : h.files.Opens name p l) (file : Option String) :
    execute h name socket moment (.exportFile file) = match Offline.exportText (.unpinned l) with
      | .error f => fail { h with files := (h.files.opened p l).close (.file (.sole p)) } f
      | .ok text =>
        match (h.files.opened p l).writeText (.ofText (exportName moment file)) text with
        | .error f =>
          fail { h with files := (h.files.opened p l).close (.file (.sole p)) } (.file f)
        | .ok fs => ⟨{ h with files := fs.close (.file (.sole p)) },
            "✓ Exported slashing protection data to " ++ exportName moment file ++ "\n", none⟩ := by
  rw [execute, withEngine_eq opens]
  cases Offline.exportText (.unpinned l) with
  | error f => rfl
  | ok text =>
    simp only [exportName]
    cases (h.files.opened p l).writeText
      (.ofText (file.getD ("slashing-protection-" ++ moment ++ ".json"))) text <;> rfl

theorem exportText_ne_empty {e : Engine} {text : String}
    (exported : Offline.exportText e = .ok text) : text ≠ "" := by
  obtain ⟨d, -, page⟩ := bind_eq_ok.mp (mapError_eq_ok.mp exported)
  rw [← Except.ok.inj page]
  simp [Document.page, Document.toValue, Json.Value.page, Json.Value.indented]

theorem export_cases (kept : s.engine.Kept) :
    (∃ f m, Offline.exportText (.unpinned s.engine.ledger) = .error f ∧
      s.handle .exportText = (.error m, s) ∧ Complains "Export failed" f m) ∨
    ∃ text e, Offline.exportText (.unpinned s.engine.ledger) = .ok text ∧
      s.handle .exportText = (.exported text, { s with engine := e }) ∧
      e.ledger = s.engine.ledger := by
  have same := Service.matches_export (Engine.Kept.unpinned kept.ledger) kept rfl
  cases exported : Offline.exportText (.unpinned s.engine.ledger) with
  | error f =>
    rw [exported] at same
    generalize s.handle .exportText = told at same
    cases same with
    | failed complains => exact .inl ⟨f, _, rfl, rfl, complains⟩
  | ok text =>
    rw [exported] at same
    generalize s.handle .exportText = told at same
    cases same with
    | @done _ _ e stored => exact .inr ⟨text, e, rfl, rfl, stored.symm⟩

variable (file : Option String)

theorem follows_export (kept : s.engine.Kept) (opens : h.files.Opens name p s.engine.ledger)
    (writable : h.files.IsWritable (.ofText (exportName moment file)))
    (apart : ∀ q, h.files.target? (.ofText (exportName moment file)) = some q →
      q ∉ [p, p.log, p.index]) :
    Follows moment "Export failed" (.exportFile file) p
        (execute h name socket moment (.exportFile file)) (s.handle .exportText) ∧
      ∀ text, (s.handle .exportText).1 = .exported text →
        ∃ fs, h.files.writeText (.ofText (exportName moment file)) text = .ok fs ∧
          ∀ q, q ≠ p.log → q ≠ p.index →
            (execute h name socket moment (.exportFile file)).host.files.at? q = fs.at? q := by
  have rests := opens.toRests
  rw [execute_export socket moment opens]
  rcases export_cases kept with ⟨f, m, failed, told, complains⟩ | ⟨text, e, exported, told, same⟩
  · rw [failed, told]
    exact ⟨⟨.failed complains, rests.close_opened⟩, fun text told => nomatch told⟩
  · obtain ⟨fs, written⟩ := writable text
    obtain ⟨q, kept, target, keeps, put⟩ := Files.writeText_eq_ok.mp written
    have during := rests.grows.writeText_eq_ok.mpr ⟨q, kept, target, keeps, rfl⟩
    obtain ⟨stored, elsewhere⟩ := rests.close_written target (apart q target) keeps
    rw [put] at elsewhere
    simp only [exported, told, during]
    refine ⟨⟨.done (.exported file text), ?_⟩, ?_⟩
    · rw [same]
      exact stored
    · rintro text' ⟨⟩
      exact ⟨fs, written, elsewhere⟩

/-- An export that cannot be written fails, whatever the service answers, and leaves the ledger. -/
theorem execute_export_unwritable (kept : s.engine.Kept)
    (opens : h.files.Opens name p s.engine.ledger)
    (unwritable : ¬ h.files.IsWritable (.ofText (exportName moment file))) :
    ∃ fs f, execute h name socket moment (.exportFile file) = fail { h with files := fs } f ∧
      fs.Keeps p s.engine.ledger ∧ (s.handle .exportText).2.engine.ledger = s.engine.ledger ∧
      ∀ text, (s.handle .exportText).1 = .exported text → ∃ fault, f = .file fault := by
  have rests := opens.toRests
  rw [execute_export socket moment opens]
  rcases export_cases kept with ⟨f, m, failed, told, -⟩ | ⟨text, e, exported, told, same⟩
  · rw [failed, told]
    exact ⟨_, f, rfl, rests.close_opened, rfl, fun text told => nomatch told⟩
  · rw [exported, told]
    cases tried : (h.files.opened p s.engine.ledger).writeText
      (.ofText (exportName moment file)) text with
    | error fault =>
      simp only [tried]
      exact ⟨_, .file fault, rfl, rests.close_opened, same, fun _ _ => ⟨fault, rfl⟩⟩
    | ok fs =>
      obtain ⟨q, kept, target, keeps, -⟩ := rests.grows.writeText_eq_ok.mp tried
      exact absurd (Files.isWritable_of_writeText
        (Files.writeText_eq_ok.mpr ⟨q, kept, target, keeps, rfl⟩) (exportText_ne_empty exported))
        unwritable

/-- An export over a file of its own ledger is reported like any other. The exported text takes the
place of the ledger then, or is lost with the log or its index. -/
theorem execute_export_over (kept : s.engine.Kept) (opens : h.files.Opens name p s.engine.ledger)
    {q : Place} (target : h.files.target? (.ofText (exportName moment file)) = some q)
    (own : q ∈ [p, p.log, p.index]) {text : String}
    (exported : (s.handle .exportText).1 = .exported text) :
    (execute h name socket moment (.exportFile file)).failure = none ∧
      (execute h name socket moment (.exportFile file)).host.files.at? q =
        if q = p then some (.text text) else none := by
  have rests := opens.toRests
  have keeps : Files.keepsText text (h.files.at? q) = .ok true := by
    simp only [List.mem_cons, List.not_mem_nil, or_false] at own
    rcases own with rfl | rfl | rfl
    · rw [rests.stored]
      rfl
    · rw [rests.log]
      rfl
    · rw [rests.index]
      rfl
  have during := rests.grows.writeText_eq_ok.mpr ⟨q, true, target, keeps, rfl⟩
  rw [execute_export socket moment opens]
  rcases export_cases kept with ⟨f, m, failed, told, -⟩ | ⟨text', e, exported', told, -⟩
  · rw [told] at exported
    cases exported
  · rw [told] at exported
    cases exported
    simp only [exported', during]
    exact ⟨trivial, rests.close_over own text⟩

theorem execute_prune_unknown (kept : s.engine.Kept) (opens : h.files.Opens name p s.engine.ledger)
    {text : String} (unknown : ∀ key, PublicKey.ofHex text = .ok key →
      s.engine.ledger.idOf key = none) (keep : UInt64) :
    ∃ fs f m, KeyFault text f ∧ Complains "Pruning failed" f m ∧
      execute h name socket moment (.prune keep (some text)) = fail { h with files := fs } f ∧
      fs.Keeps p s.engine.ledger ∧ s.handle (.prune keep (some text)) = (.error m, s) := by
  have rests := opens.toRests
  have own := Engine.Kept.unpinned kept.ledger
  obtain ⟨f, fault, failed⟩ := Offline.prune_of_unknown own unknown keep
  have same := Service.matches_prune own kept rfl keep (some text)
  rw [failed] at same
  generalize s.handle (.prune keep (some text)) = told at same ⊢
  cases same with
  | @failed _ m complains =>
    refine ⟨_, f, m, fault, complains, ?_, rests.close_opened, rfl⟩
    rw [execute, withEngine_eq opens]
    simp only [failed]
    rfl

end Resting

/-- A command on a ledger at rest and the request to the same effect, with what the service says
first where that fails. The file of an import can be read; that of an export can be written, and is
neither the file of the ledger nor its log nor the index of that. -/
inductive Corresponds (fs : Files) (p : Place) (moment : String) :
    Command → Request → String → Prop
  | register (texts : List String) :
      Corresponds fs p moment (.register texts) (.register texts) "Registration failed"
  | importFile {file text : String} (reads : fs.readText (.ofText file) = .ok text) :
      Corresponds fs p moment (.importFile file) (.importText text) "Import failed"
  | prune (keep : UInt64) (key : Option String) :
      Corresponds fs p moment (.prune keep key) (.prune keep key) "Pruning failed"
  | exportFile {file : Option String}
      (writable : fs.IsWritable (.ofText (exportName moment file)))
      (apart : ∀ q, fs.target? (.ofText (exportName moment file)) = some q →
        q ∉ [p, p.log, p.index]) :
      Corresponds fs p moment (.exportFile file) .exportText "Export failed"

/-- On the file of a ledger that calls have led to, each command ends as the request to the same
effect does at a service over that ledger: it prints what the reply tells, or both fail for one
reason, and they leave the same ledger. An export puts the text of the reply where it goes, and
nothing else is changed. One that cannot be written fails, although the service exports. A key that
cannot be read or is not registered is found before anything is pruned, whatever is to be kept. -/
theorem agrees_with_service {s : Service} (reached : s.engine.Reached) {h : Host} {name : String}
    {p : Place} (opens : h.files.Opens name p s.engine.ledger) (socket moment : String) :
    (∀ c r what, Corresponds h.files p moment c r what →
      Follows moment what c p (execute h name socket moment c) (s.handle r) ∧
      ((execute h name socket moment c).failure = none ↔ ∀ m, (s.handle r).1 ≠ .error m) ∧
      ∀ file text, c = .exportFile file → (s.handle r).1 = .exported text →
        ∃ fs, h.files.writeText (.ofText (exportName moment file)) text = .ok fs ∧
          ∀ q, q ≠ p.log → q ≠ p.index →
            (execute h name socket moment c).host.files.at? q = fs.at? q) ∧
    (∀ file, ¬ h.files.IsWritable (.ofText (exportName moment file)) → ∃ fs f,
      execute h name socket moment (.exportFile file) = fail { h with files := fs } f ∧
      fs.Keeps p s.engine.ledger ∧ (s.handle .exportText).2.engine.ledger = s.engine.ledger ∧
      ∀ text, (s.handle .exportText).1 = .exported text → ∃ fault, f = .file fault) ∧
    ∀ text, (∀ key, PublicKey.ofHex text = .ok key → s.engine.ledger.idOf key = none) →
      ∀ keep, ∃ fs f m, KeyFault text f ∧ Complains "Pruning failed" f m ∧
        execute h name socket moment (.prune keep (some text)) = fail { h with files := fs } f ∧
        fs.Keeps p s.engine.ledger ∧ s.handle (.prune keep (some text)) = (.error m, s) := by
  have kept := reached.kept
  refine ⟨?follows, fun file => execute_export_unwritable socket moment file kept opens,
    fun text => execute_prune_unknown socket moment kept opens⟩
  case follows =>
    intro c r what corresponds
    cases corresponds with
    | register texts =>
      have follows := follows_register socket moment kept opens texts
      exact ⟨follows, follows.ends.failure_eq_none_iff, nofun⟩
    | importFile reads =>
      have follows := follows_import socket moment kept opens reads
      exact ⟨follows, follows.ends.failure_eq_none_iff, nofun⟩
    | prune keep key =>
      have follows := follows_prune socket moment kept opens keep key
      exact ⟨follows, follows.ends.failure_eq_none_iff, nofun⟩
    | exportFile writable apart =>
      obtain ⟨follows, written⟩ := follows_export socket moment _ kept opens writable apart
      refine ⟨follows, follows.ends.failure_eq_none_iff, ?_⟩
      rintro file text ⟨⟩
      exact written text

def restingHost (l : Ledger) (text : String) : Host :=
  ⟨⟨[], [(["db", "s.db"], .ledger l true true), (["db", "h.json"], .text text),
    (["db"], .directory)], []⟩, none⟩

section

variable {l : Ledger} {text : String}

theorem opens_restingHost (current : l.version = some schemaVersion) :
    (restingHost l text).files.Opens "/db/s.db" ["db", "s.db"] l := by
  refine Files.Rests.opens_of_spells ?_ spells_short current
  exact ⟨⟨Files.leads_short rfl, rfl, rfl, rfl, rfl⟩, rfl⟩

theorem readText_restingHost :
    (restingHost l text).files.readText (.ofText "/db/h.json") = .ok text := by
  have parts : Path.ofText "/db/h.json" = ⟨["", "db", "h.json"]⟩ := by decide
  have checked : (Path.mk ["", "db", "h.json"]).check = .ok () := by
    simp [Path.check, Path.toText]
    decide
  rw [parts, Files.readText, Files.place, checked]
  rfl

theorem target?_restingHost {file last : String} (parts : Path.ofText file = ⟨["", "db", last]⟩)
    (checked : (Path.mk ["", "db", last]).check = .ok ()) (name : isDots last = false)
    (short : Path.checkName last = .ok ()) :
    (restingHost l text).files.target? (.ofText file) = some ["db", last] := by
  rw [parts]
  exact @Files.target?_of_parts _ _ ["db"] last rfl checked name short rfl rfl

theorem not_isWritable_missing {fs : Files} (free : fs.at? ["x"] = none) :
    ¬ fs.IsWritable (.ofText "/x/e.json") := by
  intro writable
  have parts : Path.ofText "/x/e.json" = ⟨["", "x", "e.json"]⟩ := by decide
  have checked : (Path.mk ["", "x", "e.json"]).check = .ok () := by
    simp [Path.check, Path.toText]
    decide
  have trimmed : (Path.mk ["", "x", "e.json"]).trimmed = ["e.json", "x", ""] := by decide
  obtain ⟨_, written⟩ := writable ""
  obtain ⟨_, _, target, -⟩ := Files.writeText_eq_ok.mp written
  obtain ⟨_, seated, -⟩ := Files.target?_eq_some.mp target
  rw [parts, Files.seat, checked, ok_bind, trimmed] at seated
  obtain ⟨_, followed, -⟩ := bind_eq_ok.mp seated
  obtain ⟨-, -, -, further⟩ := Files.follow_cons_eq_ok.mp followed
  obtain ⟨-, -, stands, -⟩ := Files.follow_cons_eq_ok.mp further
  change (fs.at? ["x"]).isSome = true at stands
  rw [free] at stands
  cases stands

theorem agrees_with_service_resting :
    let s : Service := ⟨Engine.fresh.run [.register [.single 1], .pinNetwork (.filled 0)], none⟩
    let h := restingHost s.engine.ledger "x"
    let p := ["db", "s.db"]
    Follows "" "Registration failed" (.register ["0x02", "0x01"]) p
        (execute h "/db/s.db" "" "" (.register ["0x02", "0x01"]))
        (s.handle (.register ["0x02", "0x01"])) ∧
      Follows "" "Import failed" (.importFile "/db/h.json") p
        (execute h "/db/s.db" "" "" (.importFile "/db/h.json")) (s.handle (.importText "x")) ∧
      Follows "" "Pruning failed" (.prune 0 (some "0x01")) p
        (execute h "/db/s.db" "" "" (.prune 0 (some "0x01"))) (s.handle (.prune 0 (some "0x01"))) ∧
      Follows "" "Export failed" (.exportFile (some "/db/e.json")) p
        (execute h "/db/s.db" "" "" (.exportFile (some "/db/e.json"))) (s.handle .exportText) ∧
      (∃ fs f, execute h "/db/s.db" "" "" (.exportFile (some "/x/e.json")) =
        fail { h with files := fs } f ∧ fs.Keeps p s.engine.ledger) ∧
      ∃ fs f m, KeyFault "0x02" f ∧
        execute h "/db/s.db" "" "" (.prune 0 (some "0x02")) = fail { h with files := fs } f ∧
        s.handle (.prune 0 (some "0x02")) = (.error m, s) := by
  intro s h p
  have reached : s.engine.Reached := Engine.reached_run .fresh _
  have opens : h.files.Opens "/db/s.db" p s.engine.ledger := opens_restingHost reached.version
  obtain ⟨follows, unwritable, unknown⟩ := agrees_with_service reached opens "" ""
  have target : h.files.target? (.ofText "/db/e.json") = some ["db", "e.json"] := by
    refine target?_restingHost (by decide) ?_ (by decide) rfl
    simp [Path.check, Path.toText]
    decide
  have writable : h.files.IsWritable (.ofText "/db/e.json") :=
    fun text => ⟨_, Files.writeText_eq_ok.mpr ⟨_, true, target, rfl, rfl⟩⟩
  have exports : Corresponds h.files p "" (.exportFile (some "/db/e.json")) .exportText
      "Export failed" := by
    refine .exportFile writable fun q found => ?_
    cases target.symm.trans found
    decide
  refine ⟨(follows _ _ _ (.register _)).1, (follows _ _ _ (.importFile readText_restingHost)).1,
    (follows _ _ _ (.prune _ _)).1, (follows _ _ _ exports).1, ?_, ?_⟩
  · obtain ⟨fs, f, failed, keeps, -⟩ := unwritable (some "/x/e.json") (not_isWritable_missing rfl)
    exact ⟨fs, f, failed, keeps⟩
  · have second : PublicKey.ofHex "0x02" = .ok (.single 2) := by decide
    have nobody (key : PublicKey) (read : PublicKey.ofHex "0x02" = .ok key) :
        s.engine.ledger.idOf key = none := by
      cases second.symm.trans read
      decide
    obtain ⟨fs, f, m, fault, -, failed, -, told⟩ := unknown "0x02" nobody 0
    exact ⟨fs, f, m, fault, failed, told⟩

/-- The console writes what it exports to a file, which the service does not. That fails where there
is no directory. Over the file of the ledger it leaves no ledger, and over its log or the index of
that the text is lost. -/
theorem exports_differ :
    let s : Service := ⟨Engine.fresh.run [.pinNetwork (.filled 0)], none⟩
    let h := restingHost s.engine.ledger ""
    let p := ["db", "s.db"]
    s.engine.Reached ∧ h.files.Opens "/db/s.db" p s.engine.ledger ∧
    ∃ text, (s.handle .exportText).1 = .exported text ∧
      (∃ fs fault, execute h "/db/s.db" "" "" (.exportFile (some "/x/e.json")) =
        fail { h with files := fs } (.file fault)) ∧
      ((execute h "/db/s.db" "" "" (.exportFile (some "/db/s.db"))).failure = none ∧
        ∀ l, ¬ (execute h "/db/s.db" "" "" (.exportFile (some "/db/s.db"))).host.files.Keeps p l) ∧
      ((execute h "/db/s.db" "" "" (.exportFile (some "/db/s.db-wal"))).failure = none ∧
        (execute h "/db/s.db" "" "" (.exportFile (some "/db/s.db-wal"))).host.files.at?
          ["db", "s.db-wal"] = none) ∧
      ((execute h "/db/s.db" "" "" (.exportFile (some "/db/s.db-shm"))).failure = none ∧
        (execute h "/db/s.db" "" "" (.exportFile (some "/db/s.db-shm"))).host.files.at?
          ["db", "s.db-shm"] = none) := by
  intro s h p
  have reached : s.engine.Reached := Engine.reached_run .fresh _
  have opens : h.files.Opens "/db/s.db" p s.engine.ledger := opens_restingHost reached.version
  have exported : ∃ text, (s.handle .exportText).1 = .exported text := ⟨_, rfl⟩
  obtain ⟨text, exported⟩ := exported
  have onto (last : String) (parts : Path.ofText ("/db/" ++ last) = ⟨["", "db", last]⟩)
      (checked : (Path.mk ["", "db", last]).check = .ok ()) (name : isDots last = false)
      (short : Path.checkName last = .ok ())
      (own : ["db", last] ∈ [p, Place.log p, Place.index p]) :=
    execute_export_over "" "" (some ("/db/" ++ last)) reached.kept opens
      (target?_restingHost parts checked name short) own exported
  refine ⟨reached, opens, text, exported, ?_, ?_, ?_, ?_⟩
  · obtain ⟨fs, f, failed, -, -, fault⟩ := execute_export_unwritable "" "" (some "/x/e.json")
      reached.kept opens (not_isWritable_missing rfl)
    obtain ⟨reason, rfl⟩ := fault text exported
    exact ⟨fs, reason, failed⟩
  · have checked : (Path.mk ["", "db", "s.db"]).check = .ok () := by
      simp [Path.check, Path.toText]
      decide
    obtain ⟨reported, stands⟩ := onto "s.db" (by decide) checked (by decide) rfl (by decide)
    refine ⟨reported, fun l keeps => ?_⟩
    cases stands.symm.trans keeps.stored
  · have checked : (Path.mk ["", "db", "s.db-wal"]).check = .ok () := by
      simp [Path.check, Path.toText]
      decide
    exact onto "s.db-wal" (by decide) checked (by decide) rfl (by decide)
  · have checked : (Path.mk ["", "db", "s.db-shm"]).check = .ok () := by
      simp [Path.check, Path.toText]
      decide
    exact onto "s.db-shm" (by decide) checked (by decide) rfl (by decide)

end

end Console

end SlashGuard
