import SlashGuard.Proofs.Persistence
import SlashGuard.Proofs.Reached

/-! Opening ledgers by name. Where nothing stands a new ledger is made, and the file of a ledger that
was closed gives the ledger that was kept in it. -/
namespace SlashGuard

open Opening

section

variable {α β : Type} {w : Work α} {f : α → Work β} {a : α} {fs fs' : Files}

theorem run_bind (ran : w.run fs = (.ok a, fs')) : (w >>= f).run fs = (f a).run fs' := by
  rw [ExceptT.run_bind]
  simp only [bind, StateT.bind]
  rw [ran]

theorem run_ask_bind (g : Files → α) : (ask g >>= f).run fs = (f (g fs)).run fs := run_bind rfl

theorem run_modify_bind (g : Files → Files) {f : Unit → Work β} :
    ((modify g : Work Unit) >>= f).run fs = (f ()).run (g fs) := run_bind rfl

theorem run_ofExcept_bind (a : α) :
    ((MonadExcept.ofExcept (.ok a : Except Failure α) : Work α) >>= f).run fs = (f a).run fs :=
  run_bind rfl

theorem run_map {g : α → β} (ran : w.run fs = (.ok a, fs')) :
    (g <$> w).run fs = (.ok (g a), fs') := by
  rw [map_eq_pure_bind, run_bind ran]
  rfl

theorem run_keep {l : Ledger} {s s' : Storage} (kept : fs.keep l s = (s', fs')) :
    (modifyGet (·.keep l s) : Work Storage).run fs = (.ok s', fs') := by
  show (Except.ok (fs.keep l s).1, (fs.keep l s).2) = _
  rw [kept]

theorem run_guarding {s : Storage} (ran : w.run fs = (.ok a, fs')) :
    (guarding s w).run fs = (.ok a, fs') := by
  unfold guarding
  simp only [tryCatch, tryCatchThe, MonadExceptOf.tryCatch, ExceptT.tryCatch, ExceptT.run_mk,
    bind, StateT.bind]
  rw [ExceptT.run] at ran
  rw [ran]
  rfl

end

variable {fs : Files} {p : Place} {l : Ledger} {name : String} {mode : Mode}

theorem hasRoom_of_free {q : Place} (short : (Path.checkName (q.getLast?.getD "")).isOk = true)
    (free : fs.at? q = none) : fs.hasRoom q = true := by
  simp [Files.hasRoom, short, Files.isDirectory, free]

theorem run_openLog (spells : Spells name p) (bare : fs.Bare p)
    (writes : mode = .writing ∨ mode = .creating) :
    (openLog (.plain name mode) p l).run fs = (.ok (.sole p), fs.opened p l) := by
  have apart := p.apart spells.some
  have room : fs.hasRoom p.log = true := hasRoom_of_free (spells.beside _ (by simp)) bare.log
  have noIndex : (fs.put p.log (.text "")).isDirectory p.index = false := by
    rw [Files.isDirectory, Files.at?_put apart.log_some, if_neg apart.log_index.symm, bare.index]
  have noLog : (fs.put p.log (.text "")).logs.lookup p = none := bare.closed
  have reads : (Locator.plain name mode).isReadOnly = false := by
    rcases writes with rfl | rfl
    · rfl
    · rfl
  have logged : (Locator.plain name mode).isLogged = true := rfl
  simp only [openLog, run_ask_bind, run_modify_bind, room, bare.log, noIndex, noLog, reads, logged,
    Bool.not_true, Bool.or_self, Bool.false_eq_true, if_false, Option.isNone_none, if_true]
  rfl

theorem run_takeBack (journal : fs.at? p.journal = none) :
    (takeBack (.plain name mode) p).run fs = (.ok (), fs) := by
  simp only [takeBack, reduceCtorEq, if_false, run_ask_bind, journal]
  rfl

theorem run_dropJournal {loc : Locator} (journal : fs.at? p.journal = none) :
    (dropJournal loc p).run fs = (.ok (), fs) := by
  have vacant : fs.isOccupied p.journal = false := by rw [Files.isOccupied, journal]
  simp only [dropJournal, run_ask_bind, vacant, Bool.false_and, Bool.false_eq_true, if_false]
  rfl

theorem run_dropLog (log : fs.at? p.log = none) : (dropLog p).run fs = (.ok (), fs) := by
  have vacant : fs.isOccupied p.log = false := by rw [Files.isOccupied, log]
  simp only [dropLog, run_ask_bind, vacant, Bool.false_eq_true, if_false]
  rfl

theorem run_enter {fs' : Files}
    (opened : (openLog (.plain name mode) p l).run fs = (.ok (.sole p), fs')) :
    (enter (.plain name mode) p ⟨.ok l, true, true, true⟩ none).run fs =
      (.ok (.sole p), fs') := by
  simp only [enter, Except.toOption, Option.getD_some, Option.isNone_none, Bool.and_self, if_true,
    run_bind (run_map opened)]
  rfl

theorem Files.Rests.run_openPlace (rests : fs.Rests p l) (spells : Spells name p)
    (writes : mode = .writing ∨ mode = .creating) :
    (openPlace name (.plain name mode) p).run fs =
      (.ok (.sole p), fs.opened p l) := by
  have page : fs.sheet? p = some (.ok ⟨.ok l, true, true, true⟩) := by
    rw [Files.sheet?, rests.stored]
    rfl
  have unlogged : fs.isOccupied p.log = false := by rw [Files.isOccupied, rests.log]
  have opened := run_openLog (l := l) spells rests.toBare writes
  simp only [openPlace, join, run_ask_bind, rests.stored, reduceCtorEq, decide_false, Bool.false_and,
    Bool.false_eq_true, if_false, page, run_bind (run_takeBack rests.journal), unlogged, pure_bind,
    run_enter opened]

theorem Files.Vacant.run_convert (vacant : fs.Vacant p) (spells : Spells name p) :
    (convert (.plain name .creating) p true .blank).run (fs.put p (.text "")) =
      (.ok (.sole p), (fs.founded p).opened p .blank) := by
  have apart := p.apart spells.some
  have journal : (fs.put p (.text "")).at? p.journal = none := by
    rw [at?_put spells.some, if_neg apart.journal.symm, vacant.journal]
  have room : (fs.put p (.text "")).hasRoom p.journal = true :=
    hasRoom_of_free (spells.beside _ (by simp)) journal
  have stands : ((fs.put p (.text "")).remove p.journal).at? p = some (.text "") := by
    rw [at?_remove apart.journal_some, if_neg apart.journal, at?_put spells.some, if_pos rfl]
  have unheld : (fs.put p (.text "")).logs.lookup p = none := vacant.closed
  have reads : (Locator.plain name .creating).isReadOnly = false := rfl
  have logged : (Locator.plain name .creating).isLogged = true := rfl
  simp only [convert, reads, logged, Bool.not_true, Bool.or_self, Bool.false_eq_true, if_false,
    run_ask_bind, unheld, Option.isSome_none, room, run_modify_bind, stands]
  exact run_openLog spells (vacant.founded spells.some).toBare (.inr rfl)

theorem Files.Vacant.run_openPlace (vacant : fs.Vacant p) (spells : Spells name p) :
    (openPlace name (.plain name .creating) p).run fs =
      (.ok (.sole p), (fs.founded p).opened p .blank) := by
  have apart := p.apart spells.some
  have above : fs.isDirectory p.dropLast = true := by
    have dir := vacant.leads _ _ (List.dropLast_concat_getLast spells.some) (by simp)
    rw [isDirectory, dir]
  have room : fs.hasRoom p = true := by
    apply hasRoom_of_free _ vacant.free
    have short := (spells.names _ (List.getLast_mem spells.some)).2
    rw [List.getLast?_eq_some_getLast spells.some, Option.getD_some, short]
    rfl
  have page : (fs.put p (.text "")).sheet? p = none := by
    rw [Files.sheet?, at?_put spells.some, if_pos rfl]
    rfl
  have journal : (fs.put p (.text "")).at? p.journal = none := by
    rw [at?_put spells.some, if_neg apart.journal.symm, vacant.journal]
  have log : (fs.put p (.text "")).at? p.log = none := by
    rw [at?_put spells.some, if_neg apart.log.symm, vacant.log]
  simp only [openPlace, join, run_ask_bind, vacant.free, above, room, Bool.and_self, decide_true,
    if_true, run_modify_bind, reduceCtorEq, decide_false, Bool.false_and, Bool.false_eq_true,
    if_false, page, run_bind (run_dropJournal journal), run_bind (run_dropLog log),
    vacant.run_convert spells]

theorem Spells.fileless (spells : Spells name p) (writes : mode = .writing ∨ mode = .creating) :
    (Locator.plain name mode).isFileless = false := by
  -- Neither of the two names without a file begins with a slash.
  have slash (other : String) (parts : (Path.ofText other).parts = [other]) : name ≠ other := by
    rintro rfl
    rw [spells.parts] at parts
    exact spells.some (List.cons.inj parts).2
  have empty := slash "" (by decide)
  have memory := slash ":memory:" (by decide)
  rcases writes with rfl | rfl
  · simp [Locator.isFileless, empty, memory]
  · simp [Locator.isFileless, empty, memory]

theorem run_openStorage (spells : Spells name p) (leads : fs.Leads p)
    (writes : mode = .writing ∨ mode = .creating) {lease : Lease} {fs' : Files}
    (opened : (openPlace name (.plain name mode) p).run fs = (.ok lease, fs')) :
    (openStorage name mode).run fs = (.ok (.file lease), fs') := by
  have lacks : lacksModel fs (.plain name mode) = false := rfl
  simp only [openStorage, spells.nul, spells.plain, Except.mapError, run_ofExcept_bind,
    spells.fileless writes, Bool.false_eq_true, if_false, run_ask_bind, spells.storedPlace leads,
    lacks, run_map opened]

theorem Files.Holds.run_engine (holds : fs.Holds p l) (current : l.version = some schemaVersion) :
    (engine (.file (.sole p))).run fs = (.ok (.unpinned l), fs) := by
  have load : Engine.load l = .ok (.unpinned l) := by
    simp [Engine.load, Ledger.checkVersion, current]
  simp only [engine, Opening.ledger, bind_assoc, run_ask_bind, holds.content, Except.mapError,
    run_ofExcept_bind, load]
  rfl

theorem Files.Holds.run_prepare (holds : fs.Holds p l) (current : l.version = some schemaVersion) :
    (prepare (.file (.sole p))).run fs = (.ok (.file (.sole p)), fs) := by
  simp only [prepare, Opening.ledger, bind_assoc, run_ask_bind, holds.content, Except.mapError,
    run_ofExcept_bind, current]
  rfl

theorem Files.Holds.refusal (holds : fs.Holds p l) : refusal fs (.sole p) = none := by
  obtain ⟨stored, n, isWritten, isWhole, file, -⟩ := holds.log
  simp [Opening.refusal, Lease.sole, file, Files.sheet?, Node.sheet?]

theorem Files.Holds.run_prepare_blank (holds : fs.Holds p .blank) (some : p ≠ []) :
    ∃ fs', (prepare (.file (.sole p))).run fs = (.ok (.file (.sole p)), fs') ∧
      fs'.Holds p .fresh := by
  obtain ⟨fs', kept, holds'⟩ := holds.keep some .fresh
  refine ⟨fs', ?_, holds'⟩
  have unset : Ledger.blank.version = none := rfl
  have full : (Storage.file (.sole p)).access = .full := rfl
  simp only [prepare, Opening.ledger, bind_assoc, run_ask_bind, holds.content, Except.mapError,
    run_ofExcept_bind, unset, Option.isSome_none, Bool.false_eq_true, if_false, full, ne_eq,
    not_true_eq_false, holds.refusal]
  exact run_keep kept

/-- Where the directories of a ledger are there already, creating it makes none. -/
theorem run_createLedger (spells : Spells name p) (leads : fs.Leads p) {s s' : Storage}
    {e : Engine} {fs1 fs2 : Files} (opened : (openStorage name .creating).run fs = (.ok s, fs1))
    (prepared : (prepare s).run fs1 = (.ok s', fs2))
    (loaded : (engine s').run fs2 = (.ok e, fs2)) :
    (Files.createLedger name).run fs = (.ok (e, s'), fs2) := by
  have look : (get : Work Files).run fs = (.ok fs, fs) := rfl
  have settle : (set fs : Work Unit).run fs = (.ok (), fs) := rfl
  rw [Files.createLedger, run_bind look, spells.makeParents leads, run_bind settle]
  simp only [Except.mapError, run_ofExcept_bind]
  rw [run_bind opened]
  apply run_guarding
  rw [run_bind prepared, run_bind loaded]
  rfl

namespace Files

theorem Rests.openLedger (rests : fs.Rests p l) (spells : Spells name p)
    (current : l.version = some schemaVersion) :
    (openLedger name).run fs = (.ok (.unpinned l, .file (.sole p)), fs.opened p l) := by
  have opened := run_openStorage spells rests.leads (.inl rfl)
    (rests.run_openPlace spells (.inl rfl))
  rw [Files.openLedger, run_bind opened]
  apply run_guarding
  rw [run_bind ((rests.opened spells.some).run_engine current)]
  rfl

theorem Rests.createLedger (rests : fs.Rests p l) (spells : Spells name p)
    (current : l.version = some schemaVersion) :
    (createLedger name).run fs = (.ok (.unpinned l, .file (.sole p)), fs.opened p l) := by
  have opened := run_openStorage spells rests.leads (.inr rfl)
    (rests.run_openPlace spells (.inr rfl))
  have holds := rests.opened spells.some
  exact run_createLedger spells rests.leads opened (holds.run_prepare current)
    (holds.run_engine current)

theorem Vacant.createLedger (vacant : fs.Vacant p) (spells : Spells name p) :
    ∃ fs', (createLedger name).run fs = (.ok (.fresh, .file (.sole p)), fs') ∧
      fs'.Holds p .fresh := by
  have opened := run_openStorage spells vacant.leads (.inr rfl) (vacant.run_openPlace spells)
  have holds := (vacant.founded spells.some).opened spells.some
  obtain ⟨fs', prepared, holds'⟩ := holds.run_prepare_blank spells.some
  exact ⟨fs', run_createLedger spells vacant.leads opened prepared (holds'.run_engine rfl), holds'⟩

end Files

end SlashGuard
