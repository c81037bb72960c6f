import SlashGuard.Files.Opening
import SlashGuard.Proofs.Trees

/-! Ledgers in files. What is kept in an open ledger goes to its log, and closing it puts the log
into the file. -/
namespace SlashGuard

def Lease.sole (p : Place) : Lease := ⟨p, .full, true, true, [p.log, p.index]⟩

namespace Files

/-- Nothing stands beside a place, the directories above are there, and nobody has it open. -/
structure Bare (fs : Files) (p : Place) : Prop where
  leads : fs.Leads p
  journal : fs.at? p.journal = none
  log : fs.at? p.log = none
  index : fs.at? p.index = none
  closed : fs.logs.lookup p = none

structure Vacant (fs : Files) (p : Place) : Prop extends fs.Bare p where
  free : fs.at? p = none

structure Rests (fs : Files) (p : Place) (l : Ledger) : Prop extends fs.Bare p where
  stored : fs.at? p = some (.ledger l true true)

/-- A ledger is open: what its file does not tell of it is in its log. -/
structure Holds (fs : Files) (p : Place) (l : Ledger) : Prop where
  leads : fs.Leads p
  journal : fs.at? p.journal = none
  log : ∃ stored n isWritten isWhole, fs.at? p = some (.ledger stored true true) ∧
    fs.at? p.log = some n ∧ fs.logs.lookup p = some ⟨l, isWritten, isWhole, false⟩ ∧
    (isWritten = false ∧ stored = l ∨ isWritten = true ∧ n = .journal)

variable {fs : Files} {p : Place} {l : Ledger}

theorem Holds.content (holds : fs.Holds p l) : fs.content (.file (.sole p)) = .ok l := by
  obtain ⟨stored, n, isWritten, isWhole, -, -, log, -⟩ := holds.log
  simp [Files.content, Lease.sole, log]

theorem isTorn_eq {n : Node} {isWritten isWhole : Bool} (log : fs.at? p.log = some n)
    (state : isWritten = false ∨ n = .journal) :
    fs.isTorn p ⟨l, isWritten, isWhole, false⟩ = false := by
  rw [isTorn, log]
  rcases state with rfl | rfl
  · cases n <;> rfl
  · rfl

theorem Holds.keep (holds : fs.Holds p l) (some : p ≠ []) (l' : Ledger) :
    ∃ fs', fs.keep l' (.file (.sole p)) = (.file (.sole p), fs') ∧ fs'.Holds p l' := by
  have content := holds.content
  rw [Lease.sole] at content
  by_cases same : l = l'
  · refine ⟨fs, ?_, same ▸ holds⟩
    simp [Files.keep, Lease.sole, content, same]
  · obtain ⟨stored, n, isWritten, isWhole, file, log, held, state⟩ := holds.log
    have torn : fs.isTorn p ⟨l, isWritten, isWhole, false⟩ = false :=
      isTorn_eq log (state.imp And.left And.right)
    have stands (next : Log) : (fs.putLog p next).at? p.log = .some n := log
    have kept : fs.keep l' (.file (.sole p)) = (.file (.sole p),
        (fs.putLog p ⟨l', true, isWhole || l = .blank, false⟩).put p.log .journal) := by
      simp [Files.keep, Lease.sole, content, held, same, keepLogged, torn, stands]
    have apart := p.apart some
    have leads (next : Log) : (fs.putLog p next).Leads p := holds.leads
    refine ⟨_, kept, (leads _).put some "-wal" .journal, ?_, ?_⟩
    · rw [at?_put apart.log_some, if_neg apart.journal_log]
      exact holds.journal
    · refine ⟨stored, .journal, true, isWhole || l = .blank, ?_, ?_, ?_, .inr ⟨rfl, rfl⟩⟩
      · rw [at?_put apart.log_some, if_neg apart.log]
        exact file
      · rw [at?_put apart.log_some, if_pos rfl]
      · exact lookup_putLog fs p _

/-- Closing puts the log into the file, if it was written at all. -/
theorem Holds.settled (holds : fs.Holds p l) (some : p ≠ []) :
    ∃ fs' : Files, fs.close (.file (.sole p)) = ((fs'.remove p.log).remove p.index).dropLog p ∧
      fs'.Leads p ∧ fs'.at? p = .some (.ledger l true true) ∧ fs'.at? p.journal = none := by
  obtain ⟨stored, n, isWritten, isWhole, file, log, held, state⟩ := holds.log
  have torn : fs.isTorn p ⟨l, isWritten, isWhole, false⟩ = false :=
    isTorn_eq log (state.imp And.left And.right)
  -- A log that was not written adds nothing: the file has the ledger already.
  rcases state with ⟨rfl, rfl⟩ | ⟨rfl, rfl⟩
  · refine ⟨fs, ?_, holds.leads, file, holds.journal⟩
    simp [Files.close, Lease.sole, settle, held, file, torn]
  · refine ⟨fs.put p (.ledger l true true), ?_, holds.leads.put_self some _, ?_, ?_⟩
    · simp [Files.close, Lease.sole, settle, held, file, torn, Log.settle, Node.sheet?]
    · rw [at?_put some, if_pos rfl]
    · rw [at?_put some, if_neg (p.apart some).journal.symm]
      exact holds.journal

theorem at?_cleared (some : p ≠ []) (fs : Files) (q : Place) :
    (((fs.remove p.log).remove p.index).dropLog p).at? q =
      if q = p.index then none else if q = p.log then none else fs.at? q := by
  show ((fs.remove p.log).remove p.index).at? q = _
  rw [at?_remove (p.apart some).index_some, at?_remove (p.apart some).log_some]

theorem Holds.close (holds : fs.Holds p l) (some : p ≠ []) :
    (fs.close (.file (.sole p))).Rests p l := by
  obtain ⟨fs', closed, leads, stands, journal⟩ := holds.settled some
  have apart := p.apart some
  have at?_closed (q : Place) : (fs.close (.file (.sole p))).at? q =
      if q = p.index then none else if q = p.log then none else fs'.at? q := by
    rw [closed, at?_cleared some]
  refine ⟨⟨?leads, ?journal, ?log, ?index, ?closed⟩, ?stored⟩
  case leads =>
    rw [closed]
    exact (leads.remove some "-wal").remove some "-shm"
  case journal => rw [at?_closed, if_neg apart.journal_index, if_neg apart.journal_log, journal]
  case log => rw [at?_closed, if_neg apart.log_index, if_pos rfl]
  case index => rw [at?_closed, if_pos rfl]
  case closed =>
    rw [closed]
    exact lookup_dropLog _ p
  case stored => rw [at?_closed, if_neg apart.index, if_neg apart.log, stands]

def opened (fs : Files) (p : Place) (l : Ledger) : Files :=
  ((fs.put p.log (.text "")).put p.index .journal).putLog p ⟨l, false, false, false⟩

theorem at?_opened (some : p ≠ []) (fs : Files) (l : Ledger) (q : Place) :
    (fs.opened p l).at? q = if q = p.index then .some .journal
      else if q = p.log then .some (.text "") else fs.at? q := by
  show ((fs.put p.log (.text "")).put p.index .journal).at? q = _
  rw [at?_put (p.apart some).index_some, at?_put (p.apart some).log_some]

theorem Rests.opened (rests : fs.Rests p l) (some : p ≠ []) : (fs.opened p l).Holds p l := by
  have apart := p.apart some
  constructor
  case leads => exact (rests.leads.put some "-wal" _).put some "-shm" _
  case journal =>
    rw [at?_opened some, if_neg apart.journal_index, if_neg apart.journal_log, rests.journal]
  case log =>
    refine ⟨l, .text "", false, false, ?_, ?_, lookup_putLog _ p _, .inl ⟨rfl, rfl⟩⟩
    · rw [at?_opened some, if_neg apart.index, if_neg apart.log, rests.stored]
    · rw [at?_opened some, if_neg apart.log_index, if_pos rfl]

def founded (fs : Files) (p : Place) : Files :=
  ((fs.put p (.text "")).remove p.journal).put p (.ledger .blank true true)

theorem Vacant.founded (vacant : fs.Vacant p) (some : p ≠ []) : (fs.founded p).Rests p .blank := by
  have apart := p.apart some
  have at?_founded (q : Place) : (fs.founded p).at? q =
      if q = p then .some (.ledger .blank true true) else if q = p.journal then none
      else fs.at? q := by
    show (((fs.put p (.text "")).remove p.journal).put p (.ledger .blank true true)).at? q = _
    rw [at?_put some, at?_remove apart.journal_some, at?_put some]
    split
    · rfl
    · rfl
  refine ⟨⟨?leads, ?journal, ?log, ?index, vacant.closed⟩, ?stored⟩
  case leads => exact ((vacant.leads.put_self some _).remove some "-journal").put_self some _
  case journal => rw [at?_founded, if_neg apart.journal.symm, if_pos rfl]
  case log => rw [at?_founded, if_neg apart.log.symm, if_neg apart.journal_log.symm, vacant.log]
  case index =>
    rw [at?_founded, if_neg apart.index.symm, if_neg apart.journal_index.symm, vacant.index]
  case stored => rw [at?_founded, if_pos rfl]

end Files

end SlashGuard
