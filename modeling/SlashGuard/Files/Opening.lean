import SlashGuard.Files.Locator
import SlashGuard.Files.Storage

/-!
Opening ledgers. The path of a ledger is first made a place: its parts are taken as they are
written, so two dots undo the name before them even where nothing stands. Then what an unfinished
write left beside the file is settled, the first page is read, and changes are led to a log from
then on. What was done stays even if the ledger cannot be opened.
-/
namespace SlashGuard

abbrev Work := ExceptT Failure (StateM Files)

namespace Files

def storedLimit : Nat := 512

def journalSize : Nat := 8

def storedPlace (fs : Files) : Place → List String → Option Place
  | here, [] =>
    if 2 ≤ here.size ∧ here.size + journalSize ≤ storedLimit then some here else none
  | here, part :: rest =>
    if isDots part then fs.storedPlace (here.step part) rest
    else if storedLimit < here.size + part.utf8ByteSize + 2 then none
    else match fs.follow [] (here.step part) with
    | .ok _ | .error .missing => fs.storedPlace (here.step part) rest
    | .error _ => none

def nulAt : List Char → Option Nat
  | [] => none
  | c :: cs => if c = '\x00' then some 0 else (nulAt cs).map (· + c.utf8Size)

end Files

namespace Opening

open MonadExcept (ofExcept)

def fail {α : Type} (f : StoreFault) : Work α := throw (.store f)

def ask {α : Type} (f : Files → α) : Work α := return f (← get)

def isPending : Node → Bool
  | .text s => s.toList.head? ≠ none && s.toList.head? ≠ some '\x00'
  | _ => true

/-- Removes the journal of a file without pages. It takes a lock to do so, which one who only reads
does not get where locks are kept; and who makes a lock file takes it for another's. -/
def dropJournal (loc : Locator) (p : Place) : Work Unit := do
  if (← ask (·.isOccupied p.journal)) && !(← ask (·.isDirectory p.journal)) &&
      !(loc.isReadOnly && loc.isLogged) && loc.manner ≠ .lockFile then
    modify (·.remove p.journal)

/-- Takes back what a journal notes, under the lock that removing it takes. No journal here notes
anything, whatever it says. -/
def takeBack (loc : Locator) (p : Place) : Work Unit := do
  if loc.manner = .lockFile then return
  match ← ask (·.at? p.journal) with
  | none => return
  | some .directory => fail .io
  | some n =>
    if isPending n then
      if loc.isReadOnly then fail .readOnly
      else if loc.isLogged && (← ask (·.logs.lookup p)).isSome then fail .locked
      else modify (·.remove p.journal)

def dropLog (p : Place) : Work Unit := do
  if ← ask (·.isOccupied p.log) then
    if ← ask (·.isDirectory p.log) then fail .io
    modify (·.remove p.log)

def logHeadSize : Nat := 32

def hasHead : Option Node → Bool
  | some (.text s) => logHeadSize ≤ s.utf8ByteSize
  | some _ => true
  | none => false

/-- Opens the log of a ledger. Who keeps all others out needs no index beside it; where the index
cannot be written, nothing can. -/
def openLog (loc : Locator) (p : Place) (l : Ledger) : Work Lease := do
  if !loc.isLogged || !(← ask (·.hasRoom p.log)) then fail .noJournal
  if (← ask (·.at? p.log)).isNone then modify (·.put p.log (.text ""))
  let held ← ask (·.logs.lookup p)
  let isAlone := loc.manner = .alone && !loc.isReadOnly && held.isNone
  let isShut := !isAlone && (← ask (·.isDirectory p.index))
  if isShut && hasHead (← ask (·.at? p.log)) then fail .protocol
  if !isAlone && !isShut then modify (·.put p.index .journal)
  match held with
  | none => modify (·.putLog p ⟨l, false, false, false⟩)
  | some log =>
    if log.isBroken then fail .notDatabase
    if log.isWhole && (← ask (·.isTorn p log)) then fail .io
  return {
    place := p
    access := if loc.isReadOnly then .reading else if isShut then .viewing else .full
    isLogged := true
    isLast := held.isNone
    residue := if loc.isReadOnly || isShut then [] else if isAlone then [p.log]
      else [p.log, p.index] }

def convert (loc : Locator) (p : Place) (isWritable : Bool) (l : Ledger) : Work Lease := do
  let isReading := loc.isReadOnly || !isWritable
  -- Where others do not see the locks, a ledger keeps the form that it has.
  if !loc.isLogged then
    return ⟨p, if isReading then .reading else .full, false, false, []⟩
  if isReading then fail .readOnly
  if (← ask (·.logs.lookup p)).isSome then fail .locked
  if !(← ask (·.hasRoom p.journal)) then fail .noJournal
  modify (·.remove p.journal)
  if let some n := ← ask (·.at? p) then modify (·.put p (n.logged l))
  openLog loc p l

def abandon {α : Type} (lease : Option Lease) (f : StoreFault) : Work α := do
  if let some lease := lease then modify (·.close (.file lease))
  fail f

def enter (loc : Locator) (p : Place) (sheet : Sheet) (lease : Option Lease) : Work Lease := do
  let l := sheet.content.toOption.getD .blank
  let lease ← if lease.isNone && sheet.isLogged then some <$> openLog loc p l else pure lease
  match sheet.content, lease with
  | .error f, lease => abandon lease f
  | .ok _, some lease =>
    return if sheet.isWritable then lease else { lease with access := .reading }
  | .ok l, none => convert loc p sheet.isWritable l

/-- Opens the file at a place that others can open too. A log that is whole stands in for the first
page. -/
def join (loc : Locator) (p : Place) : Work Lease := do
  if loc.manner = .lockFile && (← ask (·.at? p.lock)).isSome then fail .locked
  match ← ask (·.sheet? p) with
  | none => do
    dropJournal loc p
    dropLog p
    convert loc p true .blank
  | some page => do
    takeBack loc p
    let l := (← ask (·.stored p)).toOption.getD .blank
    let lease ← if ← ask (·.isOccupied p.log) then some <$> openLog loc p l else pure none
    match page, lease, ← ask (·.logs.lookup p) with
    | _, some lease, some ⟨_, _, true, _⟩ => return lease
    | .error f, lease, _ => abandon lease f
    | .ok sheet, lease, _ => enter loc p sheet lease

def openPlace (name : String) (loc : Locator) (p : Place) : Work Lease := do
  match ← ask (·.at? p) with
  | none =>
    if loc.mode = .creating && (← ask fun fs => fs.isDirectory p.dropLast && fs.hasRoom p) then
      modify (·.put p (.text ""))
    else fail (.cannotOpen name)
  | some .directory => fail (if loc.mode = .reading then .io else .cannotOpen name)
  | some .socket | some (.device .detached) => fail (.cannotOpen name)
  | some _ => pure ()
  -- A fixed ledger is taken as it stands, and nothing beside it is looked at.
  if loc.isFixed then return ⟨p, .reading, false, false, []⟩ else join loc p

def lacksModel (fs : Files) (loc : Locator) : Bool :=
  loc.model.elim false fun model => !(fs.place (.ofText model)).isOk

def openStorage (name : String) (mode : Mode) : Work Storage := do
  if let some n := Files.nulAt name.toList then fail (.nulInPath n)
  let loc ← ofExcept ((Locator.read name mode).mapError .store)
  if loc.isFileless then
    return .memory .blank (if loc.isReadOnly then .reading else .full)
  let path := Path.ofText loc.path
  match ← ask fun fs => fs.storedPlace (fs.start path) path.parts with
  | none => fail (.cannotOpen name)
  | some p =>
    if ← ask (lacksModel · loc) then fail .io
    .file <$> openPlace name loc p

def guarding {α : Type} (s : Storage) (w : Work α) : Work α :=
  tryCatch w fun f => do
    modify (·.close s)
    throw f

def ledger (s : Storage) : Work Ledger := do
  ofExcept ((← ask (·.content s)).mapError .store)

def refusal (fs : Files) (lease : Lease) : Option StoreFault :=
  match fs.at? lease.place with
  | some (.device .full) => some .full
  | some (.device _) => some .io
  | _ =>
    match fs.sheet? lease.place with
    | some (.ok ⟨_, _, _, false⟩) => some .damaged
    | _ => if lease.isLogged || fs.hasRoom lease.place.journal then none else some .noJournal

def prepare (s : Storage) : Work Storage := do
  let l ← ledger s
  if l.version.isSome then return s
  if s.access ≠ .full then fail .readOnly
  if let .file lease := s then
    if let some f := ← ask (refusal · lease) then fail f
  modifyGet (·.keep l.migrate s)

def engine (s : Storage) : Work Engine := do
  return { ← ofExcept (Engine.load (← ledger s)) with access := s.access }

end Opening

namespace Files

open Opening
open MonadExcept (ofExcept)

def openLedger (name : String) : Work (Engine × Storage) := do
  let s ← openStorage name .writing
  guarding s do return (← engine s, s)

def createLedger (name : String) : Work (Engine × Storage) := do
  let (made, fs) := (← get).makeParents (.ofText name)
  set fs
  ofExcept (made.mapError .file)
  let s ← openStorage name .creating
  guarding s do
    let s ← prepare s
    return (← engine s, s)

end Files

end SlashGuard
