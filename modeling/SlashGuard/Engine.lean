import SlashGuard.Signing
import SlashGuard.Pruning
import SlashGuard.Interchange.Import
import SlashGuard.Interchange.Export

/-!
The engine that a signer talks to: a ledger and the guard of its network. Each call either
succeeds with an answer and a new engine or fails and leaves the engine as it was.
-/
namespace SlashGuard

inductive Access
  | full
  /-- An operation that could write begins, and fails when it does. -/
  | reading
  /-- An operation that could write does not begin. -/
  | viewing
  /-- The ledger is lost to a crash: nothing begins. -/
  | lost
deriving DecidableEq, Repr

structure Engine where
  ledger : Ledger
  guard : Guard
  access : Access
deriving DecidableEq, Repr

namespace Engine

def unpinned (l : Ledger) : Engine := ⟨l, .empty, .full⟩

def fresh : Engine := unpinned .fresh

def reader (e : Engine) : Except Failure Ledger :=
  match e.access with
  | .lost => .error .poisoned
  | _ => .ok e.ledger

/-- The ledger for an operation that could write; `writes` says whether it would. -/
def writer (e : Engine) (writes : Ledger → Bool) : Except Failure Ledger :=
  match e.access with
  | .full => .ok e.ledger
  | .reading => if writes e.ledger then .error (.store .readOnly) else .ok e.ledger
  | .viewing => .error (.store .readOnly)
  | .lost => .error .poisoned

def changes {α : Type} (l : Ledger) : Except Failure (α × Ledger) → Bool
  | .ok (_, l') => l ≠ l'
  | .error _ => false

def load (l : Ledger) : Except Failure Engine := do
  l.checkVersion
  return unpinned l

def create (l : Ledger) : Except Failure Engine := load l.migrate

def register (e : Engine) (keys : List PublicKey) : Except Failure (List Int × Engine) := do
  let (ids, l) := (← e.writer fun _ => !keys.isEmpty).enrollAll keys
  return (ids, { e with ledger := l })

def lookup (e : Engine) (key : PublicKey) : Except Failure (Option Int) := do
  return (← e.reader).idOf key

def maySignBlock (e : Engine) (id : Int) (b : Block) (network : Root) :
    Except Failure (Verdict × Engine) := do
  let check (l : Ledger) := do Signing.checkBlock (← e.guard.accept l network) id b
  let (v, l) ← check (← e.writer fun l => changes l (check l))
  return (v, { e with ledger := l, guard := e.guard.pin network })

def maySignAttestation (e : Engine) (id : Int) (a : Attestation) (network : Root) :
    Except Failure (Verdict × Engine) :=
  -- An inverted attestation is refused even where the ledger cannot be asked.
  match Signing.checkRange a.source a.target with
  | some refused => .ok (refused, e)
  | none => do
    let check (l : Ledger) := do Signing.checkAttestation (← e.guard.accept l network) id a
    let (v, l) ← check (← e.writer fun l => changes l (check l))
    return (v, { e with ledger := l, guard := e.guard.pin network })

def watermark (e : Engine) (id : Int) : Except Failure (Option Watermark) := do
  (← e.reader).watermark id

def prune (e : Engine) (keep : Nat) (id : Int) : Except Failure (PruneOutcome × Engine) := do
  let (o, l) ← Pruning.prune (← e.writer fun l => keep ≠ 0 && Pruning.writes l id) keep id
  return (o, { e with ledger := l })

def pruneAll (e : Engine) (keep : Nat) : Except Failure (PruneSummary × Engine) :=
  if keep = 0 then .error .nothingKept
  else do
    let l ← e.writer fun _ => false
    -- Each validator is pruned by itself, so one that cannot be written does not end the pass.
    if e.access = .reading then return (Pruning.surveyAll l keep, e)
    let (s, l) ← Pruning.pruneAll l keep
    return (s, { e with ledger := l })

def pinNetwork (e : Engine) (network : Root) : Except Failure Engine := do
  let known (l : Ledger) := e.guard.pinned.isSome || l.network.isSome
  let l ← e.guard.accept (← e.writer fun l => !known l) network
  return { e with ledger := l, guard := e.guard.pin network }

def importDocument (e : Engine) (d : Document) : Except Failure (ImportSummary × Engine) := do
  let writes (l : Ledger) := !d.histories.isEmpty && (e.guard.check l d.metadata.network).isOk
  let (s, g, l) ← Import.document e.guard (← e.writer writes) d
  return (s, { e with ledger := l, guard := g })

def importText (e : Engine) (s : Text.Utf8.Source) : Except Failure (ImportSummary × Engine) :=
  match Document.read s with
  | .error fault => .error (.input fault)
  | .ok d => e.importDocument d

def exportDocument (e : Engine) : Except Failure Document := do
  Export.document (← e.writer fun _ => false)

def exportText (e : Engine) : Except Failure String := do
  return (← e.exportDocument).page

def validators (e : Engine) : Except Failure (List (Int × PublicKey)) := do
  (← e.writer fun _ => false).keys

end Engine

inductive Call
  | register (keys : List PublicKey)
  | lookup (key : PublicKey)
  | maySignBlock (id : Int) (b : Block) (network : Root)
  | maySignAttestation (id : Int) (a : Attestation) (network : Root)
  | watermark (id : Int)
  | prune (keep : Nat) (id : Int)
  | pruneAll (keep : Nat)
  | importText (s : Text.Utf8.Source)
  | exportText
  | pinNetwork (network : Root)
deriving DecidableEq, Repr

inductive Answer
  | ids (ids : List Int)
  | id (id : Option Int)
  | verdict (v : Verdict)
  | watermark (w : Option Watermark)
  | outcome (o : PruneOutcome)
  | pruned (s : PruneSummary)
  | imported (s : ImportSummary)
  | text (s : String)
  | done
deriving DecidableEq, Repr

namespace Engine

def attempt (e : Engine) : Call → Except Failure (Answer × Engine)
  | .register keys => (e.register keys).map fun (ids, e) => (.ids ids, e)
  | .lookup key => (e.lookup key).map fun id => (.id id, e)
  | .maySignBlock id b network => (e.maySignBlock id b network).map fun (v, e) => (.verdict v, e)
  | .maySignAttestation id a network =>
    (e.maySignAttestation id a network).map fun (v, e) => (.verdict v, e)
  | .watermark id => (e.watermark id).map fun w => (.watermark w, e)
  | .prune keep id => (e.prune keep id).map fun (o, e) => (.outcome o, e)
  | .pruneAll keep => (e.pruneAll keep).map fun (s, e) => (.pruned s, e)
  | .importText s => (e.importText s).map fun (s, e) => (.imported s, e)
  | .exportText => e.exportText.map fun s => (.text s, e)
  | .pinNetwork network => (e.pinNetwork network).map fun e => (.done, e)

/-- Makes a call; one that fails changes nothing. -/
def call (e : Engine) (c : Call) : Except Failure Answer × Engine :=
  match e.attempt c with
  | .ok (a, e) => (.ok a, e)
  | .error f => (.error f, e)

def run (e : Engine) (cs : List Call) : Engine := cs.foldl (fun e c => (e.call c).2) e

end Engine

end SlashGuard
