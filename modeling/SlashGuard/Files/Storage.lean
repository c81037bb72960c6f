import SlashGuard.Engine
import SlashGuard.Files.Header
import SlashGuard.Files.Tree

/-!
Ledgers that are open. What is kept in a ledger goes to its log, if it has one, and into its file
when the last who has it open closes it.
-/
namespace SlashGuard

/-- A stored ledger that is open. The last to close it puts its log into its file, and removes the
files that are left. -/
structure Lease where
  place : Place
  access : Access
  isLogged : Bool
  isLast : Bool
  residue : List Place
deriving DecidableEq, Repr

inductive Storage
  | file (lease : Lease)
  | memory (l : Ledger) (access : Access)
deriving DecidableEq, Repr

def Storage.access : Storage → Access
  | .file lease => lease.access
  | .memory _ access => access

def Node.sheet? : Node → Option (Except StoreFault Sheet)
  | .text s => if s.utf8ByteSize ≤ 1 then none else some (Sheet.ofText s)
  | .ledger l isLogged isSound => some (.ok ⟨.ok l, isLogged, true, isSound⟩)
  | .device _ => none
  | _ => some (.error .notDatabase)

def Node.logged (l : Ledger) : Node → Node
  | .device d => .device d
  | n => .ledger l true (match n.sheet? with
    | some (.ok sheet) => sheet.isSound
    | _ => true)

/-- What stands at a place once a log has been put into it. A log that is not whole makes no ledger
of what was put there while it was open, and one that is broken makes none at all. -/
def Log.settle (log : Log) (n : Node) : Node :=
  match n with
  | .device d => .device d
  | n =>
    if log.isBroken then .journal
    else match n.sheet? with
    | some (.ok ⟨.ok _, isLogged, _, isSound⟩) => .ledger log.ledger isLogged isSound
    | _ => if log.isWhole then .ledger log.ledger true true else .journal

namespace Files

def sheet? (fs : Files) (p : Place) : Option (Except StoreFault Sheet) :=
  (fs.at? p).bind Node.sheet?

def stored (fs : Files) (p : Place) : Except StoreFault Ledger :=
  match fs.sheet? p with
  | none => .ok .blank
  | some sheet => do (← sheet).content

def content (fs : Files) : Storage → Except StoreFault Ledger
  | .memory l _ => .ok l
  | .file lease =>
    match lease.isLogged, fs.logs.lookup lease.place with
    | true, some log => .ok log.ledger
    | _, _ => fs.stored lease.place

/-- Whether something else stands where the log of a ledger was written. -/
def isTorn (fs : Files) (p : Place) (log : Log) : Bool :=
  match fs.at? p.log with
  | some (.text _) => log.isWritten
  | _ => false

def keepLogged (fs : Files) (p : Place) (log : Log) (l : Ledger) : Files :=
  let isWhole := log.isWhole || log.ledger = .blank
  let fs := fs.putLog p ⟨l, true, isWhole, log.isBroken || (log.isWhole && fs.isTorn p log)⟩
  if (fs.at? p.log).isSome then fs.put p.log .journal else fs

def keepPlain (fs : Files) (p : Place) (l : Ledger) : Files :=
  (fs.remove p.journal).put p (.ledger l false true)

def keep (fs : Files) (l : Ledger) : Storage → Storage × Files
  | .memory _ access => (.memory l access, fs)
  | .file lease =>
    let p := lease.place
    let fs := match fs.content (.file lease), fs.logs.lookup p with
      | .ok m, log =>
        if m = l then fs
        else match lease.isLogged, log with
        | true, some log => fs.keepLogged p log l
        | _, _ => fs.keepPlain p l
      | .error _, _ => fs
    (.file lease, fs)

def settle (fs : Files) (p : Place) (residue : List Place) : Files :=
  match fs.logs.lookup p, fs.at? p with
  | some log, some n =>
    -- What was put over a log is nobody's to clear away.
    if fs.isTorn p log then fs
    else residue.foldl remove (if log.isWritten then fs.put p (Log.settle log n) else fs)
  | _, _ => fs

def close (fs : Files) : Storage → Files
  | .memory _ _ => fs
  | .file lease =>
    if lease.isLast then (fs.settle lease.place lease.residue).dropLog lease.place else fs

end Files

end SlashGuard
