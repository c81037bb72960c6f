import SlashGuard.Files.Path
import SlashGuard.Ledger.Ledger

/-!
A tree of files as far as ledgers need it: directories, texts, stored ledgers with what is written
beside them, devices and sockets. A path is followed through the tree part by part, and each part
but the last must lead to a directory.
-/
namespace SlashGuard

inductive Device
  | null
  | source
  | full
  /-- It is not there for those who ask. -/
  | detached
deriving DecidableEq, Repr

/-- What stands at a place. Changes of a logged ledger go to a log, and one that is not sound takes
no rows. A journal is a file whose bytes are neither a text nor a ledger. -/
inductive Node
  | directory
  | text (content : String)
  | ledger (l : Ledger) (isLogged isSound : Bool)
  | journal
  | device (d : Device)
  | socket
deriving DecidableEq, Repr

/-- A ledger as it is while its changes go to a log. A log that is whole needs nothing of the
file; one that is broken was written on after something else was put in its place. -/
structure Log where
  ledger : Ledger
  isWritten : Bool
  isWhole : Bool
  isBroken : Bool
deriving DecidableEq, Repr

structure Files where
  here : Place
  nodes : List (Place × Node)
  logs : List (Place × Log)
deriving Repr

namespace Files

def at? (fs : Files) (p : Place) : Option Node :=
  if p = [] then some .directory else fs.nodes.lookup p

def isDirectory (fs : Files) (p : Place) : Bool :=
  match fs.at? p with
  | some .directory => true
  | _ => false

def put (fs : Files) (p : Place) (n : Node) : Files :=
  { fs with nodes := (p, n) :: fs.nodes.filter fun x => x.1 ≠ p }

def remove (fs : Files) (p : Place) : Files :=
  { fs with nodes := fs.nodes.filter fun x => x.1 ≠ p }

def hasRoom (fs : Files) (p : Place) : Bool :=
  (Path.checkName (p.getLast?.getD "")).isOk && !fs.isDirectory p

def isOccupied (fs : Files) (p : Place) : Bool :=
  match fs.at? p with
  | none | some (.text "") => false
  | some _ => true

def putLog (fs : Files) (p : Place) (log : Log) : Files :=
  { fs with logs := (p, log) :: fs.logs.filter fun x => x.1 ≠ p }

def dropLog (fs : Files) (p : Place) : Files :=
  { fs with logs := fs.logs.filter fun x => x.1 ≠ p }

def start (fs : Files) (p : Path) : Place := if p.isRooted then [] else fs.here

def follow (fs : Files) : Place → List String → Except FileFault Place
  | here, [] => .ok here
  | here, part :: rest => do
    if ¬ fs.isDirectory here then .error .notDirectory
    Path.checkName part
    if (fs.at? (here.step part)).isNone then .error .missing
    fs.follow (here.step part) rest

def place (fs : Files) (p : Path) : Except FileFault Place := do
  p.check
  fs.follow (fs.start p) p.parts

def seat (fs : Files) (p : Path) : Except FileFault (Place × String) := do
  p.check
  match p.trimmed with
  | [] => return ([], "")
  | last :: above =>
    let dir ← fs.follow (fs.start p) above.reverse
    if fs.isDirectory dir then return (dir, last) else .error .notDirectory

/-- The text at a path. A directory, a stored ledger and a journal are there, but hold no text;
a device without end begins with a null character. -/
def readText (fs : Files) (p : Path) : Except FileFault String := do
  match fs.at? (← fs.place p) with
  | some (.text s) => return s
  | some .socket | some (.device .detached) => .error .noDevice
  | some (.device .source) | some (.device .full) => return "\x00"
  | _ => return ""

def writeText (fs : Files) (p : Path) (s : String) : Except FileFault Files := do
  let (dir, last) ← fs.seat p
  if p.isOpen || isDots last then .error .isDirectory
  Path.checkName last
  match fs.at? (dir ++ [last]) with
  | some .directory => .error .isDirectory
  | some .socket | some (.device .detached) => .error .noDevice
  | some (.device .full) => if s = "" then return fs else .error .noSpace
  | some (.device _) => return fs
  | _ => return fs.put (dir ++ [last]) (.text s)

def make (fs : Files) (p : Path) : Except FileFault Files := do
  let (dir, last) ← fs.seat p
  if isDots last then .error .exists
  Path.checkName last
  if (fs.at? (dir ++ [last])).isSome then .error .exists
  return fs.put (dir ++ [last]) .directory

def ensure (fs : Files) (p : Path) : Except FileFault Files :=
  match fs.make p with
  | .error .exists =>
    match fs.place p with
    | .ok q => if fs.isDirectory q then .ok fs else .error .exists
    | .error _ => .error .exists
  | r => r

/-- Makes the directory of some names, from the last to the first, and what is missing above it.
What was made stays even if the rest fails. -/
def ensureAll (fs : Files) (rooted : Bool) : List String → Except FileFault Unit × Files
  | [] => (.ok (), fs)
  | name :: above =>
    let p := Path.ofNames rooted (name :: above).reverse
    match fs.ensure p with
    | .ok fs => (.ok (), fs)
    | .error .missing =>
      match fs.ensureAll rooted above with
      | (.error f, fs) => (.error f, fs)
      | (.ok (), fs) =>
        match fs.ensure p with
        | .ok fs => (.ok (), fs)
        | .error f => (.error f, fs)
    | .error f => (.error f, fs)

def makeParents (fs : Files) (p : Path) : Except FileFault Unit × Files :=
  fs.ensureAll p.isRooted p.names.reverse.tail

end Files

end SlashGuard
