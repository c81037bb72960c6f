import SlashGuard.Failure

/-!
Paths as they are written, and places in a tree of files. A part of a path that is empty or a dot
stays where it is, one of two dots leads up, and any other is a name.
-/
namespace SlashGuard

def isDots (part : String) : Bool := part = "" || part = "." || part = ".."

abbrev Place := List String

namespace Place

def step (here : Place) (part : String) : Place :=
  if part = "" ∨ part = "." then here
  else if part = ".." then here.dropLast
  else here ++ [part]

def extend (p : Place) (text : String) : Place :=
  match p.getLast? with
  | none => p
  | some name => p.dropLast ++ [name ++ text]

/-- Where the changes of an unfinished write to a ledger are noted, to be taken back. -/
def journal (p : Place) : Place := p.extend "-journal"

/-- Where what is written to a ledger goes before it goes into its file. -/
def log (p : Place) : Place := p.extend "-wal"

def index (p : Place) : Place := p.extend "-shm"

def lock (p : Place) : Place := p.extend ".lock"

def size (p : Place) : Nat := p.foldl (fun n name => n + 1 + name.utf8ByteSize) 0

end Place

structure Path where
  parts : List String
deriving DecidableEq, Repr

namespace Path

def ofText (s : String) : Path := ⟨(s.toList.splitOn '/').map String.ofList⟩

def toText (p : Path) : String := String.intercalate "/" p.parts

def isRooted (p : Path) : Bool :=
  match p.parts with
  | "" :: _ :: _ => true
  | _ => false

def ofNames (rooted : Bool) (names : List String) : Path :=
  ⟨if rooted then "" :: names else names⟩

def names (p : Path) : List String := p.parts.filter fun s => s ≠ "" && s ≠ "."

def trimmed (p : Path) : List String := p.parts.reverse.dropWhile (· = "")

def isOpen (p : Path) : Bool := p.parts.getLast? == some ""

def nameLimit : Nat := 255

def sizeLimit : Nat := 4095

def checkName (part : String) : Except FileFault Unit :=
  if nameLimit < part.utf8ByteSize then .error .nameTooLong else .ok ()

def check (p : Path) : Except FileFault Unit :=
  let text := p.toText
  if text.contains '\x00' then .error .nul
  else if text = "" then .error .missing
  else if sizeLimit < text.utf8ByteSize then .error .nameTooLong
  else .ok ()

end Path

end SlashGuard
