import SlashGuard.Failure
import SlashGuard.Text.Hex
import SlashGuard.Text.Utf8

/-!
Locators: names of ledgers that begin with `file:`. An authority of this host may come before the
path, and parameters after it; a fragment ends the whole. Characters may be escaped by the digits
of their bytes, and an escaped null hides the rest of what it stands in. Any other name is a path
as it is written.
-/
namespace SlashGuard

inductive Mode
  | reading
  | writing
  | creating
  | memory
deriving DecidableEq, Repr

/-- How the files of a ledger are guarded: by locks that others see, by one that keeps all others
out, by none, by a file that stands for one; or there are no files. -/
inductive Manner
  | shared
  | alone
  | unguarded
  | lockFile
  | memory
deriving DecidableEq, Repr

/-- Where a ledger is and how it is opened. A fixed ledger never changes while it is open, and
`model` is a file that has to be there. -/
structure Locator where
  path : String
  mode : Mode
  manner : Manner
  isFixed : Bool
  model : Option String
deriving DecidableEq, Repr

def Mode.ofWord? : String → Option Mode
  | "ro" => some .reading
  | "rw" => some .writing
  | "rwc" => some .creating
  | "memory" => some .memory
  | _ => none

def Mode.allows : Mode → Mode → Bool
  | .memory, _ | _, .memory | _, .reading | .writing, .writing | .creating, _ => true
  | _, _ => false

def Manner.ofWord? : String → Option Manner
  | "unix" => some .shared
  | "unix-excl" => some .alone
  | "unix-none" => some .unguarded
  | "unix-dotfile" => some .lockFile
  | "memdb" => some .memory
  | _ => none

namespace Locator

inductive Symbol
  | byte (b : UInt8)
  | mark (c : Char)
  | null
deriving DecidableEq, Repr

def symbols : List Char → List Symbol
  | [] => []
  | '%' :: a :: b :: cs =>
    match Text.Hex.digit? a, Text.Hex.digit? b with
    | some 0, some 0 => .null :: symbols cs
    | some x, some y => .byte (UInt8.ofNat (x * 16 + y)) :: symbols cs
    | _, _ => .mark '%' :: symbols (a :: b :: cs)
  | c :: cs =>
    if c = '#' then []
    else if c = '?' ∨ c = '=' ∨ c = '&' then .mark c :: symbols cs
    else (String.utf8EncodeChar c).map .byte ++ symbols cs

def bytes : List Symbol → List UInt8
  | [] | .null :: _ => []
  | .byte b :: ss => b :: bytes ss
  | .mark c :: ss => String.utf8EncodeChar c ++ bytes ss

def cut (c : Char) (ss : List Symbol) : List Symbol × List Symbol :=
  (ss.takeWhile (· ≠ .mark c), (ss.dropWhile (· ≠ .mark c)).tail)

def pieces : List Symbol → List (List Symbol)
  | [] => [[]]
  | s :: ss =>
    if s = .mark '&' then [] :: pieces ss
    else match pieces ss with
    | p :: ps => (s :: p) :: ps
    | [] => [[s]]

def wordOf (ss : List Symbol) : String := String.ofList (Text.Utf8.lossy (bytes ss))

/-- The text of a path. A byte of no character is written as a null character and its digits, which
no name of a file holds. -/
def pathOf (ss : List Symbol) : String :=
  String.ofList (Text.Utf8.repair (fun bs => ('\x00' :: Text.Hex.encode (bs.take 1), 1)) (bytes ss))

def parameters (ss : List Symbol) : List (String × String) :=
  (pieces ss).filterMap fun piece =>
    let (name, value) := cut '=' piece
    if bytes name = [] then none else some (wordOf name, wordOf value)

def leadingNumber (base : Nat) (digit? : Char → Option Nat) (cs : List Char) : Nat :=
  let ds := cs.map digit? |>.takeWhile Option.isSome |>.filterMap id
  let n := ds.foldl (fun n d => n * base + d) 0
  -- More than 31 bits count as no number at all.
  if n < 0x80000000 then n else 0

def isOn (value : String) : Bool :=
  let decimal? (c : Char) : Option Nat := if c.isDigit then some (c.toNat - 48) else none
  -- A number is kept in one byte, so 256 is off.
  match value.toList with
  | '0' :: 'x' :: cs | '0' :: 'X' :: cs => leadingNumber 16 Text.Hex.digit? cs % 256 ≠ 0
  | c :: cs =>
    if c.isDigit then leadingNumber 10 decimal? (c :: cs) % 256 ≠ 0
    else value.toLower = "on" || value.toLower = "yes" || value.toLower = "true"
  | [] => false

def ask (mode : Mode) : String × String → Except StoreFault Mode
  | ("mode", value) =>
    match Mode.ofWord? value with
    | none => .error (.unknown "access mode" value)
    | some m => if mode.allows m then .ok m else .error (.notAllowed value)
  | ("cache", value) =>
    if value = "shared" ∨ value = "private" then .ok mode
    else .error (.unknown "cache mode" value)
  | _ => .ok mode

/-- The locator of a path with parameters. Of several manners the last counts, and of other
parameters the first. -/
def ofParameters (path : String) (mode : Mode) (ps : List (String × String)) :
    Except StoreFault Locator := do
  let mode ← ps.foldlM ask mode
  let word := (ps.reverse.lookup "vfs").getD "unix"
  let isOn (name : String) : Bool := (ps.lookup name).elim false isOn
  match Manner.ofWord? word with
  | none => .error (.unknown "vfs" word)
  | some manner =>
    let manner := if isOn "nolock" && manner ≠ .memory then .unguarded else manner
    return ⟨path, mode, manner, isOn "immutable", ps.lookup "modeof"⟩

def afterAuthority (cs : List Char) : Except StoreFault (List Char) :=
  let authority := cs.takeWhile (· ≠ '/')
  if authority = [] ∨ authority = "localhost".toList then .ok (cs.dropWhile (· ≠ '/'))
  else .error (.badAuthority (String.ofList authority))

def read (name : String) (mode : Mode) : Except StoreFault Locator :=
  match name.toList with
  | 'f' :: 'i' :: 'l' :: 'e' :: ':' :: cs => do
    let cs ← match cs with
      | '/' :: '/' :: cs => afterAuthority cs
      | cs => .ok cs
    let (path, rest) := cut '?' (symbols cs)
    ofParameters (pathOf path) mode (parameters rest)
  | _ => .ok ⟨name, mode, .shared, false, none⟩

def isFileless (l : Locator) : Bool :=
  l.path = "" || l.path = ":memory:" || l.mode = .memory || l.manner = .memory

def isReadOnly (l : Locator) : Bool :=
  l.mode = .reading ||
    (l.isFixed && l.mode ≠ .memory && l.path ≠ "" && l.path ≠ ":memory:")

def isLogged (l : Locator) : Bool := l.manner = .shared || l.manner = .alone

end Locator

end SlashGuard
