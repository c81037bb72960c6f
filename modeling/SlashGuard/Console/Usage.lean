import SlashGuard.Console.Command
import SlashGuard.Text.Decimal

/-!
The words of the command line. Commands stand in menus; options may stand at any level, and what
an option still waits for is settled when the next one is met, or at the end of its level, after
the levels below it.
-/
namespace SlashGuard.Usage

inductive Fault
  | invalidValue
  | unknownArgument
  | invalidSubcommand
  | missingSubcommand
  | missingArgument
  | valueValidation
  | conflict
  | tooManyValues
  | help
  | helpOnMissing
  | version
deriving DecidableEq, Repr

inductive Kind
  | path
  | text
  | number
deriving DecidableEq, Repr

structure Choice where
  name : String
  short : Option Char
  kind : Kind
deriving DecidableEq, Repr

abbrev Values := List (String × String)

structure Leaf where
  choices : List Choice
  takesKeys : Bool
  build : Values → List String → Option Command

inductive Menu
  | leaf (l : Leaf)
  | group (isTop : Bool) (entries : List (String × Menu))

def everywhere : List Choice := [⟨"database", none, .path⟩, ⟨"socket", none, .path⟩]

def numberOf (s : String) : Option UInt64 :=
  match Text.Decimal.read UInt64.size s.toList with
  | .ok n => some (UInt64.ofNat n)
  | .error _ => none

def Values.number? (vs : Values) (name : String) : Option UInt64 := (vs.lookup name).bind numberOf

def fileChoice : Choice := ⟨"file", some 'f', .path⟩

def keyChoice : Choice := ⟨"public-key", none, .text⟩

def rootChoice : Choice := ⟨"signing-root", none, .text⟩

def networkChoice : Choice := ⟨"genesis-validators-root", none, .text⟩

def database : Menu := .group false
  [("migrate", .leaf ⟨[], false, fun _ _ => some .migrate⟩),
    ("import", .leaf ⟨[fileChoice], false, fun vs _ => do
      return .importFile (← vs.lookup "file")⟩),
    ("export", .leaf ⟨[fileChoice], false, fun vs _ => some (.exportFile (vs.lookup "file"))⟩),
    ("prune", .leaf ⟨[⟨"keep", some 'k', .number⟩, keyChoice], false, fun vs _ => do
      return .prune (← vs.number? "keep") (vs.lookup "public-key")⟩)]

def validators : Menu := .group false
  [("register", .leaf ⟨[], true, fun _ keys =>
      if keys.isEmpty then none else some (.register keys)⟩),
    ("list", .leaf ⟨[], false, fun _ _ => some .list⟩)]

def daemon : Menu := .group false
  [("ping", .leaf ⟨[], false, fun _ _ => some .ping⟩),
    ("check-block", .leaf ⟨[keyChoice, ⟨"slot", none, .number⟩, rootChoice, networkChoice], false,
      fun vs _ => do
        return .checkBlock (← vs.lookup "public-key") (← vs.number? "slot")
          (← vs.lookup "signing-root") (vs.lookup "genesis-validators-root")⟩),
    ("check-attestation", .leaf ⟨[keyChoice, ⟨"source-epoch", none, .number⟩,
        ⟨"target-epoch", none, .number⟩, rootChoice, networkChoice], false,
      fun vs _ => do
        return .checkAttestation (← vs.lookup "public-key") (← vs.number? "source-epoch")
          (← vs.number? "target-epoch") (← vs.lookup "signing-root")
          (vs.lookup "genesis-validators-root")⟩)]

def top : Menu := .group true [("db", database), ("validators", validators), ("daemon", daemon)]

namespace Menu

def isTop : Menu → Bool
  | .group isTop _ => isTop
  | .leaf _ => false

def entries : Menu → List (String × Menu)
  | .group _ es => es
  | .leaf _ => []

def choices : Menu → List Choice
  | .leaf l => l.choices ++ everywhere
  | .group _ _ => everywhere

def takesKeys : Menu → Bool
  | .leaf l => l.takesKeys
  | .group _ _ => false

end Menu

/-- What is known at a level: settled values and keys, the option last met with its value as far
as it has one, and whether only keys may follow. -/
structure State where
  values : Values
  keys : List String
  pending : Option (Choice × Option String)
  onlyKeys : Bool

def start : State := ⟨[], [], none, false⟩

def check (kind : Kind) (v : String) : Except Fault Unit :=
  match kind with
  | .text => .ok ()
  | .path => if v = "" then .error .invalidValue else .ok ()
  | .number => if (numberOf v).isSome then .ok () else .error .valueValidation

def take (st : State) (c : Choice) (v : String) : Except Fault State :=
  if (st.values.lookup c.name).isSome then .error .conflict
  else do
    check c.kind v
    return { st with values := (c.name, v) :: st.values }

def settle (st : State) : Except Fault State :=
  match st.pending with
  | none => .ok st
  | some (_, none) => .error .invalidValue
  | some (c, some v) => take { st with pending := none } c v

def waits (st : State) : Bool :=
  match st.pending with
  | some (_, none) => true
  | _ => false

def meet (st : State) (c : Choice) (attached : Option String) : Except Fault State := do
  let st ← settle st
  match attached with
  | some v => take st c v
  | none => return { st with pending := some (c, none) }

/-- A flag stands alone and ends the reading. -/
def flag (st : State) (f : Fault) : Except Fault State := do
  let _ ← settle st
  .error f

/-- A word that begins with two dashes: the name of an option, and what follows a sign. -/
def long (m : Menu) (st : State) (name : String) (attached : Option String) :
    Except Fault State :=
  match m.choices.find? fun c => c.name = name with
  | some c => meet st c attached
  | none =>
    if name = "help" ∨ (name = "version" ∧ m.isTop) then
      if attached.isSome then .error .tooManyValues
      else flag st (if name = "help" then .help else .version)
    else .error .unknownArgument

/-- A word that begins with one dash: the letter of an option, and what follows it. -/
def short (m : Menu) (st : State) (letter : Char) (rest : List Char) : Except Fault State :=
  match m.choices.find? fun c => c.short = some letter with
  | some c =>
    match rest with
    | [] => meet st c none
    | '=' :: v => meet st c (some (String.ofList v))
    | v => meet st c (some (String.ofList v))
  | none =>
    if letter = 'h' then flag st .help
    else if letter = 'V' ∧ m.isTop then flag st .version
    else .error .unknownArgument

def plain (m : Menu) (st : State) (word : String) : Except Fault State :=
  if m.takesKeys then do
    let st ← settle st
    return { st with keys := st.keys ++ [word] }
  else if m.entries.isEmpty then .error .unknownArgument
  else if st.onlyKeys ∧ (m.entries.lookup word).isSome ∨ st.onlyKeys ∧ word = "help" then
    .error .unknownArgument
  else .error .invalidSubcommand

def splitSign (cs : List Char) : String × Option String :=
  let name := cs.takeWhile (· ≠ '=')
  match cs.dropWhile (· ≠ '=') with
  | [] => (String.ofList name, none)
  | _ :: v => (String.ofList name, some (String.ofList v))

def word (m : Menu) (st : State) (w : String) : Except Fault State :=
  if st.onlyKeys then plain m st w
  else match w.toList with
  | ['-', '-'] => .ok { st with onlyKeys := true }
  | '-' :: '-' :: cs =>
    let (name, attached) := splitSign cs
    long m st name attached
  | '-' :: c :: cs => short m st c cs
  | _ =>
    match st.pending with
    | some (c, none) => .ok { st with pending := some (c, some w) }
    | _ => plain m st w

def helpOn (m : Menu) : List String → Fault
  | [] => .help
  | w :: ws =>
    match m.entries.lookup w with
    | some below => helpOn below ws
    | none => if w = "help" ∧ ¬ m.entries.isEmpty ∧ ws.isEmpty then .help else .invalidSubcommand

def finish (m : Menu) (st : State) : Except Fault (Values × Command) := do
  let st ← settle st
  match m with
  | .leaf l =>
    match l.build st.values st.keys with
    | some c => return (st.values, c)
    | none => .error .missingArgument
  | .group _ _ =>
    if st.values.isEmpty then .error .helpOnMissing else .error .missingSubcommand

def readLevel (m : Menu) (st : State) : List String → Except Fault (Values × Command)
  | [] => finish m st
  | w :: ws =>
    if ¬ st.onlyKeys ∧ ¬ waits st then
      match m.entries.lookup w with
      | some below => do
        let (values, command) ← readLevel below start ws
        let st ← settle st
        return (values ++ st.values, command)
      | none =>
        if w = "help" ∧ ¬ m.entries.isEmpty then .error (helpOn m ws)
        else do readLevel m (← word m st w) ws
    else do readLevel m (← word m st w) ws

def read (words : List String) : Except Fault Invocation := do
  let (values, command) ← readLevel top start words
  return ⟨values.lookup "database", values.lookup "socket", command⟩

end SlashGuard.Usage
