import SlashGuard.Console.Run
import SlashGuard.Ledger.Image
import SlashGuard.Text.Moment

/-!
The command line. What a command may touch is read into a host, the command is carried out on it,
and what has changed is written back. No service can be reached from here.
-/
namespace SlashGuard.Main

def pathOf (database : String) : String :=
  match Locator.read database .creating with
  | .ok loc => loc.path
  | .error _ => database

def ledgerPaths (database : String) : List String :=
  ["", "-journal", "-wal", "-shm", ".lock"].map (pathOf database ++ ·)

def touched (database : String) : Command → List String
  | .importFile file | .exportFile (some file) => file :: ledgerPaths database
  | _ => ledgerPaths database

def here : IO Place := do return (Path.ofText (← IO.currentDir).toString).names

def places (start : Place) (parts : List String) : List Place :=
  match parts with
  | [] => [start]
  | part :: rest => start :: places (start.step part) rest

def textOf (p : Place) : String := "/" ++ String.intercalate "/" p

def inspect (p : Place) : IO (Option Node) := do
  let file := (← IO.currentDir) / textOf p
  if ← file.isDir then return some .directory
  else if ← file.pathExists then
    let content ← IO.FS.readFile file
    return some ((Ledger.Image.read content).elim (.text content) (.ledger · true true))
  else return none

def gather (names : List String) : IO Files := do
  let here ← here
  let mut files : Files := ⟨here, [], []⟩
  let paths := names.map Path.ofText
  for p in places [] here ++ paths.flatMap fun p => places (files.start p) p.parts do
    if let some n ← inspect p then files := files.put p n
  return files

def settle (before after : Files) : IO Unit := do
  for (p, _) in before.nodes do
    if (after.at? p).isNone then IO.FS.removeFile (textOf p)
  for (p, n) in after.nodes.reverse do
    if before.at? p ≠ some n then
      match n with
      | .directory => IO.FS.createDirAll (textOf p)
      | .text s => IO.FS.writeFile (textOf p) s
      | .ledger l _ _ => IO.FS.writeFile (textOf p) (Ledger.Image.write l)
      | .journal | .device _ | .socket => pure ()

/-- The seconds since 1970, as the file system stamps what is made. -/
def clock : IO Nat := do
  let (_, path) ← IO.FS.createTempFile
  let stamped := (← path.metadata).modified
  IO.FS.removeFile path
  return stamped.sec.toNat

/-- What names an export that is given no file; no other command asks for the time. -/
def moment : Command → IO String
  | .exportFile none => return String.ofList (Text.Moment.write (← clock))
  | _ => return ""

def usage : Usage.Fault → String
  | .help | .helpOnMissing =>
    "Usage: bulwark [--database PATH] [--socket PATH] COMMAND\n\n" ++
    "  db migrate | import --file PATH | export [--file PATH] | prune --keep N [--public-key KEY]\n" ++
    "  validators register KEY... | list\n" ++
    "  daemon ping | check-block ... | check-attestation ...\n"
  | .version => "bulwark " ++ Service.version ++ "\n"
  | .invalidValue => "error: a value is required\n"
  | .unknownArgument => "error: unexpected argument found\n"
  | .invalidSubcommand => "error: unrecognized subcommand\n"
  | .missingSubcommand => "error: a subcommand is required\n"
  | .missingArgument => "error: a required argument was not provided\n"
  | .valueValidation => "error: invalid value\n"
  | .conflict => "error: an argument cannot be used multiple times\n"
  | .tooManyValues => "error: unexpected value found\n"

def run (words : List String) : IO UInt32 := do
  match Usage.read words with
  | .error f =>
    match f with
    | .help | .version => do
      IO.print (usage f)
      return 0
    | f => do
      IO.eprint (usage f)
      return 2
  | .ok i =>
    let env : Environment := ⟨← IO.getEnv "XDG_RUNTIME_DIR", ← IO.getEnv "XDG_DATA_HOME",
      ← IO.getEnv "HOME"⟩
    let before ← gather (touched (i.database.getD env.database) i.command)
    let outcome := Console.run ⟨before, none⟩ env (← moment i.command) i
    settle before outcome.host.files
    IO.print outcome.output
    match outcome.failure with
    | none => return 0
    | some f => do
      IO.eprintln ("Error: " ++ f.message)
      return 1

end SlashGuard.Main

def main (words : List String) : IO UInt32 := SlashGuard.Main.run words
