import SlashGuard.Client
import SlashGuard.Console.Usage
import SlashGuard.Files.Opening

/-!
What the commands do. Commands on a ledger open its file for themselves; commands to a service go
over the connection of the one that runs.
-/
namespace SlashGuard

structure Daemon where
  storage : Storage
  socket : Place
  guard : Guard
  network : Option Root
deriving DecidableEq, Repr

structure Host where
  files : Files
  daemon : Option Daemon
deriving Repr

namespace Host

def service (h : Host) (d : Daemon) : Except Failure Service := do
  let l ← (h.files.content d.storage).mapError .store
  return ⟨⟨l, d.guard, d.storage.access⟩, d.network⟩

def keep (h : Host) (d : Daemon) (s : Service) : Host :=
  let (storage, files) := h.files.keep s.engine.ledger d.storage
  ⟨files, some { d with storage := storage, guard := s.engine.guard }⟩

def stop (h : Host) : Bool × Host :=
  match h.daemon with
  | none => (false, h)
  | some d => (true, ⟨(h.files.close d.storage).remove d.socket, none⟩)

def addressLimit : Nat := 107

def checkAddress (socket : String) : Except AddressFault Unit :=
  if socket.contains '\x00' then .error .nul
  else if addressLimit < socket.utf8ByteSize then .error .tooLong
  else .ok ()

/-- The place for a socket. One that was left there is replaced, and nothing else is. -/
def socketPlace (fs : Files) (socket : String) : Except ServiceFailure Place :=
  let p := Path.ofText socket
  match fs.place p with
  | .ok q =>
    match fs.at? q with
    | some .socket => .ok q
    | _ => .error (.link (.notSocket socket))
  | .error .missing => do
    (checkAddress socket).mapError fun f => .link (.cannotBind f)
    let (dir, last) ← (fs.seat p).mapError fun f => .link (.cannotBind (.file f))
    return dir ++ [last]
  | .error f => .error (.file f)

def makeDirectories (fs : Files) (s : Settings) : Except FileFault Unit × Files :=
  match fs.makeParents (.ofText s.database) with
  | (.ok (), fs) => fs.makeParents (.ofText s.socket)
  | r => r

def startService (fs : Files) (s : Settings) :
    Except ServiceFailure (Service × Storage) × Files :=
  match s.keys, s.root? with
  | .error f, _ => (.error (.settings f), fs)
  | .ok _, .error f => (.error (.settings f), fs)
  | .ok keys, .ok network =>
    match (Files.createLedger s.database).run fs with
    | (.error f, fs) => (.error (.engine f), fs)
    | (.ok (e, storage), fs) =>
      match Service.start keys network e with
      -- A ledger that cannot be served is not left open.
      | .error f => (.error (.engine f), fs.close storage)
      | .ok service =>
        let (storage, fs) := fs.keep service.engine.ledger storage
        (.ok (service, storage), fs)

def start (h : Host) (s : Settings) : Except ServiceFailure Unit × Host :=
  match makeDirectories h.stop.2.files s with
  | (.error f, files) => (.error (.file f), ⟨files, none⟩)
  | (.ok (), files) =>
    match startService files s with
    | (.error f, files) => (.error f, ⟨files, none⟩)
    | (.ok (service, storage), files) =>
      match socketPlace files s.socket with
      | .error f => (.error f, ⟨files.close storage, none⟩)
      | .ok socket =>
        let d : Daemon := ⟨storage, socket, service.engine.guard, service.network⟩
        (.ok (), ⟨files.put socket .socket, some d⟩)

def send (h : Host) (d : Daemon) (bytes : List UInt8) : List Reply × Host :=
  match h.service d with
  | .error _ => ([], h)
  | .ok s =>
    let (rs, s) := Connection.serve s bytes
    (rs, h.keep d s)

def prunePass (h : Host) (d : Daemon) (keep : UInt64) : Option PruneSummary × Host :=
  match h.service d with
  | .error _ => (none, h)
  | .ok s =>
    match s.pruneAll keep with
    | .ok (o, s) => (some o, h.keep d s)
    | .error _ => (none, h)

/-- The daemon behind a socket. What follows a null character is a name without a place; nobody
listens there, and a name that is empty or too long cannot be asked for. -/
def connect (h : Host) (socket : String) : Except LinkFault Daemon :=
  match socket.toList with
  | '\x00' :: name =>
    if name.isEmpty then .error (.cannotConnect (.file .invalid))
    else if addressLimit < (String.ofList name).utf8ByteSize then
      .error (.cannotConnect .nameTooLong)
    else .error .notRunning
  | _ => do
    (checkAddress socket).mapError .cannotConnect
    match h.files.place (.ofText socket), h.daemon with
    | .error .missing, _ | .ok _, none => .error .notRunning
    | .error f, _ => .error (.cannotConnect (.file f))
    | .ok q, some d => if d.socket = q then return d else .error .notRunning

def ask (h : Host) (socket : String) (r : Request) : Except ClientFailure Reply × Host :=
  match h.connect socket with
  | .error f => (.error (Client.ofService (.link f)), h)
  | .ok d =>
    let (rs, h) := h.send d (Text.Utf8.encode (Connection.line r.toValue).toList)
    (Client.receive (String.join (rs.map fun r => Connection.line r.toValue)), h)

end Host

namespace Offline

def importText (e : Engine) (file : Except FileFault Text.Utf8.Source) :
    Except ClientFailure (ImportSummary × Engine) := do
  let source ← file.mapError .file
  (e.importText source).mapError .engine

def exportText (e : Engine) : Except ClientFailure String := e.exportText.mapError .engine

def prune (e : Engine) (keep : UInt64) :
    Option String → Except ClientFailure (PruneSummary × Engine)
  | none => (e.pruneAll keep.toNat).mapError .engine
  | some text => do
    let key ← (PublicKey.ofHex text).mapError .input
    match ← (e.lookup key).mapError .engine with
    | none => .error (.unknownValidator key)
    | some id =>
      let (o, e) ← (e.prune keep.toNat id).mapError .engine
      return (.ofOutcome o, e)

def keys (texts : List String) : Except ClientFailure (List PublicKey) :=
  texts.mapM fun text => (PublicKey.ofHex text).mapError .input

def register (e : Engine) (keys : List PublicKey) : Except ClientFailure (List Int × Engine) :=
  (e.register keys).mapError .engine

end Offline

namespace Console

def importReport (file : String) (s : ImportSummary) : String :=
  "✓ Imported " ++ file ++ "\n" ++
  "  Validators: " ++ toString s.validators ++ "\n" ++
  "  Blocks: " ++ toString s.blocksImported ++ " imported, " ++ toString s.blocksSkipped ++
    " already present\n" ++
  "  Attestations: " ++ toString s.attestationsImported ++ " imported, " ++
    toString s.attestationsSkipped ++ " already present\n" ++
  if 0 < s.conflicts then
    "\n⚠️  WARNING: " ++ toString s.conflicts ++
      " conflicting records imported; watermarks were raised past them\n"
  else ""

def pruneReport (s : PruneSummary) : String :=
  "✓ Pruned " ++ toString s.pruned ++ " validator(s)\n" ++
  "  Blocks deleted: " ++ toString s.blocks ++ "\n" ++
  "  Attestations deleted: " ++ toString s.attestations ++ "\n" ++
  if 0 < s.failed then "\n⚠️  WARNING: " ++ toString s.failed ++ " validator(s) failed\n" else ""

def column (id : Int) : String :=
  let s := toString id
  String.ofList (List.replicate (6 - s.length) ' ') ++ s

def listReport (vs : List (Int × PublicKey)) : String :=
  if vs.isEmpty then "No validators registered\n"
  else String.join (vs.map fun (id, key) => column id ++ "  " ++ key.toHex ++ "\n")

def registerReport (texts : List String) (ids : List Int) : String :=
  String.join ((texts.zip ids).map fun (text, id) => text ++ " -> " ++ toString id ++ "\n")

def verdictReport : Verdict → String
  | .allowed safe => "✓ Safe to sign (" ++ safe.word ++ ")\n"
  | .refused reason => "✗ Refused: " ++ reason.name ++ "\n"

structure Outcome where
  host : Host
  output : String
  failure : Option ClientFailure
deriving Repr

def fail (h : Host) (f : ClientFailure) : Outcome := ⟨h, "", some f⟩

def withEngine (h : Host) (database : String) (f : Host → Engine → Storage → Outcome) : Outcome :=
  match (Files.openLedger database).run h.files with
  | (.error e, files) => fail { h with files := files } (.engine e)
  | (.ok (e, storage), files) =>
    let o := f { h with files := files } e storage
    { o with host := { o.host with files := o.host.files.close storage } }

def save (h : Host) (e : Engine) (storage : Storage) : Host :=
  { h with files := (h.files.keep e.ledger storage).2 }

def askVerdict (h : Host) (socket : String) (r : Request) : Outcome :=
  let (reply, h) := h.ask socket r
  match reply >>= Client.verdict with
  | .ok v => ⟨h, verdictReport v, none⟩
  | .error f => fail h f

/-- Carries out a command. `moment` names an export that is given no file. -/
def execute (h : Host) (database socket moment : String) : Command → Outcome
  | .migrate =>
    match (Files.createLedger database).run h.files with
    | (.error f, files) => fail { h with files := files } (.engine f)
    | (.ok (_, storage), files) =>
      ⟨{ h with files := files.close storage }, "✓ Database ready at " ++ database ++ "\n", none⟩
  | .importFile file => withEngine h database fun h e storage =>
    let source := (h.files.readText (.ofText file)).map Text.Utf8.ofText
    match Offline.importText e source with
    | .error f => fail h f
    | .ok (s, e) => ⟨save h e storage, importReport file s, none⟩
  | .exportFile file => withEngine h database fun h e _ =>
    match Offline.exportText e with
    | .error f => fail h f
    | .ok text =>
      let file := file.getD ("slashing-protection-" ++ moment ++ ".json")
      match h.files.writeText (.ofText file) text with
      | .error f => fail h (.file f)
      | .ok files =>
        ⟨{ h with files := files }, "✓ Exported slashing protection data to " ++ file ++ "\n", none⟩
  | .prune keep key => withEngine h database fun h e storage =>
    match Offline.prune e keep key with
    | .error f => fail h f
    | .ok (s, e) => ⟨save h e storage, pruneReport s, none⟩
  | .register texts =>
    match Offline.keys texts with
    | .error f => fail h f
    | .ok keys => withEngine h database fun h e storage =>
      match Offline.register e keys with
      | .error f => fail h f
      | .ok (ids, e) => ⟨save h e storage, registerReport texts ids, none⟩
  | .list => withEngine h database fun h e _ =>
    match e.validators with
    | .error f => fail h (.engine f)
    | .ok vs => ⟨h, listReport vs, none⟩
  | .ping =>
    let (reply, h) := h.ask socket .ping
    match reply >>= Client.pong with
    | .ok version => ⟨h, "Bulwark daemon v" ++ version ++ " is running\n", none⟩
    | .error .notRunning =>
      ⟨h, "Bulwark daemon is not running\nStart it with: bulwark-daemon\n", some .notRunning⟩
    | .error f => fail h f
  | .checkBlock key slot root network => askVerdict h socket (.block key slot root network)
  | .checkAttestation key source target root network =>
    askVerdict h socket (.attestation key source target root network)

def run (h : Host) (env : Environment) (moment : String) (i : Invocation) : Outcome :=
  execute h (i.database.getD env.database) (i.socket.getD env.socket) moment i.command

end Console

end SlashGuard
