import SlashGuard.Engine
import SlashGuard.Settings
import SlashGuard.Wire.Request
import SlashGuard.Wire.Reply

/-!
The service: an engine that is asked by public key, and the network that stands in where a request
names none. A key that is not registered is refused.
-/
namespace SlashGuard

inductive AddressFault
  | file (fault : FileFault)
  | nul
  | tooLong
  | nameTooLong
deriving DecidableEq, Repr

inductive LinkFault
  | closed
  | notRunning
  | cannotConnect (fault : AddressFault)
  | cannotBind (fault : AddressFault)
  | notSocket (path : String)
deriving DecidableEq, Repr

inductive ServiceFailure
  | engine (f : Failure)
  | file (f : FileFault)
  | decoding (f : Json.Fault)
  | unknownValidator (key : PublicKey)
  | noNetwork
  | link (f : LinkFault)
  | settings (f : SettingsFault)
deriving DecidableEq, Repr

def AddressFault.message : AddressFault → String
  | .file fault => fault.message
  | .nul => "paths must not contain interior null bytes"
  | .tooLong => "path must be shorter than SUN_LEN"
  | .nameTooLong => "abstract socket name must be shorter than SUN_LEN"

def LinkFault.message : LinkFault → String
  | .closed => "Connection closed by daemon"
  | .notRunning => "Daemon not running"
  | .cannotConnect fault => "Failed to connect: " ++ fault.message
  | .cannotBind fault => "Failed to bind socket: " ++ fault.message
  | .notSocket path => "Refusing to replace " ++ Text.Quoted.text path ++ ": not a socket"

def ServiceFailure.message : ServiceFailure → String
  | .engine f => "Slashing protection error: " ++ f.message
  | .file f => "IO error: " ++ f.message
  | .decoding f => "Serialization error: " ++ f.message
  | .unknownValidator key => "Validator not registered: " ++ key.toHex
  | .noNetwork => "Genesis validators root required but none was supplied or configured"
  | .link f => "IPC error: " ++ f.message
  | .settings f => "Configuration error: " ++ f.message

structure Service where
  engine : Engine
  network : Option Root
deriving DecidableEq, Repr

namespace Service

def version : String := "0.1.0"

/-- Starts on an engine: the network is pinned, then the keys are registered. The settings are read
before the ledger is touched. -/
def start (keys : List PublicKey) (network : Option Root) (e : Engine) :
    Except Failure Service := do
  let e ← match network with
    | some r => e.pinNetwork r
    | none => .ok e
  if keys.isEmpty then return ⟨e, network⟩
  else
    let (_, e) ← e.register keys
    return ⟨e, network⟩

def networkOf (s : Service) (supplied : Option Root) : Except ServiceFailure Root :=
  match supplied.orElse fun _ => s.network with
  | some r => .ok r
  | none => .error .noNetwork

def resolve (s : Service) (key : PublicKey) : Except ServiceFailure Int := do
  match ← (s.engine.lookup key).mapError .engine with
  | some id => return id
  | none => .error (.unknownValidator key)

def maySignBlock (s : Service) (key : PublicKey) (b : Block) (network : Option Root) :
    Except ServiceFailure (Verdict × Service) := do
  let network ← s.networkOf network
  let id ← s.resolve key
  let (v, e) ← (s.engine.maySignBlock id b network).mapError .engine
  return (v, { s with engine := e })

def maySignAttestation (s : Service) (key : PublicKey) (a : Attestation) (network : Option Root) :
    Except ServiceFailure (Verdict × Service) := do
  let network ← s.networkOf network
  let id ← s.resolve key
  let (v, e) ← (s.engine.maySignAttestation id a network).mapError .engine
  return (v, { s with engine := e })

def pruneAll (s : Service) (keep : UInt64) : Except ServiceFailure (PruneSummary × Service) := do
  let (o, e) ← (s.engine.pruneAll keep.toNat).mapError .engine
  return (o, { s with engine := e })

def prune (s : Service) (keep : UInt64) :
    Option PublicKey → Except ServiceFailure (PruneSummary × Service)
  | none => s.pruneAll keep
  | some key => do
    let id ← s.resolve key
    let (o, e) ← (s.engine.prune keep.toNat id).mapError .engine
    return (.ofOutcome o, { s with engine := e })

def parseKey (text : String) : Except String PublicKey :=
  (PublicKey.ofHex text).mapError fun f => "Invalid public key: " ++ f.message

def parseRoot (text : String) : Except String Root :=
  (Root.ofHex .signing text).mapError fun f => "Invalid signing root: " ++ f.message

def parseNetwork : Option String → Except String (Option Root)
  | none => .ok none
  | some text =>
    match Root.ofHex .network text with
    | .ok r => .ok (some r)
    | .error f => .error ("Invalid genesis validators root: " ++ f.message)

def failed {ε α : Type} (what : String) (message : ε → String) (x : Except ε α) :
    Except String α :=
  x.mapError fun f => what ++ ": " ++ message f

def answer (s : Service) : Request → Except String (Reply × Service)
  | .ping => .ok (.pong version, s)
  | .register texts => do
    let keys ← texts.mapM parseKey
    let (ids, e) ← failed "Registration failed" ServiceFailure.message
      ((s.engine.register keys).mapError .engine)
    return (.registered ids, { s with engine := e })
  | .lookup text => do
    let key ← parseKey text
    let id ← failed "Lookup failed" ServiceFailure.message
      ((s.engine.lookup key).mapError .engine)
    return (.validator id, s)
  | .block text slot root network => do
    let key ← parseKey text
    let root ← parseRoot root
    let network ← parseNetwork network
    let (v, s) ← failed "Block check failed" ServiceFailure.message
      (s.maySignBlock key ⟨⟨slot⟩, root⟩ network)
    return (.decision v, s)
  | .attestation text source target root network => do
    let key ← parseKey text
    let root ← parseRoot root
    let network ← parseNetwork network
    let (v, s) ← failed "Attestation check failed" ServiceFailure.message
      (s.maySignAttestation key ⟨⟨source⟩, ⟨target⟩, root⟩ network)
    return (.decision v, s)
  | .prune keep text => do
    let key ← match text with
      | none => .ok none
      | some text => (parseKey text).map some
    let (o, s) ← failed "Pruning failed" ServiceFailure.message (s.prune keep key)
    return (.pruned o, s)
  | .importText text => do
    let (o, e) ← failed "Import failed" ServiceFailure.message
      ((s.engine.importText (Text.Utf8.ofText text)).mapError .engine)
    return (.imported o, { s with engine := e })
  | .exportText => do
    let text ← failed "Export failed" ServiceFailure.message
      (s.engine.exportText.mapError .engine)
    return (.exported text, s)

def handle (s : Service) (r : Request) : Reply × Service :=
  match s.answer r with
  | .ok (reply, s) => (reply, s)
  | .error message => (.error message, s)

end Service

end SlashGuard
