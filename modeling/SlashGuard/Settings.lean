import SlashGuard.PublicKey
import SlashGuard.Root

/-!
The settings of the service: where its ledger and its socket are, the validators it registers and
the network it is held to when it starts, and when it prunes.
-/
namespace SlashGuard

structure PruningSettings where
  enabled : Bool
  keep : UInt64
  interval : UInt64
  atBoot : Bool
deriving DecidableEq, Repr

structure Settings where
  database : String
  socket : String
  validators : List String
  network : Option String
  pruning : PruningSettings
deriving DecidableEq, Repr

inductive SettingsFault
  | nothingKept
  | noInterval
  | badKey (text : String) (fault : InputFault)
  | badNetwork (fault : InputFault)
deriving DecidableEq, Repr

def SettingsFault.message : SettingsFault → String
  | .nothingKept => "pruning.entries_to_keep must be at least 1"
  | .noInterval => "pruning.interval_secs must be at least 1"
  | .badKey text fault => "Invalid validator key " ++ text ++ ": " ++ fault.message
  | .badNetwork fault => "Invalid genesis validators root: " ++ fault.message

structure Environment where
  runtimeDir : Option String
  dataHome : Option String
  home : Option String
deriving DecidableEq, Repr

def under (dir part : String) : String :=
  if dir = "" then part else if dir.endsWith "/" then dir ++ part else dir ++ "/" ++ part

def Environment.socket (env : Environment) : String :=
  under (env.runtimeDir.getD "/tmp") "bulwark.sock"

def Environment.database (env : Environment) : String :=
  let base := (env.dataHome.orElse fun _ => env.home.map fun h => under h ".local/share").getD
    "/var/lib"
  under (under base "bulwark") "slashing-protection.db"

namespace PruningSettings

/-- No pruning; 250 epochs of 32 slots are kept and a day passes if it is turned on. -/
def standard : PruningSettings := ⟨false, 8000, 86400, false⟩

structure Draft where
  enabled : Option Bool
  keep : Option UInt64
  interval : Option UInt64
  atBoot : Option Bool

open Json.Decoder in
def decoder : Json.Decoder PruningSettings :=
  record "struct PruningConfig"
    [field "enabled" boolean Draft.enabled fun x d => { d with enabled := some x },
      field "entries_to_keep" word Draft.keep fun x d => { d with keep := some x },
      field "interval_secs" word Draft.interval fun x d => { d with interval := some x },
      field "at_boot" boolean Draft.atBoot fun x d => { d with atBoot := some x }]
    ⟨none, none, none, none⟩ fun d => do
      return ⟨← need "enabled" d.enabled, ← need "entries_to_keep" d.keep,
        ← need "interval_secs" d.interval, ← need "at_boot" d.atBoot⟩

def toValue (p : PruningSettings) : Json.Value :=
  .object [("enabled", .bool p.enabled), ("entries_to_keep", .whole p.keep.toNat),
    ("interval_secs", .whole p.interval.toNat), ("at_boot", .bool p.atBoot)]

end PruningSettings

namespace Settings

def standard (env : Environment) : Settings :=
  ⟨env.database, env.socket, [], none, .standard⟩

structure Draft where
  database : Option String
  socket : Option String
  validators : Option (List String)
  network : Option (Option String)
  pruning : Option PruningSettings

open Json.Decoder in
def decoder : Json.Decoder Settings :=
  record "struct DaemonConfig"
    [field "database_path" (stringAs "path string") Draft.database
        fun x d => { d with database := some x },
      field "ipc_socket_path" (stringAs "path string") Draft.socket
        fun x d => { d with socket := some x },
      (field "validators" (list string) Draft.validators
        fun x d => { d with validators := some x }).orNone,
      (field "genesis_validators_root" (option string) Draft.network
        fun x d => { d with network := some x }).orNone,
      (field "pruning" PruningSettings.decoder Draft.pruning
        fun x d => { d with pruning := some x }).orNone]
    ⟨none, none, none, none, none⟩ fun d => do
      return ⟨← need "database_path" d.database, ← need "ipc_socket_path" d.socket,
        d.validators.getD [], d.network.getD none, d.pruning.getD .standard⟩

def toValue (s : Settings) : Json.Value :=
  .object [("database_path", .string s.database), ("ipc_socket_path", .string s.socket),
    ("validators", .array (s.validators.map .string)),
    ("genesis_validators_root", .option .string s.network), ("pruning", s.pruning.toValue)]

def keys (s : Settings) : Except SettingsFault (List PublicKey) :=
  s.validators.mapM fun text => (PublicKey.ofHex text).mapError (.badKey text)

def root? (s : Settings) : Except SettingsFault (Option Root) :=
  match s.network with
  | none => .ok none
  | some text =>
    match Root.ofHex .network text with
    | .ok r => .ok (some r)
    | .error fault => .error (.badNetwork fault)

def validate (s : Settings) : Except SettingsFault Unit := do
  if s.pruning.keep = 0 then .error .nothingKept
  else if s.pruning.interval = 0 then .error .noInterval
  else
    let _ ← s.keys
    let _ ← s.root?
    return ()

def page (s : Settings) : String := s.toValue.page

end Settings

inductive LoadFault
  | decoding (fault : Json.Fault)
  | rule (fault : SettingsFault)
deriving DecidableEq, Repr

def Settings.load (text : String) : Except LoadFault Settings := do
  let s ← (Json.decode decoder (Text.Utf8.ofText text)).mapError .decoding
  s.validate.mapError .rule
  return s

end SlashGuard
