import SlashGuard.Json.Decoder
import SlashGuard.Json.Value

/-! What a signer may ask of the service. Keys and roots travel as hexadecimal text, slots and
epochs as numbers. -/
namespace SlashGuard

inductive Request
  | ping
  | register (keys : List String)
  | lookup (key : String)
  | block (key : String) (slot : UInt64) (root : String) (network : Option String)
  | attestation (key : String) (source target : UInt64) (root : String) (network : Option String)
  | prune (keep : UInt64) (key : Option String)
  | importText (text : String)
  | exportText
deriving DecidableEq, Repr

namespace Request

/-- The fields met so far, of whichever request it is. -/
structure Draft where
  key : Option String
  keys : Option (List String)
  slot : Option UInt64
  source : Option UInt64
  target : Option UInt64
  root : Option String
  network : Option (Option String)
  keep : Option UInt64
  only : Option (Option String)
  text : Option String

def Draft.blank : Draft := ⟨none, none, none, none, none, none, none, none, none, none⟩

open Json.Decoder

def keyField : Json.Decoder.Field Draft :=
  field "public_key" string Draft.key fun x d => { d with key := some x }

def rootField : Json.Decoder.Field Draft :=
  field "signing_root" string Draft.root fun x d => { d with root := some x }

def networkField : Json.Decoder.Field Draft :=
  (field "genesis_validators_root" (option string) Draft.network
    fun x d => { d with network := some x }).orNone

def body (name : String) (fields : List (Json.Decoder.Field Draft))
    (build : Draft → Except Json.Fault Request) : Json.Decoder Request :=
  record ("struct variant IpcRequest::" ++ name) fields .blank build

def bodies : List (String × Json.Decoder Request) :=
  [("Ping", nothing .ping),
    ("RegisterValidators", body "RegisterValidators"
      [field "public_keys" (list string) Draft.keys fun x d => { d with keys := some x }]
      fun d => do return .register (← need "public_keys" d.keys)),
    ("Lookup", body "Lookup" [keyField] fun d => do return .lookup (← need "public_key" d.key)),
    ("MaySignBlock", body "MaySignBlock"
      [keyField, field "slot" word Draft.slot fun x d => { d with slot := some x }, rootField,
        networkField]
      fun d => do
        return .block (← need "public_key" d.key) (← need "slot" d.slot)
          (← need "signing_root" d.root) (d.network.getD none)),
    ("MaySignAttestation", body "MaySignAttestation"
      [keyField, field "source_epoch" word Draft.source fun x d => { d with source := some x },
        field "target_epoch" word Draft.target fun x d => { d with target := some x }, rootField,
        networkField]
      fun d => do
        return .attestation (← need "public_key" d.key) (← need "source_epoch" d.source)
          (← need "target_epoch" d.target) (← need "signing_root" d.root) (d.network.getD none)),
    ("Prune", body "Prune"
      [field "entries_to_keep" word Draft.keep fun x d => { d with keep := some x },
        (field "public_key" (option string) Draft.only
          fun x d => { d with only := some x }).orNone]
      fun d => do return .prune (← need "entries_to_keep" d.keep) (d.only.getD none)),
    ("Import", body "Import"
      [field "interchange_json" string Draft.text fun x d => { d with text := some x }]
      fun d => do return .importText (← need "interchange_json" d.text)),
    ("Export", nothing .exportText)]

def decoder : Json.Decoder Request :=
  inside "internally tagged enum IpcRequest" "type" bodies id

def toValue : Request → Json.Value
  | .ping => .object [("type", .string "Ping")]
  | .register keys =>
    .object [("type", .string "RegisterValidators"), ("public_keys", .array (keys.map .string))]
  | .lookup key => .object [("type", .string "Lookup"), ("public_key", .string key)]
  | .block key slot root network =>
    .object [("type", .string "MaySignBlock"), ("public_key", .string key),
      ("slot", .whole slot.toNat), ("signing_root", .string root),
      ("genesis_validators_root", .option .string network)]
  | .attestation key source target root network =>
    .object [("type", .string "MaySignAttestation"), ("public_key", .string key),
      ("source_epoch", .whole source.toNat), ("target_epoch", .whole target.toNat),
      ("signing_root", .string root), ("genesis_validators_root", .option .string network)]
  | .prune keep key =>
    .object [("type", .string "Prune"), ("entries_to_keep", .whole keep.toNat),
      ("public_key", .option .string key)]
  | .importText text => .object [("type", .string "Import"), ("interchange_json", .string text)]
  | .exportText => .object [("type", .string "Export")]

end Request

end SlashGuard
