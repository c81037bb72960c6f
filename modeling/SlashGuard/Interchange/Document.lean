import SlashGuard.PublicKey
import SlashGuard.Record

/-!
Documents that carry the signing history of validators from one signer to another. Numbers are
written as strings and bytes in hexadecimal with a prefix; bare numbers, digits without prefix
and of either case, unknown fields and arrays in place of objects are read too.
-/
namespace SlashGuard

structure KeyHistory where
  key : PublicKey
  blocks : List Block
  attestations : List Attestation
deriving DecidableEq, Repr

structure Metadata where
  version : Nat
  network : Root
deriving DecidableEq, Repr

/-- Without `data` there is nothing to import. -/
structure Document where
  metadata : Metadata
  data : Option (List KeyHistory)
deriving DecidableEq, Repr

namespace KeyHistory

structure Draft where
  key : Option PublicKey
  blocks : Option (List Block)
  attestations : Option (List Attestation)

open Json.Decoder in
def decoder : Json.Decoder KeyHistory :=
  record "struct ValidatorHistory"
    [field "pubkey" PublicKey.decoder Draft.key fun x d => { d with key := some x },
      (field "signed_blocks" (list Block.decoder) Draft.blocks
        fun x d => { d with blocks := some x }).orNone,
      (field "signed_attestations" (list Attestation.decoder) Draft.attestations
        fun x d => { d with attestations := some x }).orNone]
    ⟨none, none, none⟩ fun d => do
      return ⟨← need "pubkey" d.key, d.blocks.getD [], d.attestations.getD []⟩

def toValue (h : KeyHistory) : Json.Value :=
  .object [("pubkey", h.key.toValue), ("signed_blocks", .array (h.blocks.map Block.toValue)),
    ("signed_attestations", .array (h.attestations.map Attestation.toValue))]

end KeyHistory

namespace Metadata

def versionDecoder : Json.Decoder Nat :=
  Json.Decoder.numberOrText UInt32.size id fun s =>
    (Text.Decimal.read UInt32.size (Text.Blank.trim s.toList)).mapError Text.Decimal.Fault.message

structure Draft where
  version : Option Nat
  network : Option Root

open Json.Decoder in
def decoder : Json.Decoder Metadata :=
  record "struct InterchangeMetadata"
    [field "interchange_format_version" versionDecoder Draft.version
        fun x d => { d with version := some x },
      field "genesis_validators_root" Root.decoder Draft.network
        fun x d => { d with network := some x }]
    ⟨none, none⟩ fun d => do
      return ⟨← need "interchange_format_version" d.version,
        ← need "genesis_validators_root" d.network⟩

def toValue (m : Metadata) : Json.Value :=
  .object [("interchange_format_version", .string (String.ofList (Text.Decimal.write m.version))),
    ("genesis_validators_root", m.network.toValue)]

end Metadata

namespace Document

def current (network : Root) (data : List KeyHistory) : Document :=
  ⟨⟨currentFormat, network⟩, some data⟩

def histories (d : Document) : List KeyHistory := d.data.getD []

structure Draft where
  metadata : Option Metadata
  data : Option (Option (List KeyHistory))

open Json.Decoder in
def decoder : Json.Decoder Document :=
  record "struct InterchangeDocument"
    [field "metadata" Metadata.decoder Draft.metadata fun x d => { d with metadata := some x },
      (field "data" (option (list KeyHistory.decoder)) Draft.data
        fun x d => { d with data := some x }).orNone]
    ⟨none, none⟩ fun d => do
      return ⟨← need "metadata" d.metadata, d.data.getD none⟩

def toValue (d : Document) : Json.Value :=
  .object [("metadata", d.metadata.toValue),
    ("data", Json.Value.option (fun hs => .array (hs.map KeyHistory.toValue)) d.data)]

/-- Reads a document of any format version. -/
def decode (s : Text.Utf8.Source) : Except InputFault Document :=
  (Json.decode decoder s).mapError .malformed

def read (s : Text.Utf8.Source) : Except InputFault Document := do
  let d ← decode s
  if d.metadata.version = currentFormat then return d
  else .error (.formatVersion d.metadata.version)

def page (d : Document) : String := d.toValue.page

end Document

end SlashGuard
