import SlashGuard.InputFault
import SlashGuard.Json.Decoder
import SlashGuard.Json.Value

/-! Roots of 32 bytes: what a validator signs, and the network it belongs to. -/
namespace SlashGuard

structure Root where
  bytes : List UInt8
  size : bytes.length = rootSize
deriving DecidableEq, Repr

namespace Root

inductive Role
  | signing
  | network
  | field
deriving DecidableEq, Repr

def Role.label : Role → String
  | .signing => "signing root"
  | .network => "genesis validators root"
  | .field => "hex field"

def ofBytes (role : Role) (bytes : List UInt8) : Except InputFault Root :=
  if h : bytes.length = rootSize then .ok ⟨bytes, h⟩
  else .error (.rootLength role.label bytes.length)

def ofHex (role : Role) (s : String) : Except InputFault Root :=
  match Text.Hex.read s.toList with
  | .error fault => .error (.hex fault)
  | .ok bytes => ofBytes role bytes

def toHex (r : Root) : String := String.ofList (Text.Hex.write r.bytes)

def decoder : Json.Decoder Root :=
  Json.Decoder.string.andThen fun s => (ofHex .field s).mapError InputFault.message

def toValue (r : Root) : Json.Value := .string r.toHex

end Root

end SlashGuard
