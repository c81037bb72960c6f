import SlashGuard.InputFault
import SlashGuard.Json.Decoder
import SlashGuard.Json.Value

/-! Public keys: a key is any bytes that are not empty. -/
namespace SlashGuard

structure PublicKey where
  bytes : List UInt8
  nonempty : bytes ≠ []
deriving DecidableEq, Repr

namespace PublicKey

def ofBytes (bytes : List UInt8) : Except InputFault PublicKey :=
  if h : bytes = [] then .error .emptyKey else .ok ⟨bytes, h⟩

def ofHex (s : String) : Except InputFault PublicKey :=
  match Text.Hex.read s.toList with
  | .error fault => .error (.hex fault)
  | .ok bytes => ofBytes bytes

def toHex (k : PublicKey) : String := String.ofList (Text.Hex.write k.bytes)

def short (k : PublicKey) : String :=
  String.ofList (Text.Hex.write (k.bytes.take 4)) ++ "..."

def le (a b : PublicKey) : Bool := decide (a.bytes ≤ b.bytes)

def decoder : Json.Decoder PublicKey :=
  Json.Decoder.string.andThen fun s => (ofHex s).mapError InputFault.message

def toValue (k : PublicKey) : Json.Value := .string k.toHex

end PublicKey

end SlashGuard
