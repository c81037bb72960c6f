import SlashGuard.InputFault
import SlashGuard.Text.Blank
import SlashGuard.Json.Decoder
import SlashGuard.Json.Value

/-!
Slots and epochs, the two clocks of the chain. They are written as decimal strings; a bare number
is read too.
-/
namespace SlashGuard

structure Slot where
  number : UInt64
deriving DecidableEq, Repr

structure Epoch where
  number : UInt64
deriving DecidableEq, Repr

def readNumber (s : String) : Except InputFault UInt64 :=
  match Text.Decimal.read UInt64.size (Text.Blank.trim s.toList) with
  | .ok n => .ok (UInt64.ofNat n)
  | .error fault => .error (.number s fault)

def writeNumber (n : UInt64) : String := String.ofList (Text.Decimal.write n.toNat)

def numberDecoder : Json.Decoder UInt64 :=
  Json.Decoder.numberOrText UInt64.size UInt64.ofNat fun s =>
    (readNumber s).mapError InputFault.message

def Slot.decoder : Json.Decoder Slot := numberDecoder.map Slot.mk

def Epoch.decoder : Json.Decoder Epoch := numberDecoder.map Epoch.mk

def Slot.toValue (s : Slot) : Json.Value := .string (writeNumber s.number)

def Epoch.toValue (e : Epoch) : Json.Value := .string (writeNumber e.number)

end SlashGuard
