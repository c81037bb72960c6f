import SlashGuard.Json.Fault
import SlashGuard.Text.Hex
import SlashGuard.Text.Decimal

/-! Why input is not accepted, and the words for it. -/
namespace SlashGuard

inductive InputFault
  | hex (fault : Text.Hex.Fault)
  | rootLength (label : String) (actual : Nat)
  | emptyKey
  | number (text : String) (fault : Text.Decimal.Fault)
  | formatVersion (found : Nat)
  | malformed (fault : Json.Fault)
deriving DecidableEq, Repr

def currentFormat : Nat := 5

def rootSize : Nat := 32

def hexMessage : Text.Hex.Fault → String
  | .oddLength => "Odd number of digits"
  | .badDigit byte index =>
    "Invalid character " ++ Text.Quoted.char (Char.ofNat byte.toNat) ++ " at position " ++
      toString index

def InputFault.message : InputFault → String
  | .hex fault => "Invalid hex: " ++ hexMessage fault
  | .rootLength label actual =>
    "Invalid " ++ label ++ " length: expected " ++ toString rootSize ++ " bytes, got " ++
      toString actual
  | .emptyKey => "Public key must not be empty"
  | .number text fault =>
    "Invalid unsigned integer: " ++ Text.Quoted.text text ++ ": " ++ fault.message
  | .formatVersion found =>
    "Expecting an interchange_format_version of " ++ toString currentFormat ++ ", found " ++
      toString found
  | .malformed fault => "Malformed interchange document: " ++ fault.message

end SlashGuard
