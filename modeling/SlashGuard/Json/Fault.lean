import SlashGuard.Json.Number
import SlashGuard.Text.Quoted

/-! Why a JSON text does not decode, and the words for it. -/
namespace SlashGuard.Json

inductive Got
  | null
  | bool (b : Bool)
  | number (n : Number)
  | string (s : String)
  | array
  | object
deriving DecidableEq, Repr

def Got.message : Got → String
  | .null => "null"
  | .bool b => "boolean `" ++ toString b ++ "`"
  | .number (.whole n) => "integer `" ++ String.ofList (Number.write (.whole n)) ++ "`"
  | .number n => "floating point `" ++ String.ofList n.write ++ "`"
  | .string s => "string " ++ Text.Quoted.text s
  | .array => "sequence"
  | .object => "map"

/-- A text is ill-formed up to the place where it was needed, or it is well-formed that far and
has the wrong shape. -/
inductive Fault
  | illFormed
  | wrongType (got : Got) (wanted : String)
  | wrongValue (got : Got) (wanted : String)
  | wrongLength (length : Nat) (wanted : String)
  | unknownVariant (name : String) (known : List String)
  | duplicateField (name : String)
  | missingField (name : String)
  | noAlternative (type : String)
  | rejected (reason : String)
deriving DecidableEq, Repr

def oneOf : List String → String
  | [] => ""
  | [a] => "`" ++ a ++ "`"
  | [a, b] => "`" ++ a ++ "` or `" ++ b ++ "`"
  | names => "one of " ++ String.intercalate ", " (names.map fun a => "`" ++ a ++ "`")

def Fault.message : Fault → String
  -- Where and how a text is ill-formed is not told.
  | .illFormed => "<syntax>"
  | .wrongType got wanted => "invalid type: " ++ got.message ++ ", expected " ++ wanted
  | .wrongValue got wanted => "invalid value: " ++ got.message ++ ", expected " ++ wanted
  | .wrongLength length wanted => "invalid length " ++ toString length ++ ", expected " ++ wanted
  | .unknownVariant name known => "unknown variant `" ++ name ++ "`, expected " ++ oneOf known
  | .duplicateField name => "duplicate field `" ++ name ++ "`"
  | .missingField name => "missing field `" ++ name ++ "`"
  | .noAlternative type => "data did not match any variant of untagged enum " ++ type
  | .rejected reason => reason

end SlashGuard.Json
