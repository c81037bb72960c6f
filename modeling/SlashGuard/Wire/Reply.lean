import SlashGuard.Interchange.Import
import SlashGuard.Pruning
import SlashGuard.Verdict

/-! What the service answers. -/
namespace SlashGuard

inductive Reply
  | pong (version : String)
  | error (message : String)
  | registered (ids : List Int)
  | validator (id : Option Int)
  | decision (v : Verdict)
  | pruned (s : PruneSummary)
  | imported (s : ImportSummary)
  | exported (text : String)
deriving DecidableEq, Repr

namespace Reply

open Json.Decoder

def body {β : Type} (name key : String) (d : Json.Decoder β) (f : β → Reply) :
    Json.Decoder Reply :=
  record ("struct variant IpcResponse::" ++ name) [field key d id fun x _ => some x] none
    fun x => do return f (← need key x)

/-- The id of a validator, which may be left out of an object. -/
def validatorBody : Json.Decoder Reply :=
  record "struct variant IpcResponse::Validator"
    [field "validator_id" (option signed) id fun x _ => some x] none
    fun x => do return .validator (x.getD none)

def bodies : List (String × Json.Decoder Reply) :=
  [("Pong", body "Pong" "version" string .pong),
    ("Error", body "Error" "message" string .error),
    ("Registered", body "Registered" "validator_ids" (list signed) .registered),
    ("Validator", validatorBody),
    ("Decision", body "Decision" "decision" Verdict.decoder .decision),
    ("Pruned", body "Pruned" "summary" PruneSummary.decoder .pruned),
    ("Imported", body "Imported" "summary" ImportSummary.decoder .imported),
    ("Exported", body "Exported" "interchange_json" string .exported)]

def decoder : Json.Decoder Reply :=
  inside "internally tagged enum IpcResponse" "type" bodies id

def toValue : Reply → Json.Value
  | .pong version => .object [("type", .string "Pong"), ("version", .string version)]
  | .error message => .object [("type", .string "Error"), ("message", .string message)]
  | .registered ids =>
    .object [("type", .string "Registered"), ("validator_ids", .array (ids.map .whole))]
  | .validator id => .object [("type", .string "Validator"), ("validator_id", .option .whole id)]
  | .decision v => .object [("type", .string "Decision"), ("decision", v.toValue)]
  | .pruned s => .object [("type", .string "Pruned"), ("summary", s.toValue)]
  | .imported s => .object [("type", .string "Imported"), ("summary", s.toValue)]
  | .exported text => .object [("type", .string "Exported"), ("interchange_json", .string text)]

end Reply

end SlashGuard
