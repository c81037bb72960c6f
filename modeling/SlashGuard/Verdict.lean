import SlashGuard.Json.Decoder
import SlashGuard.Json.Value

/-! The answer to a request to sign. A refusal is an answer, not an error. -/
namespace SlashGuard

inductive Safe
  | valid
  | sameData
deriving DecidableEq, Repr

inductive Refusal
  | tooOld
  | doubleProposal
  | doubleVote
  | surrounded
  | surrounds
  | invalidRange
deriving DecidableEq, Repr

inductive Verdict
  | allowed (safe : Safe)
  | refused (refusal : Refusal)
deriving DecidableEq, Repr

namespace Safe

def names : List (String × Safe) := [("VALID", .valid), ("SAME_DATA", .sameData)]

def name : Safe → String
  | .valid => "VALID"
  | .sameData => "SAME_DATA"

def word : Safe → String
  | .valid => "Valid"
  | .sameData => "SameData"

def decoder : Json.Decoder Safe := Json.Decoder.choice names

def toValue (s : Safe) : Json.Value := .string s.name

end Safe

namespace Refusal

def names : List (String × Refusal) :=
  [("TOO_OLD", .tooOld), ("DOUBLE_PROPOSAL", .doubleProposal), ("DOUBLE_VOTE", .doubleVote),
    ("SURROUNDED", .surrounded), ("SURROUNDS", .surrounds), ("INVALID_RANGE", .invalidRange)]

def name : Refusal → String
  | .tooOld => "TOO_OLD"
  | .doubleProposal => "DOUBLE_PROPOSAL"
  | .doubleVote => "DOUBLE_VOTE"
  | .surrounded => "SURROUNDED"
  | .surrounds => "SURROUNDS"
  | .invalidRange => "INVALID_RANGE"

def decoder : Json.Decoder Refusal := Json.Decoder.choice names

def toValue (r : Refusal) : Json.Value := .string r.name

end Refusal

namespace Verdict

def isAllowed : Verdict → Bool
  | .allowed _ => true
  | .refused _ => false

def isReplay (v : Verdict) : Bool := v = .allowed .sameData

def refusal? : Verdict → Option Refusal
  | .allowed _ => none
  | .refused r => some r

inductive Status
  | allowed
  | refused
deriving DecidableEq, Repr

def statuses : List (String × Status) := [("allowed", .allowed), ("refused", .refused)]

def decoder : Json.Decoder Verdict :=
  Json.Decoder.beside "adjacently tagged enum SigningDecision" "status" "detail" statuses fun
    | .allowed => Safe.decoder.map .allowed
    | .refused => Refusal.decoder.map .refused

def toValue : Verdict → Json.Value
  | .allowed s => .object [("status", .string "allowed"), ("detail", s.toValue)]
  | .refused r => .object [("status", .string "refused"), ("detail", r.toValue)]

end Verdict

end SlashGuard
