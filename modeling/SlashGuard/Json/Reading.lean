import SlashGuard.Json.Lexeme

/-!
What a JSON text holds, as far as it holds anything: a tree in which the place where the text
goes wrong stays visible, so that who walks it in the order of the text meets that place in turn.
-/
namespace SlashGuard.Json

/-- A value as it was read. `malformed` is the place where the text goes wrong, and an array or
object that is not `closed` goes wrong after its last part. A key is a string, or whatever stood
where a key should. -/
inductive Reading
  | malformed
  | null
  | bool (b : Bool)
  | number (n : Option Number)
  | string (s : Option String)
  | array (items : List Reading) (closed : Bool)
  | object (members : List (Reading × Reading)) (closed : Bool)
deriving Repr

namespace Reading

inductive Frame
  | array (items : List Reading)
  | object (members : List (Reading × Reading)) (key : Option Reading)
deriving Repr

/-- What may come next: a value, or at the start of an array its end; a key, or at the start of
an object its end; a colon; a comma or the end. -/
inductive Due
  | value (orEnd : Bool)
  | key (orEnd : Bool)
  | colon
  | comma
deriving DecidableEq, Repr

inductive State
  | within (frames : List Frame) (due : Due)
  | done (r : Reading) (alone : Bool)
deriving Repr

def Frame.close (closed : Bool) : Frame → Reading
  | .array items => .array items.reverse closed
  | .object members none => .object members.reverse closed
  | .object members (some key) => .object ((key, .malformed) :: members).reverse false

def put (r : Reading) : List Frame → State
  | [] => .done r true
  | .array items :: frames => .within (.array (r :: items) :: frames) .comma
  | .object members (some key) :: frames =>
    .within (.object ((key, r) :: members) none :: frames) .comma
  | .object members none :: frames => .within (.object members (some r) :: frames) .colon

def around (r : Reading) : List Frame → Reading
  | [] => r
  | .array items :: frames => around (.array (r :: items).reverse false) frames
  | .object members (some key) :: frames =>
    around (.object ((key, r) :: members).reverse false) frames
  | .object members none :: frames =>
    around (.object ((r, .malformed) :: members).reverse false) frames

def broken : List Frame → Reading
  | [] => .malformed
  | frame :: frames => around (frame.close false) frames

def ofLexeme : Lexeme → Reading
  | .null => .null
  | .bool b => .bool b
  | .number n => .number n
  | .string s => .string s
  | .beginArray => .array [] false
  | .beginObject => .object [] false
  | _ => .malformed

def stepValue (frames : List Frame) (orEnd : Bool) : Lexeme → State
  | .beginArray => .within (.array [] :: frames) (.value true)
  | .beginObject => .within (.object [] none :: frames) (.key true)
  | .null => put .null frames
  | .bool b => put (.bool b) frames
  | .number n => put (.number n) frames
  | .string s => put (.string s) frames
  | .endArray =>
    match orEnd, frames with
    | true, frame :: frames => put (frame.close true) frames
    | _, _ => .done (broken frames) false
  | _ => .done (broken frames) false

def stepKey (frames : List Frame) (orEnd : Bool) : Lexeme → State
  | .string s => put (.string s) frames
  | .endObject =>
    match orEnd, frames with
    | true, frame :: frames => put (frame.close true) frames
    | _, _ => .done (broken frames) false
  | l => .done (match ofLexeme l with
    | .malformed => broken frames
    | r => around r frames) false

def stepComma (frames : List Frame) (l : Lexeme) : State :=
  match frames, l with
  | .array items :: frames, .comma => .within (.array items :: frames) (.value false)
  | .array items :: frames, .endArray => put (.array items.reverse true) frames
  | .object members key :: frames, .comma => .within (.object members key :: frames) (.key false)
  | .object members _ :: frames, .endObject => put (.object members.reverse true) frames
  | frames, _ => .done (broken frames) false

def step : State → Lexeme → State
  | .done r _, _ => .done r false
  | .within frames (.value orEnd), l => stepValue frames orEnd l
  | .within frames (.key orEnd), l => stepKey frames orEnd l
  | .within frames .colon, .colon => .within frames (.value false)
  | .within frames .colon, _ => .done (broken frames) false
  | .within frames .comma, l => stepComma frames l

def start : State := .within [] (.value false)

def State.finish : State → Reading × Bool
  | .done r alone => (r, alone)
  | .within frames _ => (broken frames, false)

def ofLexemes (ls : List Lexeme) : Reading × Bool := (ls.foldl step start).finish

def ofSource (s : Text.Utf8.Source) : Reading × Bool := ofLexemes (lexemes s)

mutual

def isIntact : Reading → Bool
  | .malformed => false
  | .array items closed => areIntact items && closed
  | .object members closed => membersIntact members && closed
  | _ => true

def areIntact : List Reading → Bool
  | [] => true
  | r :: rs => isIntact r && areIntact rs

def membersIntact : List (Reading × Reading) → Bool
  | [] => true
  | (.string _, r) :: ms => isIntact r && membersIntact ms
  | _ => false

end

mutual

/-- The value can be kept: it is intact, all its numbers and strings have values, and it holds at
most `room` containers within each other. -/
def isSound (room : Nat) : Reading → Bool
  | .malformed | .number none | .string none => false
  | .array items closed =>
    match room with
    | 0 => false
    | room + 1 => areSound room items && closed
  | .object members closed =>
    match room with
    | 0 => false
    | room + 1 => membersSound room members && closed
  | _ => true

def areSound (room : Nat) : List Reading → Bool
  | [] => true
  | r :: rs => isSound room r && areSound room rs

def membersSound (room : Nat) : List (Reading × Reading) → Bool
  | [] => true
  | (.string (some _), r) :: ms => isSound room r && membersSound room ms
  | _ => false

end

end Reading

end SlashGuard.Json
