import SlashGuard.Json.Fault
import SlashGuard.Json.Reading

/-!
Decoders walk a reading in the order of the text, so of several problems the first one in the
text is reported. A value may also be held in memory first; then it is known to be sound, and the
rules for what may follow its last part differ.
-/
namespace SlashGuard.Json

/-- How a value is met: straight from the text, where containers may nest `room` levels deeper,
or held in memory. -/
inductive Place
  | streamed (room : Nat)
  | held
deriving DecidableEq, Repr

def Place.enter : Place → Except Fault Place
  | .streamed 0 => .error .illFormed
  | .streamed (room + 1) => .ok (.streamed room)
  | .held => .ok .held

abbrev Decoder (α : Type) := Place → Reading → Except Fault α

namespace Decoder

def wrong (wanted : String) : Reading → Fault
  | .null => .wrongType .null wanted
  | .bool b => .wrongType (.bool b) wanted
  | .number (some n) => .wrongType (.number n) wanted
  | .string (some s) => .wrongType (.string s) wanted
  | .array _ _ => .wrongType .array wanted
  | .object _ _ => .wrongType .object wanted
  | .malformed | .number none | .string none => .illFormed

def skip : Place → Reading → Except Fault Unit
  | .held, _ => .ok ()
  | .streamed _, r => if r.isIntact then .ok () else .error .illFormed

def hold : Place → Reading → Except Fault Unit
  | .held, _ => .ok ()
  | .streamed room, r => if r.isSound room then .ok () else .error .illFormed

def finish (closed : Bool) : Except Fault Unit :=
  if closed then .ok () else .error .illFormed

def stringAs (wanted : String) : Decoder String
  | _, .string (some s) => .ok s
  | _, r => .error (wrong wanted r)

def string : Decoder String := stringAs "a string"

def boolean : Decoder Bool
  | _, .bool b => .ok b
  | _, r => .error (wrong "a boolean" r)

def natural (wanted : String) : Decoder Nat
  | _, .number (some (.whole n)) =>
    if 0 ≤ n then .ok n.toNat else .error (.wrongValue (.number (.whole n)) wanted)
  | _, r => .error (wrong wanted r)

def word : Decoder UInt64 := fun p r => (natural "u64" p r).map UInt64.ofNat

def signed : Decoder Int
  | _, .number (some (.whole n)) =>
    if n < Number.signedLimit then .ok n else .error (.wrongValue (.number (.whole n)) "i64")
  | _, r => .error (wrong "i64" r)

def andThen {α β : Type} (d : Decoder α) (f : α → Except String β) : Decoder β := fun p r => do
  let a ← d p r
  match f a with
  | .ok b => .ok b
  | .error reason => .error (.rejected reason)

def map {α β : Type} (f : α → β) (d : Decoder α) : Decoder β := fun p r => (d p r).map f

def option {α : Type} (d : Decoder α) : Decoder (Option α)
  | _, .null => .ok none
  | p, r => (d p r).map some

def list {α : Type} (d : Decoder α) : Decoder (List α)
  | p, .array items closed => do
    let inside ← p.enter
    let as ← items.mapM (d inside)
    finish closed
    return as
  | _, r => .error (wrong "a sequence" r)

def numberOrText {α : Type} (limit : Nat) (ofNat : Nat → α) (f : String → Except String α) :
    Decoder α := fun p r => do
  hold p r
  match r with
  | .string (some s) =>
    match f s with
    | .ok a => .ok a
    | .error reason => .error (.rejected reason)
  | .number (some (.whole n)) =>
    if 0 ≤ n ∧ n < limit then .ok (ofNat n.toNat) else .error (.noAlternative "StringOrNumber")
  | _ => .error (.noAlternative "StringOrNumber")

def named {α : Type} (options : List (String × α)) (name : String) : Except Fault α :=
  match options.lookup name with
  | some a => .ok a
  | none => .error (.unknownVariant name (options.map (·.1)))

/-- A name; from memory, also the place of a thing among the options. -/
def identifier {α : Type} (options : List (String × α)) : Decoder α
  | _, .string (some name) => named options name
  | .held, .number (some (.whole n)) =>
    if 0 ≤ n then
      match options[n.toNat]? with
      | some (_, a) => .ok a
      | none => .error (.wrongValue (.number (.whole n))
          ("variant index 0 <= i < " ++ toString options.length))
    else .error (.wrongType (.number (.whole n)) "variant identifier")
  | _, r => .error (wrong "variant identifier" r)

def byKey {α : Type} (options : List (String × α)) : Reading → Except Fault α
  | .string (some name) => named options name
  | _ => .error .illFormed

/-- A name, or an object whose only key is the name and whose value is empty. -/
def choice {α : Type} (options : List (String × α)) : Decoder α
  | _, .string (some name) => named options name
  | .streamed room, .object members closed => do
    let _ ← (Place.streamed room).enter
    match members with
    | [] => .error .illFormed
    | (key, value) :: rest =>
      let a ← byKey options key
      match value with
      | .null => if rest.isEmpty && closed then .ok a else .error .illFormed
      | r => .error (wrong "unit" r)
  | .streamed _, _ => .error .illFormed
  | .held, .object members _ =>
    match members with
    | [(key, value)] => do
      let a ← byKey options key
      match value with
      | .null | .object [] _ => .ok a
      | r => .error (wrong "unit" r)
    | _ => .error (.wrongValue .object "map with a single key")
  | .held, r => .error (wrong "string or map" r)

/-- A field of a record that is read into a draft `σ`. One that is `spare` may be left out of an
array from its place on. -/
structure Field (σ : Type) where
  name : String
  spare : Bool
  present : σ → Bool
  decode : Place → Reading → σ → Except Fault σ

def field {σ β : Type} (name : String) (d : Decoder β) (get : σ → Option β) (set : β → σ → σ) :
    Field σ :=
  ⟨name, false, fun s => (get s).isSome, fun p r s => (d p r).map (set · s)⟩

def Field.orNone {σ : Type} (f : Field σ) : Field σ := { f with spare := true }

def need {β : Type} (name : String) : Option β → Except Fault β
  | some b => .ok b
  | none => .error (.missingField name)

def elements (n : Nat) : String := toString n ++ if n = 1 then " element" else " elements"

def members {σ : Type} (fields : List (Field σ)) (p : Place) :
    List (Reading × Reading) → σ → Except Fault σ
  | [], s => .ok s
  | (.string (some key), r) :: rest, s =>
    match fields.find? (·.name == key) with
    | none => do
      skip p r
      members fields p rest s
    | some f =>
      if f.present s then .error (.duplicateField key)
      else do members fields p rest (← f.decode p r s)
  | _, _ => .error .illFormed

def items {σ : Type} (wanted : Nat → Fault) (p : Place) (closed : Bool) :
    Nat → List (Field σ) → List Reading → σ → Except Fault (σ × List Reading)
  | _, [], rest, s => .ok (s, rest)
  | n, f :: fs, [], s =>
    if ¬ closed then .error .illFormed
    else if f.spare then items wanted p closed n fs [] s
    else .error (wanted n)
  | n, f :: fs, r :: rs, s => do items wanted p closed (n + 1) fs rs (← f.decode p r s)

def noMore (p : Place) (count total : Nat) (rest : List Reading) (closed : Bool) :
    Except Fault Unit :=
  match p, rest with
  | _, [] => finish closed
  | .streamed _, _ => .error .illFormed
  | .held, _ => .error (.wrongLength total (elements count ++ " in sequence"))

def record {σ α : Type} (title : String) (fields : List (Field σ)) (blank : σ)
    (build : σ → Except Fault α) : Decoder α
  | p, .object ms closed => do
    let inside ← p.enter
    let s ← members fields inside ms blank
    finish closed
    build s
  | p, .array rs closed => do
    let inside ← p.enter
    let short (n : Nat) : Fault := .wrongLength n (title ++ " with " ++ elements fields.length)
    let (s, rest) ← items short inside closed 0 fields rs blank
    let a ← build s
    noMore p fields.length rs.length rest closed
    return a
  | _, r => .error (wrong title r)

def seek (p : Place) (a b : String) :
    List (Reading × Reading) → Except Fault (Option (String × Reading × List (Reading × Reading)))
  | [] => .ok none
  | (.string (some key), r) :: rest =>
    if key = a ∨ key = b then .ok (some (key, r, rest))
    else do
      skip p r
      seek p a b rest
  | _ => .error .illFormed

def noneLeft (p : Place) (a b : String) (closed : Bool) (rest : List (Reading × Reading)) :
    Except Fault Unit := do
  match ← seek p a b rest with
  | some (key, _, _) => .error (.duplicateField key)
  | none => finish closed

/-- A tag and a content side by side, in either order, or an array of the two. A content that
comes first is held until the tag is known. -/
def beside {τ α : Type} (title tag content : String) (options : List (String × τ))
    (body : τ → Decoder α) : Decoder α
  | p, .object ms closed => do
    let inside ← p.enter
    match ← seek inside tag content ms with
    | none => do
      finish closed
      .error (.missingField tag)
    | some (key, r, rest) =>
      if key = tag then do
        let t ← choice options inside r
        match ← seek inside tag content rest with
        | none => do
          finish closed
          .error (.missingField content)
        | some (key, r, rest) =>
          if key = tag then .error (.duplicateField tag)
          else do
            let a ← body t inside r
            noneLeft inside tag content closed rest
            return a
      else do
        hold inside r
        match ← seek inside tag content rest with
        | none => do
          finish closed
          .error (.missingField tag)
        | some (key, t, rest) =>
          if key = tag then do
            let t ← choice options inside t
            let a ← body t .held r
            noneLeft inside tag content closed rest
            return a
          else .error (.duplicateField content)
  | p, .array rs closed => do
    let inside ← p.enter
    match rs with
    | [] => if closed then .error (.wrongLength 0 title) else .error .illFormed
    | t :: rs =>
      let t ← identifier options inside t
      match rs with
      | [] => if closed then .error (.wrongLength 1 title) else .error .illFormed
      | r :: rest =>
        let a ← body t inside r
        noMore p 2 (rest.length + 2) rest closed
        return a
  | _, r => .error (wrong title r)

def parted {τ : Type} (p : Place) (tag : String) (options : List (String × τ)) :
    List (Reading × Reading) → Option τ → Except Fault (Option τ × List (Reading × Reading))
  | [], t => .ok (t, [])
  | (.string (some key), r) :: rest, t =>
    if key = tag then
      if t.isSome then .error (.duplicateField tag)
      else do parted p tag options rest (some (← identifier options p r))
    else do
      hold p r
      let (t, others) ← parted p tag options rest t
      return (t, (.string (some key), r) :: others)
  | _, _ => .error .illFormed

/-- A tag among the other fields of an object, or at the head of an array of them. The rest is
read whole before the tag decides what it means. -/
def inside {τ α : Type} (title tag : String) (options : List (String × τ))
    (body : τ → Decoder α) : Decoder α
  | p, .object ms closed => do
    let place ← p.enter
    let (t, others) ← parted place tag options ms none
    finish closed
    body (← need tag t) .held (.object others true)
  | p, .array rs closed => do
    let place ← p.enter
    match rs with
    | [] => if closed then .error (.missingField tag) else .error .illFormed
    | t :: rest =>
      let t ← identifier options place t
      rest.forM (hold place)
      finish closed
      body t .held (.array rest true)
  | _, r => .error (wrong title r)

def nothing {α : Type} (a : α) : Decoder α
  | p, .array rs closed => do
    noMore p 0 rs.length rs closed
    return a
  | _, _ => .ok a

end Decoder

def depth : Nat := 127

def decode {α : Type} (d : Decoder α) (s : Text.Utf8.Source) : Except Fault α := do
  let (r, alone) := Reading.ofSource s
  let a ← d (.streamed depth) r
  if alone then .ok a else .error .illFormed

end SlashGuard.Json
