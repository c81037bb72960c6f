import SlashGuard.Json.Number
import SlashGuard.Text.Utf8

/-!
The lexemes of a JSON text. A number too large to be one and a string that holds no text are
lexemes too: they matter only to who takes their value. Where the text has no lexeme the list
ends with `malformed`.
-/
namespace SlashGuard.Json

open Text.Utf8 (Source)

inductive Lexeme
  | beginObject
  | endObject
  | beginArray
  | endArray
  | comma
  | colon
  | null
  | bool (b : Bool)
  | number (n : Option Number)
  | string (s : Option String)
  | malformed
deriving DecidableEq, Repr

namespace Lexeme

/-- What a string is made of before its halves are joined: a character, a unit of sixteen bits
written as an escape, or a byte that belongs to no character. -/
inductive Piece
  | char (c : Char)
  | unit (n : Nat)
  | stray
deriving DecidableEq, Repr

def hexUnit (a b c d : Char) : Option Nat := do
  let digit (c : Char) : Option Nat :=
    if '0' ≤ c ∧ c ≤ '9' then some (c.toNat - 48)
    else if 'a' ≤ c ∧ c ≤ 'f' then some (c.toNat - 87)
    else if 'A' ≤ c ∧ c ≤ 'F' then some (c.toNat - 55)
    else none
  return (((← digit a) * 16 + (← digit b)) * 16 + (← digit c)) * 16 + (← digit d)

def escaped : Char → Option Char
  | '"' => some '"'
  | '\\' => some '\\'
  | '/' => some '/'
  | 'b' => some (Char.ofNat 8)
  | 'f' => some (Char.ofNat 12)
  | 'n' => some '\n'
  | 'r' => some '\r'
  | 't' => some '\t'
  | _ => none

def pieces : Source → Option (List Piece × Source)
  | [] => none
  | some '"' :: rest => some ([], rest)
  | some '\\' :: some 'u' :: some a :: some b :: some c :: some d :: rest => do
    let n ← hexUnit a b c d
    let (ps, after) ← pieces rest
    return (.unit n :: ps, after)
  | some '\\' :: some e :: rest => do
    let c ← escaped e
    let (ps, after) ← pieces rest
    return (.char c :: ps, after)
  | some c :: rest =>
    if c.toNat < 32 ∨ c = '\\' then none
    else do
      let (ps, after) ← pieces rest
      return (.char c :: ps, after)
  | none :: rest => do
    let (ps, after) ← pieces rest
    return (.stray :: ps, after)

/-- The text of some pieces: two halves that belong together make one character, and a half
alone or a stray byte leaves no text. -/
def join : List Piece → Option (List Char)
  | [] => some []
  | .char c :: ps => (join ps).map (c :: ·)
  | .stray :: _ => none
  | .unit a :: .unit b :: ps =>
    if 0xd800 ≤ a ∧ a ≤ 0xdbff then
      if 0xdc00 ≤ b ∧ b ≤ 0xdfff then
        (join ps).map (Char.ofNat (0x10000 + (a - 0xd800) * 0x400 + (b - 0xdc00)) :: ·)
      else none
    else if 0xdc00 ≤ a ∧ a ≤ 0xdfff then none
    else (join (.unit b :: ps)).map (Char.ofNat a :: ·)
  | .unit a :: ps =>
    if 0xd800 ≤ a ∧ a ≤ 0xdfff then none else (join ps).map (Char.ofNat a :: ·)

def digits : Source → List Nat × Source
  | some c :: rest =>
    match Text.Decimal.digit? c with
    | some d => let (ds, after) := digits rest; (d :: ds, after)
    | none => ([], some c :: rest)
  | s => ([], s)

def fraction : Source → Option (Option (List Nat) × Source)
  | some '.' :: rest =>
    match digits rest with
    | ([], _) => none
    | (ds, after) => some (some ds, after)
  | s => some (none, s)

def exponentSign : Source → Bool × Source
  | some '+' :: rest => (false, rest)
  | some '-' :: rest => (true, rest)
  | s => (false, s)

def exponent : Source → Option (Option (Bool × List Nat) × Source)
  | some c :: rest =>
    if c = 'e' ∨ c = 'E' then
      let (down, rest) := exponentSign rest
      match digits rest with
      | ([], _) => none
      | (ds, after) => some (some (down, ds), after)
    else some (none, some c :: rest)
  | s => some (none, s)

def numeral (negative : Bool) (s : Source) : Option (Lexeme × Source) := do
  let (whole, s) := digits s
  match whole with
  | [] => none
  -- A zero in front of other digits is no number.
  | 0 :: _ :: _ => none
  | _ =>
    let (fraction, s) ← fraction s
    let (exponent, s) ← exponent s
    return (.number (Number.ofParts ⟨negative, whole, fraction, exponent⟩), s)

def isBlank (c : Option Char) : Bool :=
  c = some ' ' || c = some '\n' || c = some '\t' || c = some '\r'

def next : Source → Option (Lexeme × Source)
  | some '\x7b' :: rest => some (.beginObject, rest)
  | some '\x7d' :: rest => some (.endObject, rest)
  | some '[' :: rest => some (.beginArray, rest)
  | some ']' :: rest => some (.endArray, rest)
  | some ',' :: rest => some (.comma, rest)
  | some ':' :: rest => some (.colon, rest)
  | some 'n' :: some 'u' :: some 'l' :: some 'l' :: rest => some (.null, rest)
  | some 't' :: some 'r' :: some 'u' :: some 'e' :: rest => some (.bool true, rest)
  | some 'f' :: some 'a' :: some 'l' :: some 's' :: some 'e' :: rest => some (.bool false, rest)
  | some '"' :: rest => (pieces rest).map fun (ps, after) =>
    (.string ((join ps).map String.ofList), after)
  | some '-' :: rest => numeral true rest
  | s => numeral false s

/-- The lexemes of a text; each takes at least one character, so its length bounds them. -/
def scan : Nat → Source → List Lexeme
  | 0, _ => []
  | room + 1, s =>
    match s.dropWhile isBlank with
    | [] => []
    | c :: rest =>
      match next (c :: rest) with
      | some (l, after) => l :: scan room after
      | none => [.malformed]

end Lexeme

def lexemes (s : Source) : List Lexeme := Lexeme.scan s.length s

end SlashGuard.Json
