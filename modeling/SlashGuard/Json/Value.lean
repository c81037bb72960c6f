/-! JSON values as they are written, in one line or on indented lines. -/
namespace SlashGuard.Json

inductive Value
  | null
  | bool (b : Bool)
  | whole (n : Int)
  | string (s : String)
  | array (items : List Value)
  | object (members : List (String × Value))
deriving Repr

namespace Value

def option {α : Type} (f : α → Value) : Option α → Value
  | none => .null
  | some a => f a

def fourDigits (n : Nat) : List Char :=
  [n / 4096 % 16, n / 256 % 16, n / 16 % 16, n % 16].map Nat.digitChar

def escape (c : Char) : List Char :=
  if c = '"' then ['\\', '"']
  else if c = '\\' then ['\\', '\\']
  else if c = '\n' then ['\\', 'n']
  else if c = '\r' then ['\\', 'r']
  else if c = '\t' then ['\\', 't']
  else if c.toNat = 8 then ['\\', 'b']
  else if c.toNat = 12 then ['\\', 'f']
  else if c.toNat < 32 then '\\' :: 'u' :: fourDigits c.toNat
  else [c]

def quote (s : String) : List Char := '"' :: s.toList.flatMap escape ++ ['"']

def digits (n : Int) : List Char := (if n < 0 then ['-'] else []) ++ Nat.toDigits 10 n.natAbs

def literal : Bool → List Char
  | true => ['t', 'r', 'u', 'e']
  | false => ['f', 'a', 'l', 's', 'e']

mutual

def compact : Value → List Char
  | .null => ['n', 'u', 'l', 'l']
  | .bool b => literal b
  | .whole n => digits n
  | .string s => quote s
  | .array [] => ['[', ']']
  | .array (v :: vs) => '[' :: compact v ++ compactItems vs ++ [']']
  | .object [] => ['\x7b', '\x7d']
  | .object ((k, v) :: ms) =>
    '\x7b' :: quote k ++ ':' :: compact v ++ compactMembers ms ++ ['\x7d']

def compactItems : List Value → List Char
  | [] => []
  | v :: vs => ',' :: compact v ++ compactItems vs

def compactMembers : List (String × Value) → List Char
  | [] => []
  | (k, v) :: ms => ',' :: quote k ++ ':' :: compact v ++ compactMembers ms

end

def newline (level : Nat) : List Char := '\n' :: List.replicate (2 * level) ' '

mutual

def indented (level : Nat) : Value → List Char
  | .null => ['n', 'u', 'l', 'l']
  | .bool b => literal b
  | .whole n => digits n
  | .string s => quote s
  | .array [] => ['[', ']']
  | .array (v :: vs) =>
    '[' :: newline (level + 1) ++ indented (level + 1) v ++ indentedItems (level + 1) vs ++
      newline level ++ [']']
  | .object [] => ['\x7b', '\x7d']
  | .object ((k, v) :: ms) =>
    '\x7b' :: newline (level + 1) ++ quote k ++ ':' :: ' ' :: indented (level + 1) v ++
      indentedMembers (level + 1) ms ++ newline level ++ ['\x7d']

def indentedItems (level : Nat) : List Value → List Char
  | [] => []
  | v :: vs => ',' :: newline level ++ indented level v ++ indentedItems level vs

def indentedMembers (level : Nat) : List (String × Value) → List Char
  | [] => []
  | (k, v) :: ms =>
    ',' :: newline level ++ quote k ++ ':' :: ' ' :: indented level v ++ indentedMembers level ms

end

def line (v : Value) : String := String.ofList (compact v)

def page (v : Value) : String := String.ofList (indented 0 v)

end Value

end SlashGuard.Json
