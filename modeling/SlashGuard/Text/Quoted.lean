import SlashGuard.Text.Hidden

/-!
Quotations of texts and characters in messages. What cannot be seen is written as an escape, and
so is the quote that encloses.
-/
namespace SlashGuard.Text.Quoted

def escape (mark : Char) (c : Char) : List Char :=
  if c = Char.ofNat 0 then ['\\', '0']
  else if c = '\t' then ['\\', 't']
  else if c = '\r' then ['\\', 'r']
  else if c = '\n' then ['\\', 'n']
  else if c = '\\' ∨ c = mark then ['\\', c]
  else if Hidden.isHidden c then "\\u\x7b".toList ++ Nat.toDigits 16 c.toNat ++ ['\x7d']
  else [c]

def text (s : String) : String :=
  "\"" ++ String.ofList (s.toList.flatMap (escape '"')) ++ "\""

def char (c : Char) : String := "'" ++ String.ofList (escape '\'' c) ++ "'"

end SlashGuard.Text.Quoted
