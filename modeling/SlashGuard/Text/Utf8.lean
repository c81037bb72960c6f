/-!
Text as it arrives: a list of characters in which `none` stands for a byte that belongs to no
character. Bytes below 128 are always characters of their own, so a broken sequence never hides
the byte that follows it.
-/
namespace SlashGuard.Text.Utf8

/-- Characters, and `none` for each byte that is part of no character. -/
abbrev Source := List (Option Char)

def ofText (s : String) : Source := s.toList.map some

def encode (cs : List Char) : List UInt8 := cs.flatMap String.utf8EncodeChar

def isTail (b : UInt8) : Bool := 0x80 ≤ b && b ≤ 0xbf

def point (n : Nat) : Option Char :=
  if h : n.isValidChar then some (Char.ofNatAux n h) else none

def head? : List UInt8 → Option (Char × Nat)
  | [] => none
  | a :: rest =>
    let tail (b : UInt8) : Nat := b.toNat - 0x80
    if a < 0x80 then (point a.toNat).map (·, 1)
    else match rest with
    | b :: rest =>
      if 0xc2 ≤ a && a ≤ 0xdf && isTail b then
        (point ((a.toNat - 0xc0) * 64 + tail b)).map (·, 2)
      else match rest with
      | c :: rest =>
        let low : UInt8 := if a = 0xe0 then 0xa0 else 0x80
        let high : UInt8 := if a = 0xed then 0x9f else 0xbf
        if 0xe0 ≤ a && a ≤ 0xef && low ≤ b && b ≤ high && isTail c then
          (point (((a.toNat - 0xe0) * 64 + tail b) * 64 + tail c)).map (·, 3)
        else match rest with
        | d :: _ =>
          let low : UInt8 := if a = 0xf0 then 0x90 else 0x80
          let high : UInt8 := if a = 0xf4 then 0x8f else 0xbf
          if 0xf0 ≤ a && a ≤ 0xf4 && low ≤ b && b ≤ high && isTail c && isTail d then
            (point ((((a.toNat - 0xf0) * 64 + tail b) * 64 + tail c) * 64 + tail d)).map (·, 4)
          else none
        | [] => none
      | [] => none
    | [] => none

def decodeFrom (skip : Nat) : List UInt8 → Source
  | [] => []
  | b :: bs =>
    match skip with
    | n + 1 => decodeFrom n bs
    | 0 =>
      match head? (b :: bs) with
      | some (c, n) => some c :: decodeFrom (n - 1) bs
      | none => none :: decodeFrom 0 bs

def decode (bs : List UInt8) : Source := decodeFrom 0 bs

def text? (bs : List UInt8) : Option (List Char) := (decode bs).mapM id

/-- How many bytes at the head are taken together as part of no character: as much of a sequence
as there is, and at least one. -/
def brokenLength : List UInt8 → Nat
  | a :: b :: rest =>
    let low : UInt8 := if a = 0xe0 then 0xa0 else if a = 0xf0 then 0x90 else 0x80
    let high : UInt8 := if a = 0xed then 0x9f else if a = 0xf4 then 0x8f else 0xbf
    if 0xe0 ≤ a && a ≤ 0xf4 && low ≤ b && b ≤ high then
      if 0xf0 ≤ a && (rest.head?.elim false isTail) then 3 else 2
    else 1
  | _ => 1

def repairFrom (spare : List UInt8 → List Char × Nat) (skip : Nat) : List UInt8 → List Char
  | [] => []
  | b :: bs =>
    match skip with
    | n + 1 => repairFrom spare n bs
    | 0 =>
      match head? (b :: bs) with
      | some (c, n) => c :: repairFrom spare (n - 1) bs
      | none => (spare (b :: bs)).1 ++ repairFrom spare ((spare (b :: bs)).2 - 1) bs

/-- The text of some bytes. What `spare` answers stands in for bytes that are part of no character,
with the number of bytes that it stands for. -/
def repair (spare : List UInt8 → List Char × Nat) (bs : List UInt8) : List Char :=
  repairFrom spare 0 bs

def lossy (bs : List UInt8) : List Char := repair (fun bs => (['\uFFFD'], brokenLength bs)) bs

end SlashGuard.Text.Utf8
