import SlashGuard.Json.Reading
import SlashGuard.Json.Value
import SlashGuard.Proofs.Digits

/-! The lexemes of a value that is written, be it in one line or on indented lines. Blanks fall
away, a string is read back escape by escape, and a number ends before what cannot continue it. -/
namespace SlashGuard.Json

open Text.Utf8 (Source)

namespace Lexeme

/-- The lexemes of a text, however much more room there is than its length. -/
def Scans (s : Source) (ls : List Lexeme) : Prop :=
  ∀ room, s.length ≤ room → scan room s = ls

theorem Scans.nil : Scans [] [] := by
  intro room _
  cases room <;> rfl

theorem Scans.lexeme {s after : Source} {l : Lexeme} {ls : List Lexeme}
    (solid : s.dropWhile isBlank = s) (first : next s = some (l, after))
    (shorter : after.length < s.length) (rest : Scans after ls) : Scans s (l :: ls) := by
  intro room enough
  cases room with
  | zero => omega
  | succ room =>
    cases s with
    | nil => cases shorter
    | cons c s =>
      have tail := rest room (by omega)
      simp only [scan, solid, first, tail]

theorem Scans.blank {c : Option Char} {s : Source} {ls : List Lexeme} (blank : isBlank c = true)
    (rest : Scans s ls) : Scans (c :: s) ls := by
  intro room enough
  cases room with
  | zero => cases enough
  | succ room =>
    have more : s.length ≤ room + 1 := by
      simp only [List.length_cons] at enough
      omega
    rw [← rest (room + 1) more]
    simp only [scan, List.dropWhile_cons_of_pos blank]

theorem Scans.blanks {bs s : Source} {ls : List Lexeme} (blank : ∀ b ∈ bs, isBlank b = true)
    (rest : Scans s ls) : Scans (bs ++ s) ls := by
  induction bs with
  | nil => exact rest
  | cons b bs ih =>
    have others := ih fun c member => blank c (List.mem_cons_of_mem b member)
    exact others.blank (blank b List.mem_cons_self)

theorem join_unit {n : Nat} (low : n < 0xd800) (ps : List Piece) :
    join (.unit n :: ps) = (join ps).map (Char.ofNat n :: ·) := by
  have notHigh : ¬ (0xd800 ≤ n ∧ n ≤ 0xdbff) := by omega
  have notLow : ¬ (0xdc00 ≤ n ∧ n ≤ 0xdfff) := by omega
  have notHalf : ¬ (0xd800 ≤ n ∧ n ≤ 0xdfff) := by omega
  cases ps with
  | nil => simp only [join, if_neg notHalf]
  | cons p ps =>
    cases p with
    | unit m => simp only [join, if_neg notHigh, if_neg notLow]
    | char c => simp only [join, if_neg notHalf]
    | stray => simp only [join, if_neg notHalf]

structure PieceFor (c : Char) (p : Piece) : Prop where
  pieces : ∀ s ps after, pieces s = some (ps, after) →
    Lexeme.pieces ((Value.escape c).map some ++ s) = some (p :: ps, after)
  join : ∀ ps, join (p :: ps) = (Lexeme.join ps).map (c :: ·)

theorem pieceFor_escaped {c e : Char} (written : Value.escape c = ['\\', e]) (other : e ≠ 'u')
    (stands : escaped e = some c) : PieceFor c (.char c) where
  pieces := by
    intro s ps after rest
    rw [written]
    simp [Lexeme.pieces, other, stands, rest]
  join := fun ps => by simp [Lexeme.join]

theorem hexUnit_fourDigits {n : Nat} (low : n < 32) :
    hexUnit (Nat.digitChar (n / 4096 % 16)) (Nat.digitChar (n / 256 % 16))
      (Nat.digitChar (n / 16 % 16)) (Nat.digitChar (n % 16)) = some n := by
  have each : ∀ m < 32, hexUnit (Nat.digitChar (m / 4096 % 16)) (Nat.digitChar (m / 256 % 16))
      (Nat.digitChar (m / 16 % 16)) (Nat.digitChar (m % 16)) = some m := by decide
  exact each n low

theorem pieceFor_unit {c : Char} (low : c.toNat < 32)
    (written : Value.escape c = '\\' :: 'u' :: Value.fourDigits c.toNat) :
    PieceFor c (.unit c.toNat) where
  pieces := by
    intro s ps after rest
    rw [written]
    simp [Lexeme.pieces, Value.fourDigits, hexUnit_fourDigits low, rest]
  join := by
    intro ps
    rw [join_unit (by omega), Char.ofNat_toNat]

theorem pieceFor_self {c : Char} (written : Value.escape c = [c]) (high : ¬ c.toNat < 32)
    (quote : c ≠ '"') (backslash : c ≠ '\\') : PieceFor c (.char c) where
  pieces := by
    intro s ps after rest
    rw [written]
    simp [Lexeme.pieces, backslash, high, rest]
  join := fun ps => by simp [Lexeme.join]

theorem exists_pieceFor (c : Char) : ∃ p, PieceFor c p := by
  by_cases quote : c = '"'
  · subst quote
    exact ⟨_, pieceFor_escaped rfl (by decide) rfl⟩
  by_cases backslash : c = '\\'
  · subst backslash
    exact ⟨_, pieceFor_escaped rfl (by decide) rfl⟩
  by_cases line : c = '\n'
  · subst line
    exact ⟨_, pieceFor_escaped rfl (by decide) rfl⟩
  by_cases carriage : c = '\r'
  · subst carriage
    exact ⟨_, pieceFor_escaped rfl (by decide) rfl⟩
  by_cases tab : c = '\t'
  · subst tab
    exact ⟨_, pieceFor_escaped rfl (by decide) rfl⟩
  by_cases back : c.toNat = 8
  · have own : c = Char.ofNat 8 := by rw [← back, Char.ofNat_toNat]
    subst own
    exact ⟨_, pieceFor_escaped rfl (by decide) rfl⟩
  by_cases feed : c.toNat = 12
  · have own : c = Char.ofNat 12 := by rw [← feed, Char.ofNat_toNat]
    subst own
    exact ⟨_, pieceFor_escaped rfl (by decide) rfl⟩
  by_cases low : c.toNat < 32
  · refine ⟨_, pieceFor_unit low ?_⟩
    simp [Value.escape, quote, backslash, line, carriage, tab, back, feed, low]
  · refine ⟨_, pieceFor_self ?_ low quote backslash⟩
    simp [Value.escape, quote, backslash, line, carriage, tab, back, feed, low]

theorem pieces_escapes (cs : List Char) (rest : Source) :
    ∃ ps, pieces ((cs.flatMap Value.escape).map some ++ some '"' :: rest) = some (ps, rest) ∧
      join ps = some cs := by
  induction cs with
  | nil => exact ⟨[], by simp [pieces], rfl⟩
  | cons c cs ih =>
    obtain ⟨ps, read, joined⟩ := ih
    obtain ⟨p, piece⟩ := exists_pieceFor c
    refine ⟨p :: ps, ?_, ?_⟩
    · rw [List.flatMap_cons, List.map_append, List.append_assoc]
      exact piece.pieces _ ps rest read
    · rw [piece.join, joined]
      rfl

theorem Scans.string {rest : Source} {ls : List Lexeme} (s : String) (tail : Scans rest ls) :
    Scans ((Value.quote s).map some ++ rest) (.string (some s) :: ls) := by
  obtain ⟨ps, read, joined⟩ := pieces_escapes s.toList rest
  have text : (Value.quote s).map some ++ rest =
      some '"' :: ((s.toList.flatMap Value.escape).map some ++ some '"' :: rest) := by
    simp [Value.quote]
  rw [text]
  refine .lexeme rfl ?_ ?_ tail
  · simp [next, read, joined]
  · simp only [List.length_cons, List.length_append]
    omega

/-- What follows does not continue a number. -/
def Ends (s : Source) : Prop :=
  ∀ c, s.head? = some (some c) → c.isDigit = false ∧ c ≠ '.' ∧ c ≠ 'e' ∧ c ≠ 'E'

theorem ends_nil : Ends [] := nofun

theorem ends_cons {c : Char} {s : Source} (digit : c.isDigit = false) (point : c ≠ '.')
    (lower : c ≠ 'e') (upper : c ≠ 'E') : Ends (some c :: s) := by
  intro d head
  cases head
  exact ⟨digit, point, lower, upper⟩

theorem ends_blank {c : Option Char} {s : Source} (blank : isBlank c = true) : Ends (c :: s) := by
  simp only [isBlank, Bool.or_eq_true, decide_eq_true_eq] at blank
  rcases blank with ((rfl | rfl) | rfl) | rfl <;>
    exact ends_cons (by decide) (by decide) (by decide) (by decide)

theorem decimal_digit_of_not_isDigit {c : Char} (other : c.isDigit = false) :
    Text.Decimal.digit? c = none := by
  have outside : ¬ ('0' ≤ c ∧ c ≤ '9') := by
    intro inside
    have digit : c.isDigit = true := by
      simp only [Char.isDigit, Bool.and_eq_true, decide_eq_true_eq]
      exact inside
    rw [digit] at other
    cases other
  rw [Text.Decimal.digit?, if_neg outside]

theorem digits_of_ends {s : Source} (ends : Ends s) : digits s = ([], s) := by
  match s with
  | [] => rfl
  | none :: s => rfl
  | some c :: s =>
    have other := decimal_digit_of_not_isDigit (ends c rfl).1
    simp only [digits, other]

theorem fraction_of_ends {s : Source} (ends : Ends s) : fraction s = some (none, s) := by
  match s with
  | [] => rfl
  | none :: s => rfl
  | some c :: s =>
    have point := (ends c rfl).2.1
    simp [fraction, point]

theorem exponent_of_ends {s : Source} (ends : Ends s) : exponent s = some (none, s) := by
  match s with
  | [] => rfl
  | none :: s => rfl
  | some c :: s =>
    have letters : ¬ (c = 'e' ∨ c = 'E') := by
      rintro (lower | upper)
      · exact (ends c rfl).2.2.1 lower
      · exact (ends c rfl).2.2.2 upper
    simp only [exponent, if_neg letters]

def decimals (n : Nat) : List Nat := (Nat.toDigits 10 n).map fun c => c.toNat - 48

theorem toNat_digitChar {n : Nat} (small : n < 10) : (Nat.digitChar n).toNat - 48 = n := by
  rw [Nat.toNat_digitChar_of_lt_ten small]
  omega

theorem decimals_of_lt {n : Nat} (small : n < 10) : decimals n = [n] := by
  rw [decimals, Nat.toDigits_of_lt_base small]
  simp [toNat_digitChar small]

theorem decimals_of_le {n : Nat} (large : 10 ≤ n) : decimals n = decimals (n / 10) ++ [n % 10] := by
  have last : n % 10 < 10 := Nat.mod_lt n (by decide)
  rw [decimals, Nat.toDigits_of_base_le (by decide) large]
  simp [decimals, toNat_digitChar last]

theorem head_decimals {n : Nat} (positive : 0 < n) :
    ∃ d ds, decimals n = d :: ds ∧ d ≠ 0 := by
  induction n using Nat.strongRecOn with
  | ind n ih =>
    by_cases small : n < 10
    · exact ⟨n, [], decimals_of_lt small, by omega⟩
    · obtain ⟨d, ds, before, nonzero⟩ := ih (n / 10) (by omega) (by omega)
      exact ⟨d, ds ++ [n % 10], by rw [decimals_of_le (by omega), before]; rfl, nonzero⟩

theorem gather_append {a b : Nat} {ds es : List Nat} (h : Number.gather a ds = (b, [])) :
    Number.gather a (ds ++ es) = Number.gather b es := by
  induction ds generalizing a with
  | nil =>
    cases h
    rfl
  | cons d ds ih =>
    simp only [Number.gather] at h
    simp only [List.cons_append, Number.gather]
    split at h
    · rename_i fits
      rw [if_pos fits]
      exact ih h
    · cases h

theorem gather_decimals {n : Nat} (fits : n < UInt64.size) :
    Number.gather 0 (decimals n) = (n, []) := by
  induction n using Nat.strongRecOn with
  | ind n ih =>
    by_cases small : n < 10
    · rw [decimals_of_lt small]
      simp [Number.gather, fits]
    · have before := ih (n / 10) (by omega) (by omega)
      have whole : 10 * (n / 10) + n % 10 = n := by omega
      rw [decimals_of_le (by omega), gather_append before]
      simp [Number.gather, whole, fits]

theorem digits_toDigits {cs : List Char} {rest : Source} (digit : ∀ c ∈ cs, c.isDigit = true)
    (ends : Ends rest) : digits (cs.map some ++ rest) = (cs.map fun c => c.toNat - 48, rest) := by
  induction cs with
  | nil => exact digits_of_ends ends
  | cons c cs ih =>
    have others := ih fun d member => digit d (List.mem_cons_of_mem c member)
    have own := digit c List.mem_cons_self
    simp only [Char.isDigit, Bool.and_eq_true, decide_eq_true_eq] at own
    have inside : '0' ≤ c ∧ c ≤ '9' := own
    simp only [List.map_cons, List.cons_append, digits, Text.Decimal.digit?, if_pos inside, others]

def InWord (n : Int) : Prop := -Number.signedLimit ≤ n ∧ n < UInt64.size

theorem numeral_decimals {negative : Bool} {n : Nat} {rest : Source} (ends : Ends rest) :
    numeral negative ((Nat.toDigits 10 n).map some ++ rest) =
      some (.number (Number.ofParts ⟨negative, decimals n, none, none⟩), rest) := by
  have digit : ∀ c ∈ Nat.toDigits 10 n, c.isDigit = true :=
    fun c member => Text.Decimal.isDigit_of_mem_write member
  have split : digits ((Nat.toDigits 10 n).map some ++ rest) = (decimals n, rest) :=
    digits_toDigits digit ends
  by_cases positive : 0 < n
  · obtain ⟨d, ds, written, nonzero⟩ := head_decimals positive
    simp [numeral, split, written, nonzero, fraction_of_ends ends, exponent_of_ends ends]
  · have zero : decimals n = [0] := by
      rw [show n = 0 by omega]
      rfl
    simp [numeral, split, zero, fraction_of_ends ends, exponent_of_ends ends]

theorem ofParts_decimals {n : Int} (fits : InWord n) :
    Number.ofParts ⟨decide (n < 0), decimals n.natAbs, none, none⟩ = some (.whole n) := by
  obtain ⟨low, high⟩ := fits
  have word : n.natAbs < UInt64.size := by
    simp only [Number.signedLimit, UInt64.size] at low high ⊢
    omega
  by_cases negative : n < 0
  · have limit : 0 < n.natAbs ∧ n.natAbs ≤ Number.signedLimit := by omega
    have back : -(n.natAbs : Int) = n := by omega
    simp only [Number.ofParts, gather_decimals word, negative, decide_true, not_true, if_false,
      if_pos limit, back]
  · have back : (n.natAbs : Int) = n := by omega
    simp [Number.ofParts, gather_decimals word, negative, back]

theorem next_digit {c : Char} {s : Source} (digit : c.isDigit = true) :
    next (some c :: s) = numeral false (some c :: s) := by
  unfold next
  split <;> simp_all [Char.isDigit]

theorem isBlank_of_isDigit {c : Char} (digit : c.isDigit = true) : isBlank (some c) = false := by
  have space : c ≠ ' ' := by
    rintro rfl
    exact absurd digit (by decide)
  have line : c ≠ '\n' := by
    rintro rfl
    exact absurd digit (by decide)
  have tab : c ≠ '\t' := by
    rintro rfl
    exact absurd digit (by decide)
  have carriage : c ≠ '\r' := by
    rintro rfl
    exact absurd digit (by decide)
  simp [isBlank, space, line, tab, carriage]

theorem Scans.whole {rest : Source} {ls : List Lexeme} {n : Int} (fits : InWord n)
    (ends : Ends rest) (tail : Scans rest ls) :
    Scans ((Value.digits n).map some ++ rest) (.number (some (.whole n)) :: ls) := by
  have number : numeral (decide (n < 0)) ((Nat.toDigits 10 n.natAbs).map some ++ rest) =
      some (.number (some (.whole n)), rest) := by
    rw [numeral_decimals ends, ofParts_decimals fits]
  cases written : Nat.toDigits 10 n.natAbs with
  | nil => exact False.elim (Nat.toDigits_ne_nil written)
  | cons c cs =>
    have digit : c.isDigit = true :=
      Nat.isDigit_of_mem_toDigits (by decide) (by decide) (written ▸ List.mem_cons_self)
    rw [written] at number
    by_cases negative : n < 0
    · have text : Value.digits n = '-' :: c :: cs := by simp [Value.digits, negative, written]
      rw [text]
      refine .lexeme rfl ?_ ?_ tail
      · simpa [next, negative] using number
      · simp only [List.length_append, List.length_map, List.length_cons]
        omega
    · have text : Value.digits n = c :: cs := by simp [Value.digits, negative, written]
      rw [text]
      refine .lexeme ?_ ?_ ?_ tail
      · rw [List.map_cons, List.cons_append, List.dropWhile_cons_of_neg
          (by simp [isBlank_of_isDigit digit])]
      · rw [List.map_cons, List.cons_append, next_digit digit]
        simpa [negative] using number
      · simp only [List.length_append, List.length_map, List.length_cons]
        omega

end Lexeme

end SlashGuard.Json
