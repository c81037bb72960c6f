import Mathlib.Data.List.TakeWhile
import Mathlib.Data.Nat.Digits.Defs
import SlashGuard.Proofs.Documents
import SlashGuard.Proofs.Messages
import SlashGuard.Proofs.Rows

/-! Numbers are read by their grammar and by nothing else: an optional plus sign and decimal digits
between blanks, with as many leading zeros as one likes, below the limit of a word. -/
namespace SlashGuard

namespace Text

namespace Blank

variable {cs before core after : List Char}

theorem dropWhile_append (blank : ∀ c ∈ before, isBlank c = true)
    (solid : ∀ c ∈ core, isBlank c = false) (some : core ≠ []) :
    (before ++ (core ++ after)).dropWhile isBlank = core ++ after := by
  obtain ⟨c, rest, rfl⟩ := List.exists_cons_of_ne_nil some
  rw [List.dropWhile_append_of_pos blank, List.cons_append,
    List.dropWhile_cons_of_neg (by simp [solid c List.mem_cons_self])]

theorem trim_append (leading : ∀ c ∈ before, isBlank c = true)
    (solid : ∀ c ∈ core, isBlank c = false) (some : core ≠ [])
    (trailing : ∀ c ∈ after, isBlank c = true) : trim (before ++ (core ++ after)) = core := by
  have backward : ∀ c ∈ core.reverse, isBlank c = false :=
    fun c member => solid c (List.mem_reverse.mp member)
  have ending : ∀ c ∈ after.reverse, isBlank c = true :=
    fun c member => trailing c (List.mem_reverse.mp member)
  have left := @dropWhile_append after.reverse core.reverse [] ending backward (by simpa using some)
  simp only [List.append_nil] at left
  rw [trim, dropWhile_append leading solid some, List.reverse_append, left, List.reverse_reverse]

theorem exists_trim (cs : List Char) :
    ∃ before after, cs = before ++ (trim cs ++ after) ∧
      (∀ c ∈ before, isBlank c = true) ∧ ∀ c ∈ after, isBlank c = true := by
  refine ⟨cs.takeWhile isBlank, ((cs.dropWhile isBlank).reverse.takeWhile isBlank).reverse,
    ?_, fun c member => List.mem_takeWhile_imp member,
    fun c member => List.mem_takeWhile_imp (List.mem_reverse.mp member)⟩
  rw [trim, ← List.reverse_append, List.takeWhile_append_dropWhile, List.reverse_reverse,
    List.takeWhile_append_dropWhile]

end Blank

namespace Decimal

def denoted (ds : List Char) : Nat := Nat.ofDigits 10 (ds.reverse.map fun c => c.toNat - '0'.toNat)

def IsRow (n : Nat) (ds : List Char) : Prop :=
  ds ≠ [] ∧ (∀ c ∈ ds, c.isDigit = true) ∧ denoted ds = n

def IsNumeral (n : Nat) (cs : List Char) : Prop :=
  IsRow n cs ∨ ∃ ds, cs = '+' :: ds ∧ IsRow n ds

def Denotes (n : Nat) (cs : List Char) : Prop :=
  ∃ before numeral after, cs = before ++ (numeral ++ after) ∧
    (∀ c ∈ before, Blank.isBlank c = true) ∧ (∀ c ∈ after, Blank.isBlank c = true) ∧
    IsNumeral n numeral

theorem denoted_cons (c : Char) (ds : List Char) :
    denoted (c :: ds) = (c.toNat - '0'.toNat) * 10 ^ ds.length + denoted ds := by
  simp only [denoted, List.reverse_cons, List.map_append, List.map_cons, List.map_nil,
    Nat.ofDigits_append, List.length_map, List.length_reverse, Nat.ofDigits_singleton]
  ring

theorem digit?_of_isDigit {c : Char} (digit : c.isDigit = true) :
    digit? c = some (c.toNat - '0'.toNat) := by
  simp only [Char.isDigit, Bool.and_eq_true, decide_eq_true_eq] at digit
  have inside : '0' ≤ c ∧ c ≤ '9' := digit
  rw [digit?, if_pos inside]
  rfl

theorem digit?_of_not_isDigit {c : Char} (other : c.isDigit = false) : digit? c = none := by
  have outside : ¬ ('0' ≤ c ∧ c ≤ '9') := by
    intro inside
    have digit : c.isDigit = true := by
      simp only [Char.isDigit, Bool.and_eq_true, decide_eq_true_eq]
      exact inside
    rw [other] at digit
    contradiction
  rw [digit?, if_neg outside]

/-- Digits that follow a number below the limit are read exactly if the whole stays below it. A
number past the limit never comes back below, so the first step past it decides. -/
theorem extend_eq_ok {limit a b : Nat} {cs : List Char} (below : a < limit) :
    extend limit a cs = .ok b ↔
      (∀ c ∈ cs, c.isDigit = true) ∧ a * 10 ^ cs.length + denoted cs = b ∧ b < limit := by
  induction cs generalizing a with
  | nil =>
    simp only [extend, Except.ok.injEq, List.not_mem_nil, false_implies, implies_true, true_and,
      List.length_nil, Nat.pow_zero, Nat.mul_one, show denoted [] = 0 from rfl, Nat.add_zero]
    constructor
    · rintro rfl
      exact ⟨rfl, below⟩
    · exact fun h => h.1
  | cons c cs ih =>
    cases digit : c.isDigit with
    | false =>
      simp only [extend, digit?_of_not_isDigit digit, reduceCtorEq, false_iff]
      intro h
      have own := h.1 c List.mem_cons_self
      rw [digit] at own
      contradiction
    | true =>
      have value : a * 10 ^ (c :: cs).length + denoted (c :: cs) =
          (10 * a + (c.toNat - '0'.toNat)) * 10 ^ cs.length + denoted cs := by
        rw [denoted_cons, List.length_cons]
        ring
      simp only [extend, digit?_of_isDigit digit, value, List.forall_mem_cons, digit, true_and]
      by_cases step : 10 * a + (c.toNat - '0'.toNat) < limit
      · rw [if_pos step]
        exact ih step
      · rw [if_neg step]
        simp only [reduceCtorEq, false_iff]
        rintro ⟨-, whole, small⟩
        have grows := Nat.le_mul_of_pos_right (10 * a + (c.toNat - '0'.toNat))
          (Nat.pow_pos (n := cs.length) (show 0 < 10 by decide))
        omega

theorem extend_eq_ok_iff_isRow {limit n : Nat} {ds : List Char} (positive : 0 < limit)
    (some : ds ≠ []) : extend limit 0 ds = .ok n ↔ IsRow n ds ∧ n < limit := by
  rw [extend_eq_ok positive, Nat.zero_mul, Nat.zero_add, IsRow]
  simp only [ne_eq, some, not_false_eq_true, true_and, and_assoc]

theorem not_isRow_plus {n : Nat} {ds : List Char} : ¬ IsRow n ('+' :: ds) :=
  fun row => absurd (row.2.1 '+' List.mem_cons_self) (by decide)

theorem isNumeral_plus {n : Nat} {ds : List Char} : IsNumeral n ('+' :: ds) ↔ IsRow n ds := by
  simp [IsNumeral, not_isRow_plus]

theorem isNumeral_of_ne_plus {n : Nat} {cs : List Char} (unsigned : ∀ ds, cs ≠ '+' :: ds) :
    IsNumeral n cs ↔ IsRow n cs := by
  simp [IsNumeral, unsigned]

theorem read_eq_ok {limit n : Nat} {cs : List Char} (positive : 0 < limit) :
    read limit cs = .ok n ↔ IsNumeral n cs ∧ n < limit := by
  unfold read
  split
  · simp [IsNumeral, IsRow]
  · simp [isNumeral_plus, IsRow]
  · rename_i ds more
    rw [isNumeral_plus, extend_eq_ok_iff_isRow positive (by rintro rfl; exact more rfl)]
  · rename_i some _ unsigned
    rw [isNumeral_of_ne_plus unsigned,
      extend_eq_ok_iff_isRow positive (by rintro rfl; exact some rfl)]

theorem IsNumeral.ne_nil {n : Nat} {cs : List Char} (numeral : IsNumeral n cs) : cs ≠ [] := by
  rcases numeral with row | ⟨ds, rfl, -⟩
  · exact row.1
  · exact List.cons_ne_nil _ _

theorem IsNumeral.solid {n : Nat} {cs : List Char} (numeral : IsNumeral n cs) :
    ∀ c ∈ cs, Blank.isBlank c = false := by
  rcases numeral with row | ⟨ds, rfl, row⟩
  · exact fun c member => Blank.isBlank_of_isDigit (row.2.1 c member)
  · exact List.forall_mem_cons.mpr
      ⟨rfl, fun c member => Blank.isBlank_of_isDigit (row.2.1 c member)⟩

/-- A numeral has no blanks, so it is what is left once blanks are taken off the ends. -/
theorem denotes_iff_trim {n : Nat} {cs : List Char} :
    Denotes n cs ↔ IsNumeral n (Blank.trim cs) := by
  constructor
  · rintro ⟨before, numeral, after, rfl, leading, trailing, shown⟩
    rwa [Blank.trim_append leading shown.solid shown.ne_nil trailing]
  · intro shown
    obtain ⟨before, after, split, leading, trailing⟩ := Blank.exists_trim cs
    exact ⟨before, Blank.trim cs, after, split, leading, trailing, shown⟩

end Decimal

end Text

open Text.Decimal (Denotes)

variable {s : String} {n : UInt64}

theorem readNumber_eq_ok : readNumber s = .ok n ↔ Denotes n.toNat s.toList := by
  have limit : ∀ m, Text.Decimal.read UInt64.size (Text.Blank.trim s.toList) = .ok m ↔
      Denotes m s.toList ∧ m < UInt64.size := by
    intro m
    rw [Text.Decimal.read_eq_ok (by decide), Text.Decimal.denotes_iff_trim]
  unfold readNumber
  split
  · rename_i m found
    obtain ⟨shown, small⟩ := (limit m).mp found
    simp only [Except.ok.injEq]
    constructor
    · rintro rfl
      rwa [UInt64.toNat_ofNat_of_lt' small]
    · intro same
      have read := (limit n.toNat).mpr ⟨same, n.toNat_lt⟩
      rw [found] at read
      cases read
      exact UInt64.ofNat_toNat
  · rename_i fault found
    simp only [reduceCtorEq, false_iff]
    intro shown
    have read := (limit n.toNat).mpr ⟨shown, n.toNat_lt⟩
    rw [found] at read
    contradiction

theorem readNumber_error {fault : InputFault} (failed : readNumber s = .error fault) :
    ∃ why, fault = .number s why := by
  unfold readNumber at failed
  split at failed
  · contradiction
  · cases failed
    exact ⟨_, rfl⟩

theorem readNumber_eq_error :
    (∃ why, readNumber s = .error (.number s why)) ↔
      ∀ m, Denotes m s.toList → UInt64.size ≤ m := by
  constructor
  · rintro ⟨why, failed⟩ m shown
    by_contra small
    have whole : (UInt64.ofNat m).toNat = m := UInt64.toNat_ofNat_of_lt' (Nat.lt_of_not_le small)
    have read : readNumber s = .ok (.ofNat m) := readNumber_eq_ok.mpr (by rwa [whole])
    rw [failed] at read
    contradiction
  · intro large
    cases read : readNumber s with
    | ok n => exact absurd (large _ (readNumber_eq_ok.mp read)) (Nat.not_le.mpr n.toNat_lt)
    | error fault =>
      obtain ⟨why, rfl⟩ := readNumber_error read
      exact ⟨why, rfl⟩

theorem denotes_writeNumber (n : UInt64) : Denotes n.toNat (writeNumber n).toList :=
  readNumber_eq_ok.mp (readNumber_writeNumber n)

open Json Json.Decoder

def Json.Reading.StandsFor (n : UInt64) (r : Reading) : Prop :=
  r = .number (some (.whole n.toNat)) ∨
    ∃ s : String, r = .string (some s) ∧ Denotes n.toNat s.toList

section Decoders

variable {p : Json.Place} {r : Reading}

theorem numberDecoder_text : numberDecoder p (.string (some s)) = .ok n ↔ readNumber s = .ok n := by
  cases read : readNumber s <;>
    simp [numberDecoder, numberOrText, hold_text, read, Except.mapError, bind, Except.bind]

theorem numberDecoder_eq_ok : numberDecoder p r = .ok n ↔ r.StandsFor n := by
  constructor
  · intro read
    obtain ⟨-, -, found⟩ := bind_eq_ok.mp read
    split at found
    · rename_i s
      exact .inr ⟨s, rfl, readNumber_eq_ok.mp (numberDecoder_text.mp read)⟩
    · rename_i m
      split at found
      · rename_i inside
        cases found
        have small : m.toNat < UInt64.size := by omega
        have same : ((UInt64.ofNat m.toNat).toNat : Int) = m := by
          rw [UInt64.toNat_ofNat_of_lt' small, Int.toNat_of_nonneg inside.1]
        exact .inl (by rw [same])
      · contradiction
    · contradiction
  · rintro (rfl | ⟨s, rfl, shown⟩)
    · exact numberDecoder_written (v := .whole n.toNat) (.inl rfl)
    · exact numberDecoder_text.mpr (readNumber_eq_ok.mpr shown)

theorem Slot.decoder_eq_ok {slot : Slot} :
    Slot.decoder p r = .ok slot ↔ r.StandsFor slot.number := by
  rw [← numberDecoder_eq_ok (p := p), Slot.decoder, Decoder.map, map_eq_ok]
  constructor
  · rintro ⟨n, read, rfl⟩
    exact read
  · exact fun read => ⟨slot.number, read, rfl⟩

theorem Epoch.decoder_eq_ok {epoch : Epoch} :
    Epoch.decoder p r = .ok epoch ↔ r.StandsFor epoch.number := by
  rw [← numberDecoder_eq_ok (p := p), Epoch.decoder, Decoder.map, map_eq_ok]
  constructor
  · rintro ⟨n, read, rfl⟩
    exact read
  · exact fun read => ⟨epoch.number, read, rfl⟩

end Decoders

theorem decode_slot {v : Value} {slot : Slot} (fits : v.Fits)
    (stands : v.reading.StandsFor slot.number) :
    Json.decode Slot.decoder (Text.Utf8.ofText v.line) = .ok slot :=
  (decode_line fits (Slot.decoder_eq_ok.mpr stands)).1

theorem decode_epoch {v : Value} {epoch : Epoch} (fits : v.Fits)
    (stands : v.reading.StandsFor epoch.number) :
    Json.decode Epoch.decoder (Text.Utf8.ofText v.line) = .ok epoch :=
  (decode_line fits (Epoch.decoder_eq_ok.mpr stands)).1

/-- A text is read as a number exactly if it is a numeral between blanks that denotes that number,
below 2 ^ 64; any other text is refused and named in the fault. A slot and an epoch are read from
their number and from each text that denotes it, the written one among them, and from nothing
else. -/
theorem numbers_by_grammar :
    (∀ s n, readNumber s = .ok n ↔ Denotes n.toNat s.toList) ∧
    (∀ s, (∃ why, readNumber s = .error (.number s why)) ↔
      ∀ m, Denotes m s.toList → UInt64.size ≤ m) ∧
    (∀ p r slot, Slot.decoder p r = .ok slot ↔ r.StandsFor slot.number) ∧
    (∀ p r epoch, Epoch.decoder p r = .ok epoch ↔ r.StandsFor epoch.number) ∧
    (∀ n : UInt64, ∀ v ∈ [Slot.toValue ⟨n⟩, Epoch.toValue ⟨n⟩, .whole n.toNat],
      Json.decode Slot.decoder (Text.Utf8.ofText v.line) = .ok ⟨n⟩ ∧
      Json.decode Epoch.decoder (Text.Utf8.ofText v.line) = .ok ⟨n⟩) ∧
    (∀ (n : UInt64) (s : String), Denotes n.toNat s.toList →
      Json.decode Slot.decoder (Text.Utf8.ofText (Value.string s).line) = .ok ⟨n⟩ ∧
      Json.decode Epoch.decoder (Text.Utf8.ofText (Value.string s).line) = .ok ⟨n⟩) := by
  have text (n : UInt64) (s : String) (shown : Denotes n.toNat s.toList) :
      Json.decode Slot.decoder (Text.Utf8.ofText (Value.string s).line) = .ok ⟨n⟩ ∧
      Json.decode Epoch.decoder (Text.Utf8.ofText (Value.string s).line) = .ok ⟨n⟩ :=
    have stands : (Value.string s).reading.StandsFor n := .inr ⟨s, rfl, shown⟩
    ⟨decode_slot trivial stands, decode_epoch trivial stands⟩
  refine ⟨fun _ _ => readNumber_eq_ok, fun _ => readNumber_eq_error,
    fun _ _ _ => Slot.decoder_eq_ok, fun _ _ _ => Epoch.decoder_eq_ok, ?_, text⟩
  intro n v form
  have bare : (Value.whole n.toNat).Fits := inWord_of_lt n.toNat_lt
  simp only [List.mem_cons, List.not_mem_nil, or_false] at form
  rcases form with rfl | rfl | rfl
  · exact text n _ (denotes_writeNumber n)
  · exact text n _ (denotes_writeNumber n)
  · exact ⟨decode_slot bare (.inl rfl), decode_epoch bare (.inl rfl)⟩

theorem numbers_by_grammar_limit :
    Denotes (18446744073709551615 : UInt64).toNat "\u2003+0018446744073709551615\n".toList ∧
    Json.decode Slot.decoder
        (Text.Utf8.ofText (Value.string "\u2003+0018446744073709551615\n").line) =
      .ok ⟨18446744073709551615⟩ := by
  have shown : Denotes (18446744073709551615 : UInt64).toNat
      "\u2003+0018446744073709551615\n".toList := by
    refine ⟨['\u2003'], "+0018446744073709551615".toList, ['\n'], by decide,
      List.forall_mem_singleton.mpr (by decide), List.forall_mem_singleton.mpr (by decide),
      .inr ⟨"0018446744073709551615".toList, by decide, by decide, ?_, by decide⟩⟩
    exact List.all_eq_true.mp (by decide)
  exact ⟨shown, (numbers_by_grammar.2.2.2.2.2 _ _ shown).1⟩

end SlashGuard
