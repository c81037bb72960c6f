import SlashGuard.PublicKey
import SlashGuard.Slot
import SlashGuard.Root

/-! Numbers and bytes read back from the text they are written as. -/
namespace SlashGuard

namespace Text

namespace Decimal

theorem digit_digitChar {n : Nat} (small : n < 10) : digit? (Nat.digitChar n) = some n := by
  have each : ∀ m < 10, digit? (Nat.digitChar m) = some m := by decide
  exact each n small

theorem extend_append {limit a b : Nat} {cs ds : List Char} (h : extend limit a cs = .ok b) :
    extend limit a (cs ++ ds) = extend limit b ds := by
  induction cs generalizing a with
  | nil =>
    cases h
    rfl
  | cons c cs ih =>
    simp only [extend] at h
    simp only [List.cons_append, extend]
    split at h
    · contradiction
    · split at h
      · rename_i fits
        rw [if_pos fits]
        exact ih h
      · contradiction

theorem extend_toDigits {limit n : Nat} (h : n < limit) :
    extend limit 0 (Nat.toDigits 10 n) = .ok n := by
  induction n using Nat.strongRecOn with
  | ind n ih =>
    by_cases small : n < 10
    · rw [Nat.toDigits_of_lt_base small]
      simp [extend, digit_digitChar small, h]
    · have before := ih (n / 10) (by omega) (by omega)
      have last : n % 10 < 10 := Nat.mod_lt n (by decide)
      have whole : 10 * (n / 10) + n % 10 = n := by omega
      rw [Nat.toDigits_of_base_le (by decide) (by omega), extend_append before]
      simp [extend, digit_digitChar last, whole, h]

theorem isDigit_of_mem_write {n : Nat} {c : Char} (member : c ∈ write n) : c.isDigit = true :=
  Nat.isDigit_of_mem_toDigits (by decide) (by decide) member

theorem read_write {limit n : Nat} (h : n < limit) : read limit (write n) = .ok n := by
  have digits := extend_toDigits h
  cases written : write n with
  | nil => exact False.elim (Nat.toDigits_ne_nil written)
  | cons c cs =>
    have head : c.isDigit = true :=
      isDigit_of_mem_write (written ▸ List.mem_cons_self)
    have unsigned : c ≠ '+' := by
      rintro rfl
      exact absurd head (by decide)
    rw [show Nat.toDigits 10 n = c :: cs from written] at digits
    simp [read, unsigned, digits]

end Decimal

namespace Blank

theorem isBlank_of_isDigit {c : Char} (digit : c.isDigit = true) : isBlank c = false := by
  have range : 48 ≤ c.toNat ∧ c.toNat ≤ 57 := by
    simp only [Char.isDigit, Bool.and_eq_true, decide_eq_true_eq] at digit
    exact ⟨digit.1, digit.2⟩
  simp only [isBlank, Bool.or_eq_false_iff, Bool.and_eq_false_iff, decide_eq_false_iff_not,
    beq_eq_false_iff_ne]
  omega

theorem dropWhile_isBlank {cs : List Char} (solid : ∀ c ∈ cs, isBlank c = false) :
    cs.dropWhile isBlank = cs := by
  cases cs with
  | nil => rfl
  | cons c cs => rw [List.dropWhile_cons_of_neg (by simp [solid c List.mem_cons_self])]

theorem trim_eq_self {cs : List Char} (solid : ∀ c ∈ cs, isBlank c = false) : trim cs = cs := by
  have backward : ∀ c ∈ cs.reverse, isBlank c = false :=
    fun c member => solid c (List.mem_reverse.mp member)
  rw [trim, dropWhile_isBlank solid, dropWhile_isBlank backward, List.reverse_reverse]

end Blank

namespace Hex

def IsDigit (n : Nat) (c : Char) : Prop := c = digit n ∨ c = (digit n).toUpper

/-- The digits of some bytes, each in either case. -/
inductive Spells : List UInt8 → List Char → Prop
  | nil : Spells [] []
  | cons {b : UInt8} {high low : Char} {bs : List UInt8} {cs : List Char}
      (first : IsDigit (b.toNat / 16) high) (second : IsDigit (b.toNat % 16) low)
      (rest : Spells bs cs) : Spells (b :: bs) (high :: low :: cs)

theorem spells_encode (bs : List UInt8) : Spells bs (encode bs) := by
  induction bs with
  | nil => exact .nil
  | cons b bs ih => exact .cons (.inl rfl) (.inl rfl) ih

section Digits

variable {n : Nat} {c : Char}

theorem IsDigit.digit?_eq (shown : IsDigit n c) (small : n < 16) : digit? c = some n := by
  have each : ∀ m < 16, digit? (digit m) = some m ∧ digit? (digit m).toUpper = some m := by decide
  rcases shown with rfl | rfl
  · exact (each n small).1
  · exact (each n small).2

theorem IsDigit.utf8Size (shown : IsDigit n c) (small : n < 16) : c.utf8Size = 1 := by
  have each : ∀ m < 16, (digit m).utf8Size = 1 ∧ (digit m).toUpper.utf8Size = 1 := by decide
  rcases shown with rfl | rfl
  · exact (each n small).1
  · exact (each n small).2

theorem IsDigit.ne_x (shown : IsDigit n c) (small : n < 16) : c ≠ 'x' := by
  rintro rfl
  have none : digit? 'x' = none := by decide
  rw [shown.digit?_eq small] at none
  contradiction

end Digits

theorem high_lt (b : UInt8) : b.toNat / 16 < 16 := by
  have := b.toNat_lt
  omega

theorem low_lt (b : UInt8) : b.toNat % 16 < 16 := Nat.mod_lt _ (by decide)

section Spelt

variable {bs : List UInt8} {cs : List Char}

theorem Spells.byteLength (spelt : Spells bs cs) : byteLength cs = 2 * bs.length := by
  induction spelt with
  | nil => rfl
  | cons first second _ ih =>
    simp only [Hex.byteLength, first.utf8Size (high_lt _), second.utf8Size (low_lt _), ih,
      List.length_cons]
    omega

theorem Spells.firstBad (spelt : Spells bs cs) (index : Nat) : firstBad index cs = none := by
  induction spelt generalizing index with
  | nil => rfl
  | cons first second _ ih =>
    simp [Hex.firstBad, first.digit?_eq (high_lt _), second.digit?_eq (low_lt _), ih]

theorem Spells.pairs (spelt : Spells bs cs) : pairs cs = bs := by
  induction spelt with
  | nil => rfl
  | @cons b _ _ bs _ first second _ ih =>
    have whole : b.toNat / 16 * 16 + b.toNat % 16 = b.toNat := by omega
    simp only [Hex.pairs, first.digit?_eq (high_lt b), second.digit?_eq (low_lt b),
      Option.getD_some, ih, whole, UInt8.ofNat_toNat]

theorem Spells.decode (spelt : Spells bs cs) : decode cs = .ok bs := by
  have even : ¬ Hex.byteLength cs % 2 = 1 := by
    rw [spelt.byteLength]
    omega
  simp only [Hex.decode, if_neg even, spelt.firstBad, spelt.pairs]

/-- The prefix may be left out, since no digits begin like it. -/
theorem Spells.read (spelt : Spells bs cs) : read cs = .ok bs := by
  have bare : strip cs = cs := by
    cases spelt with
    | nil => rfl
    | cons _ second _ => simp [strip, second.ne_x (low_lt _)]
  rw [Hex.read, bare, spelt.decode]

theorem Spells.read_prefixed (spelt : Spells bs cs) : Hex.read ('0' :: 'x' :: cs) = .ok bs :=
  spelt.decode

end Spelt

theorem read_write (bs : List UInt8) : read (write bs) = .ok bs :=
  (spells_encode bs).read_prefixed

end Hex

end Text

theorem readNumber_writeNumber (n : UInt64) : readNumber (writeNumber n) = .ok n := by
  have solid : ∀ c ∈ Text.Decimal.write n.toNat, Text.Blank.isBlank c = false :=
    fun c member => Text.Blank.isBlank_of_isDigit (Text.Decimal.isDigit_of_mem_write member)
  have size : n.toNat < UInt64.size := n.toNat_lt
  simp only [readNumber, writeNumber, String.toList_ofList, Text.Blank.trim_eq_self solid,
    Text.Decimal.read_write size, UInt64.ofNat_toNat]

theorem Root.ofHex_toHex (role : Root.Role) (r : Root) : Root.ofHex role r.toHex = .ok r := by
  simp only [Root.ofHex, Root.toHex, String.toList_ofList, Text.Hex.read_write, Root.ofBytes,
    dif_pos r.size]

theorem PublicKey.ofHex_toHex (k : PublicKey) : PublicKey.ofHex k.toHex = .ok k := by
  simp only [PublicKey.ofHex, PublicKey.toHex, String.toList_ofList, Text.Hex.read_write,
    PublicKey.ofBytes, dif_neg k.nonempty]

end SlashGuard
