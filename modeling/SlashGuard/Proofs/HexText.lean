import SlashGuard.Proofs.Characters
import SlashGuard.Proofs.Digits

/-! Hexadecimal text. It is read exactly if it spells some bytes, and nothing but the case of its
digits is lost then; else it is refused for the first flaw in its own bytes. -/
namespace SlashGuard.Text.Hex

def IsHexDigit (c : Char) : Prop :=
  ('0' ≤ c ∧ c ≤ '9') ∨ ('a' ≤ c ∧ c ≤ 'f') ∨ ('A' ≤ c ∧ c ≤ 'F')

section Digits

variable {n : Nat} {c : Char}

instance : Decidable (IsHexDigit c) := inferInstanceAs (Decidable (_ ∨ _ ∨ _))

instance : Decidable (IsDigit n c) := inferInstanceAs (Decidable (_ ∨ _))

theorem isSome_digit? : (digit? c).isSome = true ↔ IsHexDigit c := by
  unfold digit? IsHexDigit
  split
  · simp_all
  · split
    · simp_all
    · split <;> simp_all

theorem IsHexDigit.ascii (digit : IsHexDigit c) : c.toNat ≤ 127 := by
  have low : c ≤ 'f' := by
    rcases digit with ⟨-, h⟩ | ⟨-, h⟩ | ⟨-, h⟩
    · exact Char.le_trans h (by decide)
    · exact h
    · exact Char.le_trans h (by decide)
  exact Nat.le_trans (show c.toNat ≤ 'f'.toNat from low) (by decide)

theorem IsHexDigit.utf8Size (digit : IsHexDigit c) : c.utf8Size = 1 :=
  Char.utf8Size_eq_one_iff.mpr digit.ascii

theorem isDigit_of_digit? (found : digit? c = some n) : n < 16 ∧ IsDigit n c := by
  have each : ∀ m < 128, ∀ n ∈ digit? (Char.ofNat m), n < 16 ∧ IsDigit n (Char.ofNat m) := by
    decide
  have ascii := (isSome_digit?.mp (Option.isSome_of_eq_some found)).ascii
  have own := each c.toNat (by omega) n
  rw [Char.ofNat_toNat] at own
  exact own found

theorem IsDigit.toLower (shown : IsDigit n c) (small : n < 16) : c.toLower = digit n := by
  have each : ∀ m < 16, (digit m).toLower = digit m ∧ (digit m).toUpper.toLower = digit m := by
    decide
  rcases shown with rfl | rfl
  · exact (each n small).1
  · exact (each n small).2

end Digits

theorem firstBad_eq_none {index : Nat} {cs : List Char} :
    firstBad index cs = none ↔ ∀ c ∈ cs, IsHexDigit c := by
  induction cs generalizing index with
  | nil => simp [firstBad]
  | cons c cs ih =>
    by_cases digit : IsHexDigit c
    · rw [firstBad, if_pos (isSome_digit?.mpr digit), ih, List.forall_mem_cons]
      simp [digit]
    · rw [firstBad, if_neg (mt isSome_digit?.mp digit), List.forall_mem_cons]
      simp [digit]

theorem byteLength_of_digits {cs : List Char} (digits : ∀ c ∈ cs, IsHexDigit c) :
    byteLength cs = cs.length := by
  induction cs with
  | nil => rfl
  | cons c cs ih =>
    obtain ⟨own, others⟩ := List.forall_mem_cons.mp digits
    rw [byteLength, own.utf8Size, ih others, List.length_cons, Nat.add_comm]

section Spelt

variable {bs ds : List UInt8} {cs es : List Char}

theorem Spells.digits (spelt : Spells bs cs) : ∀ c ∈ cs, IsHexDigit c :=
  firstBad_eq_none.mp (spelt.firstBad 0)

theorem Spells.length_eq (spelt : Spells bs cs) : cs.length = 2 * bs.length := by
  rw [← byteLength_of_digits spelt.digits, spelt.byteLength]

theorem Spells.map_toLower (spelt : Spells bs cs) : cs.map Char.toLower = encode bs := by
  induction spelt with
  | nil => rfl
  | cons first second _ ih =>
    rw [List.map_cons, List.map_cons, first.toLower (high_lt _), second.toLower (low_lt _), ih]
    rfl

theorem encode_inj : encode bs = encode ds ↔ bs = ds := by
  constructor
  · intro same
    rw [← (spells_encode bs).pairs, same, (spells_encode ds).pairs]
  · rintro rfl
    rfl

theorem Spells.eq_iff (left : Spells bs cs) (right : Spells ds es) :
    bs = ds ↔ cs.map Char.toLower = es.map Char.toLower := by
  rw [left.map_toLower, right.map_toLower, encode_inj]

theorem spells_pairs (digits : ∀ c ∈ cs, IsHexDigit c) (even : cs.length % 2 = 0) :
    Spells (pairs cs) cs := by
  fun_induction pairs cs with
  | case1 a b cs ih =>
    obtain ⟨own, next, others⟩ : IsHexDigit a ∧ IsHexDigit b ∧ ∀ c ∈ cs, IsHexDigit c := by
      simpa only [List.forall_mem_cons] using digits
    obtain ⟨x, high⟩ := Option.isSome_iff_exists.mp (isSome_digit?.mpr own)
    obtain ⟨y, low⟩ := Option.isSome_iff_exists.mp (isSome_digit?.mpr next)
    obtain ⟨x_small, first⟩ := isDigit_of_digit? high
    obtain ⟨y_small, second⟩ := isDigit_of_digit? low
    have byte : (UInt8.ofNat (x * 16 + y)).toNat = x * 16 + y :=
      Utf8.toNat_ofNat_of_lt (by omega)
    simp only [high, low, Option.getD_some]
    refine .cons ?_ ?_ (ih others (by simpa [Nat.add_assoc] using even))
    · rwa [byte, show (x * 16 + y) / 16 = x by omega]
    · rwa [byte, show (x * 16 + y) % 16 = y by omega]
  | case2 cs short =>
    match cs with
    | [] => exact .nil
    | [_] => contradiction
    | a :: b :: cs => exact absurd rfl (short a b cs)

theorem decode_eq_ok : decode cs = .ok bs ↔ Spells bs cs := by
  constructor
  · intro read
    unfold decode at read
    split at read
    · contradiction
    · rename_i even
      split at read
      · contradiction
      · rename_i good
        cases read
        have digits := firstBad_eq_none.mp good
        rw [byteLength_of_digits digits] at even
        exact spells_pairs digits (by omega)
  · exact Spells.decode

theorem exists_spells {n : Nat} :
    (∃ bs, Spells bs cs ∧ bs.length = n) ↔ (∀ c ∈ cs, IsHexDigit c) ∧ cs.length = 2 * n := by
  constructor
  · rintro ⟨bs, spelt, rfl⟩
    exact ⟨spelt.digits, spelt.length_eq⟩
  · rintro ⟨digits, size⟩
    have spelt := spells_pairs digits (by omega)
    have count := spelt.length_eq
    exact ⟨pairs cs, spelt, by omega⟩

end Spelt

def IsDigitByte (b : UInt8) : Prop := ∃ c, IsHexDigit c ∧ c.toNat = b.toNat

/-- What is wrong with the bytes of a text: that there is an odd number of them, and else the first
that is the byte of no digit. -/
inductive Flaw (bs : List UInt8) : Fault → Prop
  | odd (odd : bs.length % 2 = 1) : Flaw bs .oddLength
  | bad {b : UInt8} {i : Nat} (even : bs.length % 2 = 0) (found : bs[i]? = some b)
      (own : ¬ IsDigitByte b) (earlier : ∀ j < i, ∀ d, bs[j]? = some d → IsDigitByte d) :
      Flaw bs (.badDigit b i)

theorem Flaw.unique {bs : List UInt8} {f g : Fault} (left : Flaw bs f) (right : Flaw bs g) :
    f = g := by
  cases left with
  | odd odd =>
    cases right with
    | odd => rfl
    | bad even => omega
  | @bad b i even found own earlier =>
    cases right with
    | odd odd => omega
    | @bad b' i' _ found' own' earlier' =>
      rcases Nat.lt_trichotomy i i' with less | rfl | more
      · exact absurd (earlier' i less b found) own
      · rw [found] at found'
        cases found'
        rfl
      · exact absurd (earlier i' more b' found') own'

theorem length_utf8Encode (cs : List Char) : (Utf8.encode cs).length = byteLength cs := by
  induction cs with
  | nil => rfl
  | cons c cs ih =>
    rw [← List.singleton_append, Utf8.encode_append, List.length_append, ih]
    simp [Utf8.encode, byteLength]

/-- A digit has one byte, and no other character begins with that byte. -/
theorem isDigitByte_iff {c : Char} {b : UInt8} {s : List UInt8} (spelt : Utf8.Spells c (b :: s)) :
    IsDigitByte b ↔ IsHexDigit c := by
  have wide (least : 0x80 ≤ c.toNat) (head : 0xc0 ≤ b.toNat) : IsDigitByte b ↔ IsHexDigit c := by
    refine iff_of_false ?_ ?_
    · rintro ⟨d, digit, same⟩
      have := digit.ascii
      omega
    · intro digit
      have := digit.ascii
      omega
  cases spelt with
  | one _ low value =>
    constructor
    · rintro ⟨d, digit, same⟩
      have one : d = c := Char.toNat_inj.mp (same.trans value.symm)
      rwa [← one]
    · exact fun digit => ⟨c, digit, value⟩
  | two _ _ head _ _ least => exact wide least head.1
  | three _ _ _ head _ _ _ least => exact wide (by omega) (by omega)
  | four _ _ _ _ head _ _ _ _ least => exact wide (by omega) (by omega)

theorem isDigitByte_of_mem_encode {cs : List Char} (digits : ∀ c ∈ cs, IsHexDigit c) :
    ∀ b ∈ Utf8.encode cs, IsDigitByte b := by
  intro b member
  obtain ⟨c, own, inside⟩ := List.mem_flatMap.mp member
  obtain ⟨a, one⟩ := List.length_eq_one_iff.mp
    ((String.length_utf8EncodeChar c).trans (digits c own).utf8Size)
  have spelt := Utf8.spells_encode c
  rw [one] at spelt inside
  cases List.mem_singleton.mp inside
  exact (isDigitByte_iff spelt).mpr (digits c own)

theorem exists_split_of_firstBad {cs : List Char} {c : Char} {index i : Nat}
    (found : firstBad index cs = some (c, i)) :
    ∃ before after, cs = before ++ c :: after ∧ (∀ d ∈ before, IsHexDigit d) ∧ ¬ IsHexDigit c ∧
      i = index + before.length := by
  induction cs generalizing index with
  | nil => contradiction
  | cons d cs ih =>
    rw [firstBad] at found
    split at found
    · rename_i digit
      obtain ⟨before, after, rfl, digits, other, rfl⟩ := ih found
      refine ⟨d :: before, after, rfl, ?_, other, ?_⟩
      · exact List.forall_mem_cons.mpr ⟨isSome_digit?.mp digit, digits⟩
      · rw [List.length_cons]
        omega
    · rename_i other
      cases found
      exact ⟨[], cs, rfl, List.forall_mem_nil _, mt isSome_digit?.mpr other, rfl⟩

theorem flaw_of_firstBad {cs : List Char} {c : Char} {i : Nat}
    (even : (Utf8.encode cs).length % 2 = 0) (found : firstBad 0 cs = some (c, i)) :
    Flaw (Utf8.encode cs) (.badDigit ((String.utf8EncodeChar c).headD 0) i) := by
  obtain ⟨before, after, rfl, digits, other, rfl⟩ := exists_split_of_firstBad found
  -- Each digit is one byte, so the characters before the bad one are as many as the bytes before it.
  have place : (Utf8.encode before).length = 0 + before.length := by
    rw [length_utf8Encode, byteLength_of_digits digits, Nat.zero_add]
  have spelt := Utf8.spells_encode c
  cases bytes : String.utf8EncodeChar c with
  | nil =>
    rw [bytes] at spelt
    cases spelt
  | cons b s =>
    rw [bytes] at spelt
    have whole : Utf8.encode (before ++ c :: after) =
        Utf8.encode before ++ b :: (s ++ Utf8.encode after) := by
      simp only [Utf8.encode, List.flatMap_append, List.flatMap_cons, bytes, List.cons_append]
    refine .bad even ?_ (mt (isDigitByte_iff spelt).mp other) ?_
    · rw [whole, ← place, List.getElem?_append_right (Nat.le_refl _), Nat.sub_self]
      rfl
    · intro j less d own
      rw [whole, List.getElem?_append_left (by omega)] at own
      exact isDigitByte_of_mem_encode digits d (List.mem_of_getElem? own)

theorem Spells.not_flaw {bs : List UInt8} {cs : List Char} {fault : Fault}
    (spelt : Spells bs cs) : ¬ Flaw (Utf8.encode cs) fault := by
  intro flaw
  cases flaw with
  | odd odd =>
    rw [length_utf8Encode, spelt.byteLength] at odd
    omega
  | bad _ found own _ =>
    exact own (isDigitByte_of_mem_encode spelt.digits _ (List.mem_of_getElem? found))

theorem flaw_of_decode {cs : List Char} {fault : Fault} (failed : decode cs = .error fault) :
    Flaw (Utf8.encode cs) fault := by
  rw [decode, ← length_utf8Encode] at failed
  split at failed
  · rename_i odd
    cases failed
    exact .odd odd
  · split at failed
    · rename_i found
      cases failed
      exact flaw_of_firstBad (by omega) found
    · contradiction

theorem decode_eq_error {cs : List Char} {fault : Fault} :
    decode cs = .error fault ↔ Flaw (Utf8.encode cs) fault := by
  constructor
  · exact flaw_of_decode
  · intro flaw
    cases read : decode cs with
    | ok bs => exact absurd flaw (decode_eq_ok.mp read).not_flaw
    | error found => rw [(flaw_of_decode read).unique flaw]

end SlashGuard.Text.Hex
