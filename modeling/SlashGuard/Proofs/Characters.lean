import SlashGuard.Text.Utf8

/-! Characters and the bytes that spell them: each character has one spelling, and a text is read
from bytes exactly if they are the spellings of its characters. -/
namespace SlashGuard.Text.Utf8

abbrev Continues (b : UInt8) : Prop := 0x80 ≤ b.toNat ∧ b.toNat ≤ 0xbf

/-- The bytes of a character, as few as hold its number. -/
inductive Spells (c : Char) : List UInt8 → Prop
  | one (a : UInt8) (low : a.toNat < 0x80) (value : c.toNat = a.toNat) : Spells c [a]
  | two (a b : UInt8) (head : 0xc0 ≤ a.toNat ∧ a.toNat ≤ 0xdf) (tail : Continues b)
      (value : c.toNat = (a.toNat - 0xc0) * 64 + (b.toNat - 0x80)) (least : 0x80 ≤ c.toNat) :
      Spells c [a, b]
  | three (a b d : UInt8) (head : 0xe0 ≤ a.toNat ∧ a.toNat ≤ 0xef) (second : Continues b)
      (tail : Continues d)
      (value : c.toNat = ((a.toNat - 0xe0) * 64 + (b.toNat - 0x80)) * 64 + (d.toNat - 0x80))
      (least : 0x800 ≤ c.toNat) : Spells c [a, b, d]
  | four (a b d e : UInt8) (head : 0xf0 ≤ a.toNat ∧ a.toNat ≤ 0xf7) (second : Continues b)
      (third : Continues d) (tail : Continues e)
      (value : c.toNat = (((a.toNat - 0xf0) * 64 + (b.toNat - 0x80)) * 64 + (d.toNat - 0x80)) * 64 +
        (e.toNat - 0x80)) (least : 0x10000 ≤ c.toNat) : Spells c [a, b, d, e]

theorem toNat_ofNat_of_lt {n : Nat} (small : n < 256) : (UInt8.ofNat n).toNat = n := by
  rw [UInt8.toNat_ofNat', Nat.mod_eq_of_lt small]

theorem toNat_tail (n : Nat) : (UInt8.ofNat (n % 64 + 128)).toNat = n % 64 + 128 :=
  toNat_ofNat_of_lt (by omega)

theorem continues_tail (n : Nat) : Continues (UInt8.ofNat (n % 64 + 128)) := by
  rw [Continues, toNat_tail]
  omega

theorem spells_encode (c : Char) : Spells c (String.utf8EncodeChar c) := by
  have valid : c.toNat < 0x110000 := by
    have := c.valid
    simp only [UInt32.isValidChar, Nat.isValidChar, Char.toNat] at this ⊢
    omega
  have own : c.val.toNat = c.toNat := rfl
  simp only [String.utf8EncodeChar, own]
  split
  case isTrue one =>
    have a : (UInt8.ofNat c.toNat).toNat = c.toNat := toNat_ofNat_of_lt (by omega)
    exact .one _ (by omega) a.symm
  split
  case isTrue two =>
    have a : (UInt8.ofNat (c.toNat / 64 % 32 + 192)).toNat = c.toNat / 64 % 32 + 192 :=
      toNat_ofNat_of_lt (by omega)
    refine .two _ _ (by omega) (continues_tail _) ?_ (by omega)
    rw [a, toNat_tail]
    omega
  split
  case isTrue three =>
    have a : (UInt8.ofNat (c.toNat / 4096 % 16 + 224)).toNat = c.toNat / 4096 % 16 + 224 :=
      toNat_ofNat_of_lt (by omega)
    refine .three _ _ _ (by omega) (continues_tail _) (continues_tail _) ?_ (by omega)
    rw [a, toNat_tail, toNat_tail]
    omega
  case isFalse four =>
    have a : (UInt8.ofNat (c.toNat / 262144 % 8 + 240)).toNat = c.toNat / 262144 % 8 + 240 :=
      toNat_ofNat_of_lt (by omega)
    refine .four _ _ _ _ (by omega) (continues_tail _) (continues_tail _) (continues_tail _) ?_
      (by omega)
    rw [a, toNat_tail, toNat_tail, toNat_tail]
    omega

theorem Spells.unique {c : Char} {s t : List UInt8} (left : Spells c s) (right : Spells c t) :
    s = t := by
  have same {a b : UInt8} (h : a.toNat = b.toNat) : a = b := UInt8.toNat_inj.mp h
  cases left <;> cases right
  case one.one a _ _ b _ _ => rw [same (show a.toNat = b.toNat by omega)]
  case two.two a b _ _ _ _ a' b' _ _ _ _ =>
    rw [same (show a.toNat = a'.toNat by omega), same (show b.toNat = b'.toNat by omega)]
  case three.three a b d _ _ _ _ _ a' b' d' _ _ _ _ _ =>
    rw [same (show a.toNat = a'.toNat by omega), same (show b.toNat = b'.toNat by omega),
      same (show d.toNat = d'.toNat by omega)]
  case four.four a b d e _ _ _ _ _ _ a' b' d' e' _ _ _ _ _ _ =>
    rw [same (show a.toNat = a'.toNat by omega), same (show b.toNat = b'.toNat by omega),
      same (show d.toNat = d'.toNat by omega), same (show e.toNat = e'.toNat by omega)]
  all_goals omega

theorem isTail_iff {b : UInt8} : isTail b = true ↔ Continues b := by
  simp [isTail, Continues, UInt8.le_iff_toNat_le]

theorem point_eq_some {n : Nat} {c : Char} : point n = some c ↔ c.toNat = n := by
  by_cases valid : n.isValidChar
  · rw [point, dif_pos valid]
    constructor
    · intro h
      cases h
      rfl
    · rintro rfl
      rfl
  · rw [point, dif_neg valid]
    constructor
    · intro h
      cases h
    · rintro rfl
      exact False.elim (valid c.valid)

theorem head?_of_spells {c : Char} {s : List UInt8} (spelt : Spells c s) (rest : List UInt8) :
    head? (s ++ rest) = some (c, s.length) := by
  have valid : c.toNat < 0xd800 ∨ 0xdfff < c.toNat ∧ c.toNat < 0x110000 := c.valid
  have found {n : Nat} (value : c.toNat = n) : point n = some c := point_eq_some.mpr value
  cases spelt with
  | one a low value =>
    simp only [List.cons_append, List.nil_append, head?, UInt8.lt_iff_toNat_lt, UInt8.reduceToNat,
      if_pos low, found value]
    rfl
  | two a b head tail value least =>
    simp only [List.cons_append, List.nil_append, head?, UInt8.lt_iff_toNat_lt,
      UInt8.le_iff_toNat_le, UInt8.reduceToNat, isTail_iff.mpr tail]
    rw [if_neg (by omega), if_pos (by simp; omega), found value]
    rfl
  | three a b d head second tail value least =>
    simp only [List.cons_append, List.nil_append, head?, UInt8.lt_iff_toNat_lt,
      UInt8.le_iff_toNat_le, UInt8.reduceToNat, isTail_iff.mpr tail, ← UInt8.toNat_inj,
      apply_ite UInt8.toNat]
    rw [if_neg (by omega), if_neg (by simp; omega), if_pos, found value]
    · rfl
    · simp only [Bool.and_true, Bool.and_eq_true, decide_eq_true_eq]
      refine ⟨⟨head, ?_⟩, ?_⟩ <;> split <;> omega
  | four a b d e head second third tail value least =>
    simp only [List.cons_append, List.nil_append, head?, UInt8.lt_iff_toNat_lt,
      UInt8.le_iff_toNat_le, UInt8.reduceToNat, isTail_iff.mpr third, isTail_iff.mpr tail,
      ← UInt8.toNat_inj, apply_ite UInt8.toNat]
    rw [if_neg (by omega), if_neg (by simp; omega), if_neg (by simp; omega), if_pos, found value]
    · rfl
    · simp only [Bool.and_true, Bool.and_eq_true, decide_eq_true_eq]
      refine ⟨⟨by omega, ?_⟩, ?_⟩ <;> split <;> omega

theorem exists_spells_of_head? {bs : List UInt8} {c : Char} {n : Nat}
    (h : head? bs = some (c, n)) : ∃ s rest, bs = s ++ rest ∧ s.length = n ∧ Spells c s := by
  unfold head? at h
  simp only [UInt8.lt_iff_toNat_lt, UInt8.le_iff_toNat_le, UInt8.reduceToNat, ← UInt8.toNat_inj,
    apply_ite UInt8.toNat] at h
  split at h
  case h_1 => contradiction
  case h_2 a rest =>
  split at h
  case isTrue low =>
    obtain ⟨_, found, same⟩ := Option.map_eq_some_iff.mp h
    cases same
    exact ⟨[a], rest, rfl, rfl, .one a low (point_eq_some.mp found)⟩
  cases rest with
  | nil => contradiction
  | cons b rest =>
  dsimp only at h
  split at h
  case isTrue two =>
    obtain ⟨_, found, same⟩ := Option.map_eq_some_iff.mp h
    cases same
    simp only [Bool.and_eq_true, decide_eq_true_eq, isTail_iff] at two
    have value := point_eq_some.mp found
    exact ⟨[a, b], rest, rfl, rfl, .two a b (by omega) two.2 value (by omega)⟩
  cases rest with
  | nil => contradiction
  | cons d rest =>
  dsimp only at h
  generalize least : (if a.toNat = 0xe0 then 0xa0 else 0x80) = low at h
  generalize most : (if a.toNat = 0xed then 0x9f else 0xbf) = high at h
  split at h
  case isTrue three =>
    obtain ⟨_, found, same⟩ := Option.map_eq_some_iff.mp h
    cases same
    simp only [Bool.and_eq_true, decide_eq_true_eq, isTail_iff] at three
    have value := point_eq_some.mp found
    have second : Continues b := by
      constructor <;> split at least <;> split at most <;> omega
    refine ⟨[a, b, d], rest, rfl, rfl, .three a b d three.1.1.1 second three.2 value ?_⟩
    split at least <;> omega
  cases rest with
  | nil => contradiction
  | cons e rest =>
  dsimp only at h
  generalize least : (if a.toNat = 0xf0 then 0x90 else 0x80) = low at h
  generalize most : (if a.toNat = 0xf4 then 0x8f else 0xbf) = high at h
  split at h
  case isFalse => contradiction
  case isTrue four =>
    obtain ⟨_, found, same⟩ := Option.map_eq_some_iff.mp h
    cases same
    simp only [Bool.and_eq_true, decide_eq_true_eq, isTail_iff] at four
    have value := point_eq_some.mp found
    have second : Continues b := by
      constructor <;> split at least <;> split at most <;> omega
    refine ⟨[a, b, d, e], rest, rfl, rfl,
      .four a b d e (by omega) second four.1.2 four.2 value ?_⟩
    split at least <;> omega

theorem decodeFrom_append (s bs : List UInt8) : decodeFrom s.length (s ++ bs) = decode bs := by
  induction s with
  | nil => rfl
  | cons b s ih =>
    simp only [List.length_cons, List.cons_append, decodeFrom]
    exact ih

theorem decode_of_spells {c : Char} {s : List UInt8} (spelt : Spells c s) (bs : List UInt8) :
    decode (s ++ bs) = some c :: decode bs := by
  have first := head?_of_spells spelt bs
  cases s with
  | nil => contradiction
  | cons b s =>
    simp only [List.cons_append] at first
    simp only [decode, List.cons_append, decodeFrom, first, List.length_cons, Nat.add_sub_cancel]
    rw [decodeFrom_append, decode]

theorem decode_encode_append (cs : List Char) (bs : List UInt8) :
    decode (encode cs ++ bs) = cs.map some ++ decode bs := by
  induction cs with
  | nil => rfl
  | cons c cs ih =>
    have first := decode_of_spells (spells_encode c) (encode cs ++ bs)
    rw [ih, ← List.append_assoc] at first
    exact first

/-- No byte is left over only where the bytes are the spellings of the characters. -/
theorem eq_encode_of_decode {bs : List UInt8} {cs : List Char} (h : decode bs = cs.map some) :
    bs = encode cs := by
  induction cs generalizing bs with
  | nil =>
    cases bs with
    | nil => rfl
    | cons b bs =>
      simp only [decode, decodeFrom] at h
      split at h <;> contradiction
  | cons c cs ih =>
    cases first : head? bs with
    | none =>
      cases bs with
      | nil => contradiction
      | cons b bs => simp [decode, decodeFrom, first] at h
    | some found =>
      obtain ⟨s, rest, rfl, -, spelt⟩ := exists_spells_of_head? first
      rw [decode_of_spells spelt, List.map_cons] at h
      obtain ⟨same, others⟩ := List.cons.inj h
      cases same
      rw [ih others, spelt.unique (spells_encode _)]
      rfl

theorem mapM_id_eq_some {α : Type} {xs : List (Option α)} {ys : List α} :
    xs.mapM id = some ys ↔ xs = ys.map some := by
  constructor
  · intro h
    induction xs generalizing ys with
    | nil =>
      cases h
      rfl
    | cons x xs ih =>
      simp only [List.mapM_cons, id, bind, Option.bind_eq_some_iff, pure, Option.some.injEq] at h
      obtain ⟨y, rfl, ys, rest, rfl⟩ := h
      rw [ih rest, List.map_cons]
  · rintro rfl
    induction ys with
    | nil => rfl
    | cons y ys ih => simp [List.mapM_cons, ih]

theorem text?_eq_some_iff {bs : List UInt8} {cs : List Char} :
    text? bs = some cs ↔ bs = encode cs := by
  rw [text?, mapM_id_eq_some]
  constructor
  · exact eq_encode_of_decode
  · rintro rfl
    have read := decode_encode_append cs []
    rwa [List.append_nil, show decode [] = [] from rfl, List.append_nil] at read

theorem text?_encode (cs : List Char) : text? (encode cs) = some cs :=
  text?_eq_some_iff.mpr rfl

theorem encode_append (cs ds : List Char) : encode (cs ++ ds) = encode cs ++ encode ds :=
  List.flatMap_append

/-- A line end is spelt by itself and in no other spelling. -/
theorem Spells.mem_newline_iff {c : Char} {s : List UInt8} (spelt : Spells c s) :
    10 ∈ s ↔ c = '\n' := by
  have own : c = '\n' ↔ c.toNat = 10 := (Char.toNat_inj (d := '\n')).symm
  have byte (b : UInt8) : 10 = b ↔ b.toNat = 10 := by
    rw [eq_comm, ← UInt8.toNat_inj]
    rfl
  rw [own]
  cases spelt <;> simp only [List.mem_cons, List.not_mem_nil, or_false, byte] <;> omega

theorem mem_encode_newline_iff {cs : List Char} : 10 ∈ encode cs ↔ '\n' ∈ cs := by
  simp [encode, List.mem_flatMap, (spells_encode _).mem_newline_iff]

end SlashGuard.Text.Utf8
