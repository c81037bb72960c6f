import SlashGuard.Proofs.HexText

/-! Keys and roots as hexadecimal text: a text stands for the value whose bytes its digits spell,
whatever their case and with the prefix or without, and is refused if there is none. -/
namespace SlashGuard

namespace Text.Hex

def remainder (s : String) : List Char :=
  if ['0', 'x'] <+: s.toList then s.toList.drop 2 else s.toList

theorem strip_toList (s : String) : strip s.toList = remainder s := by
  unfold strip remainder
  split
  · rename_i cs found
    rw [found, if_pos ⟨cs, rfl⟩]
    rfl
  · rename_i bare
    rw [if_neg]
    rintro ⟨cs, found⟩
    exact bare cs found.symm

theorem remainder_write (bs : List UInt8) : remainder (String.ofList (write bs)) = encode bs := by
  rw [← strip_toList, String.toList_ofList]
  rfl

def HasBytes (n : Nat) (cs : List Char) : Prop :=
  ∃ ds, (cs = ds ∨ cs = '0' :: 'x' :: ds) ∧ (∀ c ∈ ds, IsHexDigit c) ∧ ds.length = 2 * n

theorem hasBytes_prefixed {n : Nat} {ds : List Char} :
    HasBytes n ('0' :: 'x' :: ds) ↔ (∀ c ∈ ds, IsHexDigit c) ∧ ds.length = 2 * n := by
  constructor
  · rintro ⟨es, rfl | same, digits, size⟩
    · exact absurd (digits 'x' (by simp)) (by decide)
    · cases same
      exact ⟨digits, size⟩
  · exact fun h => ⟨ds, .inr rfl, h⟩

theorem hasBytes_iff {n : Nat} {s : String} : HasBytes n s.toList ↔
    (∀ c ∈ remainder s, IsHexDigit c) ∧ (remainder s).length = 2 * n := by
  rw [← strip_toList]
  unfold strip
  split
  · rename_i ds found
    rw [found, hasBytes_prefixed]
  · rename_i bare
    constructor
    · rintro ⟨ds, same | same, h⟩
      · rwa [same]
      · exact absurd same (bare ds)
    · exact fun h => ⟨s.toList, .inl rfl, h⟩

/-- Why a text stands for no value: it has a flaw, or its digits are not as many as fit. -/
inductive Refused (fits : Nat → Prop) (misfit : Nat → InputFault) (cs : List Char) :
    InputFault → Prop
  | flawed {why : Fault} (flaw : Flaw (Utf8.encode cs) why) : Refused fits misfit cs (.hex why)
  | misfit {n : Nat} (digits : ∀ c ∈ cs, IsHexDigit c) (size : cs.length = 2 * n)
      (other : ¬ fits n) : Refused fits misfit cs (misfit n)

/-- Values that are `bytes`, of which `fits` says how many there may be, read from hexadecimal text
and written as such. -/
structure Faithful {α : Type} (bytes : α → List UInt8) (fits : Nat → Prop)
    (misfit : Nat → InputFault) (read : String → Except InputFault α) (write : α → String) :
    Prop where
  accepts (s : String) : (∃ v, read s = .ok v) ↔
    ∃ n, fits n ∧ (∀ c ∈ remainder s, IsHexDigit c) ∧ (remainder s).length = 2 * n
  spells {s : String} {v : α} : read s = .ok v ↔ Spells (bytes v) (remainder s)
  lower {s : String} {v : α} (found : read s = .ok v) :
    write v = "0x" ++ String.ofList ((remainder s).map Char.toLower)
  same {s t : String} {v w : α} (left : read s = .ok v) (right : read t = .ok w) :
    v = w ↔ (remainder s).map Char.toLower = (remainder t).map Char.toLower
  returns (v : α) : read (write v) = .ok v
  refuses (s : String) (fault : InputFault) :
    read s = .error fault ↔ Refused fits misfit (remainder s) fault

section Building

variable {α : Type} {bytes : α → List UInt8} {fits : Nat → Prop} {misfit : Nat → InputFault}
  {build : List UInt8 → Except InputFault α} {read : String → Except InputFault α}

structure Builds (bytes : α → List UInt8) (fits : Nat → Prop) (misfit : Nat → InputFault)
    (build : List UInt8 → Except InputFault α) : Prop where
  ok {bs : List UInt8} {v : α} : build bs = .ok v ↔ bytes v = bs
  error {bs : List UInt8} {fault : InputFault} :
    build bs = .error fault ↔ ¬ fits bs.length ∧ misfit bs.length = fault

theorem Builds.exists_iff_fits (builds : Builds bytes fits misfit build) {bs : List UInt8} :
    (∃ v, bytes v = bs) ↔ fits bs.length := by
  simp only [← builds.ok]
  by_cases fit : fits bs.length
  · cases built : build bs with
    | ok v => exact iff_of_true ⟨v, rfl⟩ fit
    | error fault => exact absurd fit (builds.error.mp built).1
  · rw [builds.error.mpr ⟨fit, rfl⟩]
    simp [fit]

theorem Builds.bytes_inj (builds : Builds bytes fits misfit build) {v w : α} :
    bytes v = bytes w ↔ v = w := by
  constructor
  · intro same
    have left := builds.ok.mpr same
    rw [builds.ok.mpr (rfl : bytes w = bytes w)] at left
    cases left
    rfl
  · exact congrArg bytes

def ReadsBy (build : List UInt8 → Except InputFault α) (read : String → Except InputFault α) :
    Prop :=
  ∀ s, read s = match decode (remainder s) with
    | .error fault => .error (.hex fault)
    | .ok bs => build bs

theorem ReadsBy.eq_ok (reads : ReadsBy build read) (builds : Builds bytes fits misfit build)
    {s : String} {v : α} : read s = .ok v ↔ Spells (bytes v) (remainder s) := by
  rw [reads s, ← decode_eq_ok]
  cases decode (remainder s) with
  | error fault => simp
  | ok bs => simp only [builds.ok, Except.ok.injEq, eq_comm]

theorem ReadsBy.eq_error (reads : ReadsBy build read) (builds : Builds bytes fits misfit build)
    {s : String} {fault : InputFault} :
    read s = .error fault ↔ Refused fits misfit (remainder s) fault := by
  rw [reads s]
  cases decoded : decode (remainder s) with
  | error why =>
    have flaw := decode_eq_error.mp decoded
    constructor
    · intro failed
      cases failed
      exact .flawed flaw
    · intro refused
      cases refused with
      | flawed other => rw [flaw.unique other]
      | misfit digits size =>
        obtain ⟨bs, spelt, -⟩ := exists_spells.mpr ⟨digits, size⟩
        exact absurd flaw spelt.not_flaw
  | ok bs =>
    have spelt := decode_eq_ok.mp decoded
    constructor
    · intro failed
      obtain ⟨other, rfl⟩ := builds.error.mp failed
      exact .misfit spelt.digits spelt.length_eq other
    · intro refused
      cases refused with
      | flawed flaw => exact absurd flaw spelt.not_flaw
      | @misfit n _ size other =>
        have count : n = bs.length := by
          have := spelt.length_eq
          omega
        rw [count] at other ⊢
        exact builds.error.mpr ⟨other, rfl⟩

theorem Builds.faithful (builds : Builds bytes fits misfit build) (reads : ReadsBy build read) :
    Faithful bytes fits misfit read fun v => String.ofList (write (bytes v)) where
  accepts s := by
    simp only [reads.eq_ok builds, ← exists_spells]
    constructor
    · rintro ⟨v, spelt⟩
      exact ⟨_, builds.exists_iff_fits.mp ⟨v, rfl⟩, _, spelt, rfl⟩
    · rintro ⟨_, fit, bs, spelt, rfl⟩
      obtain ⟨v, rfl⟩ := builds.exists_iff_fits.mpr fit
      exact ⟨v, spelt⟩
  spells := reads.eq_ok builds
  lower found := by
    rw [((reads.eq_ok builds).mp found).map_toLower, ← String.toList_inj]
    simp [Hex.write]
  same left right := by
    have spelt := (reads.eq_ok builds).mp left
    rw [← spelt.eq_iff ((reads.eq_ok builds).mp right), builds.bytes_inj]
  returns v := by
    rw [reads.eq_ok builds, remainder_write]
    exact spells_encode _
  refuses _ _ := reads.eq_error builds

end Building

end Text.Hex

open Text.Hex (Builds ReadsBy Faithful HasBytes strip_toList hasBytes_iff)

theorem PublicKey.ofBytes_builds :
    Builds PublicKey.bytes (0 < ·) (fun _ => .emptyKey) PublicKey.ofBytes where
  ok {bs key} := by
    unfold PublicKey.ofBytes
    split
    · rename_i empty
      simp only [reduceCtorEq, false_iff]
      rintro rfl
      exact key.nonempty empty
    · rw [Except.ok.injEq, eq_comm, PublicKey.mk.injEq]
  error {bs fault} := by
    unfold PublicKey.ofBytes
    split
    · rename_i empty
      simp [empty]
    · rename_i some
      simp [List.length_pos_iff.mpr some]

theorem PublicKey.ofHex_readsBy : ReadsBy PublicKey.ofBytes PublicKey.ofHex := by
  intro s
  rw [← strip_toList]
  rfl

theorem PublicKey.ofHex_faithful :
    Faithful PublicKey.bytes (0 < ·) (fun _ => .emptyKey) PublicKey.ofHex PublicKey.toHex :=
  ofBytes_builds.faithful ofHex_readsBy

theorem PublicKey.ofHex_isOk {s : String} :
    (∃ key, PublicKey.ofHex s = .ok key) ↔ ∃ n, 1 ≤ n ∧ HasBytes n s.toList := by
  simp only [hasBytes_iff]
  exact ofHex_faithful.accepts s

theorem Root.ofBytes_builds (role : Root.Role) :
    Builds Root.bytes (· = rootSize) (.rootLength role.label) (Root.ofBytes role) where
  ok {bs root} := by
    unfold Root.ofBytes
    split
    · rw [Except.ok.injEq, Root.mk.injEq, eq_comm]
    · rename_i other
      simp only [reduceCtorEq, false_iff]
      rintro rfl
      exact other root.size
  error {bs fault} := by
    unfold Root.ofBytes
    split
    · rename_i size
      simp [size]
    · rename_i other
      simp [other]

theorem Root.ofHex_readsBy (role : Root.Role) : ReadsBy (Root.ofBytes role) (Root.ofHex role) := by
  intro s
  rw [← strip_toList]
  rfl

theorem Root.ofHex_faithful (role : Root.Role) :
    Faithful Root.bytes (· = rootSize) (.rootLength role.label) (Root.ofHex role) Root.toHex :=
  (ofBytes_builds role).faithful (ofHex_readsBy role)

theorem Root.ofHex_isOk {role : Root.Role} {s : String} :
    (∃ root, Root.ofHex role s = .ok root) ↔ HasBytes rootSize s.toList := by
  rw [hasBytes_iff, (ofHex_faithful role).accepts]
  simp only [exists_eq_left]

/-- A key is read from one byte or more and a root from 32, whatever it stands for; both are written
in lower case after the prefix, and read back as they were. -/
theorem identifiers_faithful :
    Faithful PublicKey.bytes (0 < ·) (fun _ => .emptyKey) PublicKey.ofHex PublicKey.toHex ∧
    ∀ role, Faithful Root.bytes (· = 32) (.rootLength role.label) (Root.ofHex role) Root.toHex :=
  ⟨PublicKey.ofHex_faithful, Root.ofHex_faithful⟩

theorem identifiers_faithful_spellings :
    ∃ k l, PublicKey.ofHex "0x0aF0" = .ok k ∧ PublicKey.ofHex "0Af0" = .ok l ∧ k = l ∧
      k.toHex = "0x0af0" ∧
      PublicKey.ofHex "0x0x0a" = .error (.hex (.badDigit 0x78 1)) := by
  obtain ⟨keys, -⟩ := identifiers_faithful
  have left : PublicKey.ofHex "0x0aF0" = .ok ⟨[0x0a, 0xf0], List.cons_ne_nil _ _⟩ := rfl
  have right : PublicKey.ofHex "0Af0" = .ok ⟨[0x0a, 0xf0], List.cons_ne_nil _ _⟩ := rfl
  refine ⟨_, _, left, right, (keys.same left right).mpr (by decide), ?_, ?_⟩
  · rw [keys.lower left]
    rfl
  · refine (keys.refuses _ _).mpr (.flawed (.bad (by decide) (by decide) ?_ ?_))
    · rintro ⟨c, digit, same⟩
      cases Char.toNat_inj.mp (same.trans (show (0x78 : UInt8).toNat = 'x'.toNat from rfl))
      exact absurd digit (by decide)
    · intro j first b found
      obtain rfl : j = 0 := by omega
      cases found
      exact ⟨'0', by decide, rfl⟩

end SlashGuard
