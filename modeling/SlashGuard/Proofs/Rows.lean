import SlashGuard.Ledger.Blocks
import SlashGuard.Ledger.Attestations
import SlashGuard.Ledger.Watermark

/-! Rows and the records they stand for. A record that fits the store has exactly one row, and a
legible row is the row of exactly one record; so a legible history is read without failure. -/
namespace SlashGuard

@[simp] theorem ok_bind {ε α β : Type} (a : α) (f : α → Except ε β) :
    (Except.ok a >>= f) = f a := rfl

@[simp] theorem error_bind {ε α β : Type} (e : ε) (f : α → Except ε β) :
    (Except.error e >>= f) = .error e := rfl

@[simp] theorem pure_ok {α : Type} (a : α) : (pure a : Except Failure α) = .ok a := rfl

theorem bind_eq_ok {ε α β : Type} {x : Except ε α} {f : α → Except ε β} {b : β} :
    (x >>= f) = .ok b ↔ ∃ a, x = .ok a ∧ f a = .ok b := by
  cases x with
  | error e => simp
  | ok a => simp

theorem map_eq_ok {ε α β : Type} {x : Except ε α} {f : α → β} {b : β} :
    x.map f = .ok b ↔ ∃ a, x = .ok a ∧ f a = b := by
  cases x with
  | error e => simp [Except.map]
  | ok a => simp [Except.map]

def InRange (v : Int) : Prop := 0 ≤ v ∧ v < storeLimit

def wordOf (v : Int) : UInt64 := UInt64.ofNat v.toNat

theorem toNat_wordOf {v : Int} (h : InRange v) : ((wordOf v).toNat : Int) = v := by
  obtain ⟨low, high⟩ := h
  simp only [storeLimit] at high
  simp only [wordOf, UInt64.toNat_ofNat']
  omega

theorem storable_eq {q : Quantity} {n : UInt64} (h : n.toNat < storeLimit) :
    storable q n = .ok n.toNat := by
  simp [storable, h]

theorem storable_wordOf {q : Quantity} {v : Int} (h : InRange v) :
    storable q (wordOf v) = .ok v := by
  have back := toNat_wordOf h
  have fits : (wordOf v).toNat < storeLimit := by
    have high := h.2
    omega
  rw [storable_eq fits, back]

theorem readStored_eq {column : Nat} {v : Int} (h : 0 ≤ v) :
    readStored column v = .ok (wordOf v) := by
  have : ¬ v < 0 := by omega
  simp [readStored, this, wordOf]

theorem readOptional_eq {column : Nat} {v : Option Int} (h : ∀ x, v = some x → InRange x) :
    readOptional column v = .ok (v.map wordOf) := by
  cases v with
  | none => rfl
  | some x => simp [readOptional, readStored_eq (h x rfl).1, Except.map]

theorem readRoot_eq {role : Root.Role} {column : Nat} (r : Root) :
    readRoot role column r.bytes = .ok r := by
  rw [readRoot, Root.ofBytes, dif_pos r.size]
  rfl

def Block.Fits (b : Block) : Prop := b.slot.number.toNat < storeLimit

def Attestation.Fits (a : Attestation) : Prop :=
  a.source.number.toNat < storeLimit ∧ a.target.number.toNat < storeLimit

def Block.row (b : Block) : BlockRow := ⟨b.slot.number.toNat, b.root.bytes⟩

def Attestation.row (a : Attestation) : AttestationRow :=
  ⟨a.source.number.toNat, a.target.number.toNat, a.root.bytes⟩

theorem Root.ext_bytes {r s : Root} (h : r.bytes = s.bytes) : r = s := by
  cases r
  cases s
  simpa using h

theorem toNat_cast_inj {m n : UInt64} (h : (m.toNat : Int) = n.toNat) : m = n :=
  UInt64.toNat_inj.mp (Int.ofNat_inj.mp h)

theorem Block.row_injective {a b : Block} (h : a.row = b.row) : a = b := by
  obtain ⟨⟨m⟩, r⟩ := a
  obtain ⟨⟨n⟩, s⟩ := b
  simp only [Block.row, BlockRow.mk.injEq] at h
  rw [toNat_cast_inj h.1, Root.ext_bytes h.2]

theorem Attestation.row_injective {a b : Attestation} (h : a.row = b.row) : a = b := by
  obtain ⟨⟨s⟩, ⟨t⟩, r⟩ := a
  obtain ⟨⟨s'⟩, ⟨t'⟩, r'⟩ := b
  simp only [Attestation.row, AttestationRow.mk.injEq] at h
  rw [toNat_cast_inj h.1, toNat_cast_inj h.2.1, Root.ext_bytes h.2.2]

namespace Ledger

theorem blockRow_eq {b : Block} (h : b.Fits) : blockRow b = .ok b.row := by
  simp only [blockRow, storable_eq (q := .slot) h]
  rfl

theorem attestationRow_eq {a : Attestation} (h : a.Fits) : attestationRow a = .ok a.row := by
  simp only [attestationRow, storable_eq (q := .source) h.1, storable_eq (q := .target) h.2]
  rfl

end Ledger

def BlockRow.Legible (r : BlockRow) : Prop := InRange r.slot ∧ r.root.length = rootSize

def AttestationRow.Legible (r : AttestationRow) : Prop :=
  InRange r.source ∧ InRange r.target ∧ r.root.length = rootSize

theorem inRange_toNat {n : UInt64} (h : n.toNat < storeLimit) : InRange n.toNat :=
  ⟨by omega, by omega⟩

theorem Block.row_legible {b : Block} (h : b.Fits) : b.row.Legible :=
  ⟨inRange_toNat h, b.root.size⟩

theorem Block.rows_legible {bs : List Block} (fits : ∀ b ∈ bs, b.Fits) :
    ∀ r ∈ bs.map Block.row, r.Legible :=
  List.forall_mem_map.mpr fun b hb => b.row_legible (fits b hb)

theorem Attestation.row_legible {a : Attestation} (h : a.Fits) : a.row.Legible :=
  ⟨inRange_toNat h.1, inRange_toNat h.2, a.root.size⟩

theorem Attestation.rows_legible {as : List Attestation} (fits : ∀ a ∈ as, a.Fits) :
    ∀ r ∈ as.map Attestation.row, r.Legible :=
  List.forall_mem_map.mpr fun a ha => a.row_legible (fits a ha)

theorem BlockRow.read_eq {r : BlockRow} (h : r.Legible) : ∃ b, r.read = .ok b ∧ b.row = r := by
  let root : Root := ⟨r.root, h.2⟩
  refine ⟨⟨⟨wordOf r.slot⟩, root⟩, ?_, ?_⟩
  · simp only [BlockRow.read, readStored_eq h.1.1, ok_bind]
    rw [show r.root = root.bytes from rfl, readRoot_eq]
    rfl
  · simp only [Block.row, toNat_wordOf h.1]
    rfl

theorem AttestationRow.read_eq {r : AttestationRow} (h : r.Legible) :
    ∃ a, r.read = .ok a ∧ a.row = r := by
  let root : Root := ⟨r.root, h.2.2⟩
  refine ⟨⟨⟨wordOf r.source⟩, ⟨wordOf r.target⟩, root⟩, ?_, ?_⟩
  · simp only [AttestationRow.read, readStored_eq h.1.1, readStored_eq h.2.1.1, ok_bind]
    rw [show r.root = root.bytes from rfl, readRoot_eq]
    rfl
  · simp only [Attestation.row, toNat_wordOf h.1, toNat_wordOf h.2.1]
    rfl

/-- Every row and every mark of the floor can be read. -/
structure History.Legible (h : History) : Prop where
  blocks : ∀ b ∈ h.blocks, b.Legible
  attestations : ∀ a ∈ h.attestations, a.Legible
  slot : ∀ v, h.floorOrEmpty.slot = some v → InRange v
  source : ∀ v, h.floorOrEmpty.source = some v → InRange v
  target : ∀ v, h.floorOrEmpty.target = some v → InRange v

/-- Every number is one that the store keeps, whatever stands in the roots. -/
structure History.Ranged (h : History) : Prop where
  blocks : ∀ b ∈ h.blocks, InRange b.slot
  attestations : ∀ a ∈ h.attestations, InRange a.source ∧ InRange a.target
  slot : ∀ v, h.floorOrEmpty.slot = some v → InRange v
  source : ∀ v, h.floorOrEmpty.source = some v → InRange v
  target : ∀ v, h.floorOrEmpty.target = some v → InRange v

theorem History.Legible.ranged {h : History} (legible : h.Legible) : h.Ranged where
  blocks := fun b hb => (legible.blocks b hb).1
  attestations := by
    intro a ha
    obtain ⟨source, target, -⟩ := legible.attestations a ha
    exact ⟨source, target⟩
  slot := legible.slot
  source := legible.source
  target := legible.target

def History.readMark (id : Int) (h : History) : Except Failure (Option Watermark) := do
  match h.floor with
  | none => return none
  | some f =>
    return some ⟨id, (← readOptional 0 f.slot).map .mk, (← readOptional 1 f.source).map .mk,
      (← readOptional 2 f.target).map .mk⟩

theorem History.Ranged.readMark_eq {h : History} (ranged : h.Ranged) (id : Int) :
    h.readMark id = .ok (h.floor.map fun f =>
      ⟨id, (f.slot.map wordOf).map .mk, (f.source.map wordOf).map .mk,
        (f.target.map wordOf).map .mk⟩) := by
  obtain ⟨-, -, slot, source, target⟩ := ranged
  unfold readMark
  cases hf : h.floor with
  | none => rfl
  | some f =>
    simp only [History.floorOrEmpty, hf, Option.getD_some] at slot source target
    simp [readOptional_eq slot, readOptional_eq source, readOptional_eq target]

namespace Ledger

theorem watermark_eq {l : Ledger} {id : Int} (ranged : (l.history id).Ranged) :
    l.watermark id = .ok ((l.history id).floor.map fun f =>
      ⟨id, (f.slot.map wordOf).map .mk, (f.source.map wordOf).map .mk,
        (f.target.map wordOf).map .mk⟩) :=
  ranged.readMark_eq id

theorem watermarkOrUnset_eq {l : Ledger} {id : Int} (legible : (l.history id).Legible) :
    l.watermarkOrUnset id = .ok ⟨id,
      ((l.history id).floorOrEmpty.slot.map wordOf).map .mk,
      ((l.history id).floorOrEmpty.source.map wordOf).map .mk,
      ((l.history id).floorOrEmpty.target.map wordOf).map .mk⟩ := by
  simp only [watermarkOrUnset, watermark_eq legible.ranged, ok_bind, pure_ok, Except.ok.injEq]
  cases hf : (l.history id).floor with
  | none => simp [History.floorOrEmpty, hf, Watermark.unset]
  | some f => simp [History.floorOrEmpty, hf]

end Ledger

end SlashGuard
