import SlashGuard.Proofs.Exports
import SlashGuard.Proofs.Runs

/-! What holds of the store after every run: rows are distinct and in range, a mark of the floor is
set exactly while records of its kind are stored and stands at one of them, and a ledger that stores
anything can be exported. -/
namespace SlashGuard

structure History.Sound (h : History) : Prop where
  blocksDistinct : h.blocks.Nodup
  votesDistinct : h.attestations.Nodup
  slots : ∀ b ∈ h.blocks, InRange b.slot
  epochs : ∀ a ∈ h.attestations, InRange a.source ∧ InRange a.target ∧ a.source ≤ a.target
  slotSet : h.floorOrEmpty.slot.isSome = true ↔ h.blocks ≠ []
  slotStands : ∀ v, h.floorOrEmpty.slot = some v → ∃ b ∈ h.blocks, b.slot = v
  sourceSet : h.floorOrEmpty.source.isSome = true ↔ h.attestations ≠ []
  targetSet : h.floorOrEmpty.target.isSome = true ↔ h.attestations ≠ []
  epochsStand : ∀ s t, h.floorOrEmpty.source = some s → h.floorOrEmpty.target = some t →
    ∃ a ∈ h.attestations, a.target = t ∧ a.source ≤ s
  under : ∀ s t, h.floorOrEmpty.source = some s → h.floorOrEmpty.target = some t →
    ∀ a ∈ h.attestations, a.target < t → a.source ≤ s

theorem History.Kept.sound {h : History} (kept : h.Kept) : h.Sound where
  blocksDistinct := kept.blocks.distinct
  votesDistinct := kept.votes.distinct
  slots := fun b hb => (kept.blocks.legible b hb).1
  epochs := fun a ha =>
    ⟨(kept.votes.legible a ha).1, (kept.votes.legible a ha).2.1, kept.votes.ordered a ha⟩
  slotSet := by
    constructor
    · intro set
      obtain ⟨low, hlow⟩ := Option.isSome_iff_exists.mp set
      obtain ⟨b, hb, -⟩ := kept.blocks.marked low hlow
      exact List.ne_nil_of_mem hb
    · intro stored
      cases mark : h.floorOrEmpty.slot with
      | none => exact False.elim (stored (kept.blocks.unmarked mark))
      | some low => rfl
  slotStands := kept.blocks.marked
  sourceSet := by
    rcases kept.votes.marks with ⟨source, -, none⟩ | ⟨s, t, source, -, held⟩
    · simp [source, none]
    · obtain ⟨a, ha, -⟩ := held.reached
      simp [source, List.ne_nil_of_mem ha]
  targetSet := by
    rcases kept.votes.marks with ⟨-, target, none⟩ | ⟨s, t, -, target, held⟩
    · simp [target, none]
    · obtain ⟨a, ha, -⟩ := held.reached
      simp [target, List.ne_nil_of_mem ha]
  epochsStand := by
    intro s t source target
    exact (kept.votes.held source target).reached
  under := by
    intro s t source target
    exact (kept.votes.held source target).under

namespace Engine

structure Sound (e : Engine) : Prop where
  ids : e.ledger.ids.Nodup
  registered : ∀ id, e.ledger.history id ≠ .empty → e.ledger.isRegistered id = true
  histories : ∀ id, (e.ledger.history id).Sound
  network : ∀ id, e.ledger.history id ≠ .empty → ∃ r : Root, e.ledger.network = some r.bytes
  exports : ∀ id, e.ledger.history id ≠ .empty →
    ∃ text, e.call .exportText = (.ok (.text text), e)

theorem Kept.sound {e : Engine} (kept : e.Kept) : e.Sound where
  ids := kept.ledger.distinct
  registered := fun _ => Ledger.registered_of_history
  histories := fun id => (kept.ledger.histories id).sound
  network := fun id stored => kept.ledger.network_root (kept.ledger.known id stored)
  exports := by
    intro id stored
    obtain ⟨r, hs, -, -, exported⟩ := kept.ledger.export_ok (kept.ledger.known id stored)
    exact ⟨_, kept.call_exportText exported⟩

/-- Whatever is called in whatever order, the store stays sound. -/
theorem run_sound (cs : List Call) : (fresh.run cs).Sound := (Kept.fresh.run cs).sound

end Engine

end SlashGuard
