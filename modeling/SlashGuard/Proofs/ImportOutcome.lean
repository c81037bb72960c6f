import SlashGuard.Proofs.Documents
import SlashGuard.Proofs.Reached

/-! An import succeeds exactly with the network of the store and records that fit it. It fails with
what it meets first, and then nothing has changed. -/
namespace SlashGuard

theorem KeyHistory.good_iff {h : KeyHistory} : h.Good ↔
    (∀ b ∈ h.blocks, b.slot.number.toNat ≤ 0x7fffffffffffffff) ∧
      ∀ a ∈ h.attestations, a.source.number ≤ a.target.number ∧
        a.target.number.toNat ≤ 0x7fffffffffffffff := by
  have fits (n : UInt64) : n.toNat < storeLimit ↔ n.toNat ≤ 0x7fffffffffffffff := Nat.lt_succ_iff
  constructor
  · intro good
    refine ⟨fun b hb => (fits _).mp (good.blocks b hb), fun a ha => ?_⟩
    obtain ⟨⟨-, target⟩, range⟩ := good.votes a ha
    exact ⟨range, (fits _).mp target⟩
  · rintro ⟨blocks, votes⟩
    refine ⟨fun b hb => (fits _).mpr (blocks b hb), fun a ha => ?_⟩
    obtain ⟨range, target⟩ := votes a ha
    have source := Nat.le_trans (UInt64.le_iff_toNat_le.mp range) target
    exact ⟨⟨(fits _).mpr source, (fits _).mpr target⟩, range⟩

namespace Engine

variable {e : Engine}

theorem Kept.call_import_error_iff (kept : e.Kept) {s : Text.Utf8.Source} {d : Document}
    (read : Document.read s = .ok d) (entries : d.histories ≠ []) (f : Failure) :
    (e.call (.importText s)).1 = .error f ↔ (d.faults e.ledger).head? = some f := by
  rw [call_barring (kept.attempt_import read entries), barring_eq_error]

theorem Kept.call_import_ok_iff (kept : e.Kept) {s : Text.Utf8.Source} {d : Document}
    (read : Document.read s = .ok d) (entries : d.histories ≠ []) :
    (∃ summary, (e.call (.importText s)).1 = .ok (.imported summary)) ↔
      d.faults e.ledger = [] := by
  rw [call_barring (kept.attempt_import read entries)]
  simp [barring_eq_ok]

theorem Kept.call_import_nothing (kept : e.Kept) {s : Text.Utf8.Source} {d : Document}
    (read : Document.read s = .ok d) (none : d.histories = []) :
    (e.call (.importText s)).2 = e := by
  rw [call_barring (kept.attempt_import_nothing read none)]
  exact ite_self e

/-- An import succeeds exactly on documents whose network is the stored one, if any, and whose
records are in range. Otherwise it fails with its first fault and changes nothing, and a document
without entries changes nothing either way. -/
theorem import_succeeds_or_unchanged (reached : e.Reached) {s : Text.Utf8.Source} {d : Document}
    (read : Document.read s = .ok d) :
    (d.histories ≠ [] →
      ((∃ summary, (e.call (.importText s)).1 = .ok (.imported summary)) ↔
        (e.ledger.network = none ∨ e.ledger.network = some d.metadata.network.bytes) ∧
          ∀ h ∈ d.histories, (∀ b ∈ h.blocks, b.slot.number.toNat ≤ 0x7fffffffffffffff) ∧
            ∀ a ∈ h.attestations, a.source.number ≤ a.target.number ∧
              a.target.number.toNat ≤ 0x7fffffffffffffff) ∧
      ∀ f, (e.call (.importText s)).1 = .error f ↔ (d.faults e.ledger).head? = some f) ∧
    (∀ f, (e.call (.importText s)).1 = .error f → (e.call (.importText s)).2 = e) ∧
    (d.histories = [] → (e.call (.importText s)).2 = e) := by
  have kept := reached.kept
  refine ⟨fun entries => ⟨?_, kept.call_import_error_iff read entries⟩,
    fun f => call_error_unchanged, kept.call_import_nothing read⟩
  rw [kept.call_import_ok_iff read entries, faults_eq_nil kept.ledger, Ledger.takes_iff_network]
  exact and_congr_right' (forall₂_congr fun _ _ => KeyHistory.good_iff)

def faultyDocument : Document :=
  .current (.filled 0)
    [⟨.single 1, [⟨⟨3⟩, .filled 1⟩], [⟨⟨1⟩, ⟨2⟩, .filled 2⟩, ⟨⟨4⟩, ⟨3⟩, .filled 3⟩]⟩,
      ⟨.single 2, [⟨⟨9223372036854775808⟩, .filled 4⟩], []⟩]

theorem import_succeeds_or_unchanged_faulty :
    fresh.call (.importText (Text.Utf8.ofText faultyDocument.page)) =
      (.error (.badRange 1 (.single 1)), fresh) := by
  have outcome := import_succeeds_or_unchanged .fresh
    (Document.read_page (show faultyDocument.metadata.version = currentFormat from rfl))
  have failed := ((outcome.1 nofun).2 (.badRange 1 (.single 1))).mpr (by decide +kernel)
  exact Prod.ext failed (outcome.2.1 _ failed)

end Engine

end SlashGuard
