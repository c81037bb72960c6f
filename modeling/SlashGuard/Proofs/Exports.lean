import Mathlib.Data.List.Forall2
import SlashGuard.Interchange.Export
import SlashGuard.Proofs.Documents
import SlashGuard.Proofs.Faults
import SlashGuard.Proofs.Moves

/-! An export tells of every account what is stored of it: its key and its rows, in the order of
the accounts and of the rows, each once. What is told so determines the document. -/
namespace SlashGuard

/-- An entry tells what is stored of an account. -/
structure Account.Told (a : Account) (h : KeyHistory) : Prop where
  key : h.key.bytes = a.key
  blocks : h.blocks.map Block.row = a.history.blocks
  votes : h.attestations.map Attestation.row = a.history.attestations

theorem PublicKey.ofBytes_bytes (k : PublicKey) : PublicKey.ofBytes k.bytes = .ok k := by
  simp only [ofBytes, dif_neg k.nonempty]

theorem Block.read_row {b : Block} (fits : b.Fits) : b.row.read = .ok b := by
  obtain ⟨c, read, row⟩ := BlockRow.read_eq (b.row_legible fits)
  rw [read, Block.row_injective row]

theorem Attestation.read_row {a : Attestation} (fits : a.Fits) : a.row.read = .ok a := by
  obtain ⟨c, read, row⟩ := AttestationRow.read_eq (a.row_legible fits)
  rw [read, Attestation.row_injective row]

theorem exists_map_eq {α β : Type} {f : α → β} {ys : List β} (each : ∀ y ∈ ys, ∃ x, f x = y) :
    ∃ xs : List α, xs.map f = ys := by
  induction ys with
  | nil => exact ⟨[], rfl⟩
  | cons y ys ih =>
    obtain ⟨⟨x, rfl⟩, rest⟩ := List.forall_mem_cons.mp each
    obtain ⟨xs, rfl⟩ := ih rest
    exact ⟨x :: xs, rfl⟩

theorem exists_forall₂ {α β : Type} {R : α → β → Prop} {xs : List α}
    (each : ∀ x ∈ xs, ∃ y, R x y) : ∃ ys, List.Forall₂ R xs ys := by
  induction xs with
  | nil => exact ⟨[], .nil⟩
  | cons x xs ih =>
    obtain ⟨⟨y, first⟩, rest⟩ := List.forall_mem_cons.mp each
    obtain ⟨ys, rest⟩ := ih rest
    exact ⟨y :: ys, .cons first rest⟩

namespace Ledger

variable {l : Ledger}

theorem Kept.account (kept : l.Kept) {a : Account} (member : a ∈ l.accounts) : a.history.Kept := by
  rw [← history_of_mem kept.distinct member]
  exact kept.histories a.id

theorem Kept.exists_told (kept : l.Kept) {a : Account} (member : a ∈ l.accounts) :
    ∃ h, a.Told h := by
  have legible := (kept.account member).legible
  obtain ⟨bs, blocks⟩ := exists_map_eq fun r hr => by
    obtain ⟨b, -, row⟩ := BlockRow.read_eq (legible.blocks r hr)
    exact ⟨b, row⟩
  obtain ⟨vs, votes⟩ := exists_map_eq fun r hr => by
    obtain ⟨a, -, row⟩ := AttestationRow.read_eq (legible.attestations r hr)
    exact ⟨a, row⟩
  exact ⟨⟨⟨a.key, kept.keys a member⟩, bs, vs⟩, rfl, blocks, votes⟩

theorem Kept.good_of_told (kept : l.Kept) {a : Account} (member : a ∈ l.accounts)
    {h : KeyHistory} (told : a.Told h) : h.Good := by
  have own := kept.account member
  constructor
  · intro b hb
    have stored : b.row ∈ a.history.blocks := told.blocks ▸ List.mem_map_of_mem hb
    exact (@History.Kept.fits_of_stores _ own (.block b) stored).1
  · intro v hv
    have stored : v.row ∈ a.history.attestations := told.votes ▸ List.mem_map_of_mem hv
    obtain ⟨fits, range⟩ := @History.Kept.fits_of_stores _ own (.attestation v) stored
    exact ⟨fits, UInt64.not_lt.mp range⟩

theorem Kept.history_told (kept : l.Kept) {a : Account} (member : a ∈ l.accounts)
    {h : KeyHistory} (told : a.Told h) : Export.history l a.id h.key = .ok h := by
  have good := kept.good_of_told member told
  have blocks : l.blocks a.id = .ok h.blocks := by
    rw [Ledger.blocks, history_of_mem kept.distinct member, ← told.blocks]
    exact mapM_map fun b hb => b.read_row (good.blocks b hb)
  have votes : l.attestations a.id = .ok h.attestations := by
    rw [Ledger.attestations, history_of_mem kept.distinct member, ← told.votes]
    exact mapM_map fun v hv => v.read_row (good.votes v hv).1
  simp only [Export.history, blocks, votes, ok_bind, pure_ok]

def toldKeys (as : List Account) (hs : List KeyHistory) : List (Int × PublicKey) :=
  List.zipWith (fun a h => (a.id, h.key)) as hs

theorem keys_told {as : List Account} {hs : List KeyHistory}
    (told : List.Forall₂ Account.Told as hs) :
    { l with accounts := as }.keys = .ok (toldKeys as hs) := by
  induction told with
  | nil => rfl
  | cons first _ ih =>
    rw [keys] at ih ⊢
    rw [List.mapM_cons, ih, ← first.key, PublicKey.ofBytes_bytes]
    rfl

theorem Kept.mapM_histories (kept : l.Kept) {as : List Account} {hs : List KeyHistory}
    (members : ∀ a ∈ as, a ∈ l.accounts) (told : List.Forall₂ Account.Told as hs) :
    ((toldKeys as hs).mapM fun (id, key) => Export.history l id key) = .ok hs := by
  induction told with
  | nil => rfl
  | @cons a h as hs first rest ih =>
    obtain ⟨member, members⟩ := List.forall_mem_cons.mp members
    rw [show toldKeys (a :: as) (h :: hs) = (a.id, h.key) :: toldKeys as hs from rfl,
      List.mapM_cons, ih members]
    simp only [kept.history_told member first]
    rfl

/-- The exported document is the one that tells of each account. -/
theorem Kept.export_eq (kept : l.Kept) {r : Root} (known : l.network = some r.bytes)
    {hs : List KeyHistory} (told : List.Forall₂ Account.Told l.accounts hs) :
    Export.document l = .ok (.current r hs) := by
  have keys : l.keys = .ok (toldKeys l.accounts hs) := keys_told told
  simp only [Export.document, readNetwork, known, readRoot_eq, Except.map, ok_bind, keys,
    kept.mapM_histories (fun _ member => member) told, pure_ok]

theorem Kept.network_root (kept : l.Kept) (known : l.network ≠ none) :
    ∃ r : Root, l.network = some r.bytes := by
  cases stored : l.network with
  | none => exact False.elim (known stored)
  | some bytes => exact ⟨⟨bytes, kept.network bytes stored⟩, rfl⟩

theorem Kept.export_ok (kept : l.Kept) (known : l.network ≠ none) :
    ∃ r hs, l.network = some r.bytes ∧ List.Forall₂ Account.Told l.accounts hs ∧
      Export.document l = .ok (.current r hs) := by
  obtain ⟨r, stored⟩ := kept.network_root known
  obtain ⟨hs, told⟩ := exists_forall₂ fun _ member => kept.exists_told member
  exact ⟨r, hs, stored, told, kept.export_eq stored told⟩

end Ledger

end SlashGuard
