import SlashGuard.Interchange.Import
import SlashGuard.Proofs.Absorption

/-! What an import counts: of the rows that come for a key, how many are new, how many were known,
and how many new ones clash with a row that was there before them. -/
namespace SlashGuard

instance (a b : BlockRow) : Decidable (a.Slashable b) := inferInstanceAs (Decidable (_ ∧ _))

instance (a b : AttestationRow) : Decidable (a.Spans b) := inferInstanceAs (Decidable (_ ∧ _))

instance (a b : AttestationRow) : Decidable (a.Slashable b) := inferInstanceAs (Decidable (_ ∨ _))

/-- Numbers of new and known rows, and of new rows that clash. -/
structure Tally where
  new : Nat
  known : Nat
  clashing : Nat
deriving DecidableEq, Repr

namespace Tally

def none : Tally := ⟨0, 0, 0⟩

def add (t u : Tally) : Tally := ⟨t.new + u.new, t.known + u.known, t.clashing + u.clashing⟩

variable {α : Type} [DecidableEq α]

def one (clash : α → α → Bool) (r : α) (xs : List α) : Tally :=
  if r ∈ xs then ⟨0, 1, 0⟩ else ⟨1, 0, if xs.any (clash · r) then 1 else 0⟩

def all (place : α → List Int) (clash : α → α → Bool) : List α → List α → Tally
  | [], _ => none
  | r :: rs, xs => (one clash r xs).add (all place clash rs (insertNew place r xs))

variable {place : α → List Int} {clash : α → α → Bool} {rs xs : List α}

theorem new_add_known : (all place clash rs xs).new + (all place clash rs xs).known = rs.length := by
  induction rs generalizing xs with
  | nil => rfl
  | cons r rs ih =>
    have rest := @ih (insertNew place r xs)
    simp only [all, add, one, List.length_cons]
    split
    · simp only
      omega
    · simp only
      omega

theorem all_of_known (known : ∀ r ∈ rs, r ∈ xs) :
    all place clash rs xs = ⟨0, rs.length, 0⟩ := by
  induction rs with
  | nil => rfl
  | cons r rs ih =>
    obtain ⟨first, rest⟩ := List.forall_mem_cons.mp known
    simp only [all, one, insertNew, if_pos first, ih rest, add, List.length_cons]
    simp only [Nat.add_comm]

theorem known_of_fresh (distinct : rs.Nodup) (fresh : ∀ r ∈ rs, r ∉ xs) :
    (all place clash rs xs).known = 0 := by
  induction rs generalizing xs with
  | nil => rfl
  | cons r rs ih =>
    obtain ⟨apart, distinct⟩ := List.nodup_cons.mp distinct
    obtain ⟨first, rest⟩ := List.forall_mem_cons.mp fresh
    have later : ∀ x ∈ rs, x ∉ insertNew place r xs := by
      intro x hx stored
      rcases mem_insertNew.mp stored with rfl | stored
      · exact apart hx
      · exact rest x hx stored
    simp only [all, one, if_neg first, add, ih distinct later]

end Tally

namespace ImportSummary

def addBlocks (s : ImportSummary) (t : Tally) : ImportSummary :=
  { s with
    blocksImported := s.blocksImported + t.new
    blocksSkipped := s.blocksSkipped + t.known
    conflicts := s.conflicts + t.clashing }

def addVotes (s : ImportSummary) (t : Tally) : ImportSummary :=
  { s with
    attestationsImported := s.attestationsImported + t.new
    attestationsSkipped := s.attestationsSkipped + t.known
    conflicts := s.conflicts + t.clashing }

def blockTally (bs : List BlockRow) (h : History) : Tally :=
  Tally.all BlockRow.place (fun x r => x.Slashable r) bs h.blocks

def voteTally (vs : List AttestationRow) (h : History) : Tally :=
  Tally.all AttestationRow.place (fun x r => x.Slashable r) vs h.attestations

def addHistory (s : ImportSummary) (h : History) (k : KeyHistory) : ImportSummary :=
  ({ s with validators := s.validators + 1 }.addBlocks
    (blockTally (k.blocks.map Block.row) h)).addVotes
      (voteTally (k.attestations.map Attestation.row) h)

def addHistories : ImportSummary → Ledger → List KeyHistory → ImportSummary
  | s, _, [] => s
  | s, l, k :: ks => addHistories (s.addHistory (l.historyOf k.key) k) (l.absorb k) ks

theorem addBlocks_add (s : ImportSummary) (t u : Tally) :
    (s.addBlocks t).addBlocks u = s.addBlocks (t.add u) := by
  simp only [addBlocks, Tally.add, Nat.add_assoc]

theorem addVotes_add (s : ImportSummary) (t u : Tally) :
    (s.addVotes t).addVotes u = s.addVotes (t.add u) := by
  simp only [addVotes, Tally.add, Nat.add_assoc]

end ImportSummary

end SlashGuard
