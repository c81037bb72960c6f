import Mathlib.Data.List.Nodup
import SlashGuard.Interchange.Document
import SlashGuard.Proofs.Joins
import SlashGuard.Proofs.Moves

/-! A ledger seen by keys, and what it takes up from some histories: each registers its key and is
joined to what is stored for it. The history of a key depends on the rows that come for it and not
on the entries they come in. -/
namespace SlashGuard.Ledger

variable {l : Ledger} {key : PublicKey} {id : Int}

/-- Ids rise with the order of registration, keys are registered once, and rows are in order. -/
structure Arranged (l : Ledger) : Prop where
  ids : l.ids.Pairwise (· < ·)
  issued : ∀ id ∈ l.ids, id ≤ l.issued
  keys : (l.accounts.map Account.key).Nodup
  histories : ∀ id, (l.history id).Arranged

theorem Arranged.fresh : Ledger.fresh.Arranged :=
  ⟨.nil, nofun, .nil, fun _ => .empty⟩

theorem Arranged.distinct (arranged : l.Arranged) : l.ids.Nodup :=
  arranged.ids.imp fun before => Int.ne_of_lt before

theorem idOf_eq_none : l.idOf key = none ↔ key.bytes ∉ l.accounts.map Account.key := by
  simp [idOf]

theorem PublicKey.ext_bytes {k k' : PublicKey} (h : k.bytes = k'.bytes) : k = k' := by
  cases k
  cases k'
  simpa using h

theorem enroll_known (known : l.idOf key = some id) :
    l.enroll key = (id, { l with issued := l.issued + 1 }) := by
  simp only [enroll, known]

theorem enroll_new (new : l.idOf key = none) :
    l.enroll key = (l.issued + 1, { l with
      issued := l.issued + 1
      accounts := l.accounts ++ [⟨l.issued + 1, key.bytes, .empty⟩] }) := by
  simp only [enroll, new]

theorem Arranged.keys_enroll (arranged : l.Arranged) (key : PublicKey) :
    ((l.enroll key).2.accounts.map Account.key).Nodup := by
  cases known : l.idOf key with
  | some id =>
    rw [enroll_known known]
    exact arranged.keys
  | none =>
    rw [enroll_new known, List.map_append, List.map_singleton]
    refine List.nodup_append.mpr ⟨arranged.keys, List.nodup_singleton _, ?_⟩
    intro key' member last hlast same
    rw [same, List.mem_singleton.mp hlast] at member
    exact idOf_eq_none.mp known member

theorem Arranged.enroll (arranged : l.Arranged) (key : PublicKey) : (l.enroll key).2.Arranged where
  ids := by
    rcases ids_enroll l key with same | more
    · rw [same]
      exact arranged.ids
    · rw [more]
      refine List.pairwise_append.mpr ⟨arranged.ids, List.pairwise_singleton _ _, ?_⟩
      intro id member last hlast
      have := arranged.issued id member
      rw [List.mem_singleton.mp hlast]
      omega
  issued := fun _ => le_issued_enroll arranged.issued key
  keys := arranged.keys_enroll key
  histories := by
    intro id
    rw [history_enroll]
    exact arranged.histories id

theorem Arranged.adopt (arranged : l.Arranged) (r : Root) : (l.adopt r).Arranged := by
  cases known : l.network with
  | some bytes => rwa [adopt_eq_self (by simp [known])]
  | none =>
    have adopted : l.adopt r = { l with network := some r.bytes } := by
      simp [Ledger.adopt, recordNetwork, known]
    rw [adopted]
    exact ⟨arranged.ids, arranged.issued, arranged.keys, arranged.histories⟩

theorem Arranged.put (arranged : l.Arranged) {h : History} (rows : h.Arranged) (id : Int) :
    (l.put id h).Arranged where
  ids := by simpa using arranged.ids
  issued := by simpa using arranged.issued
  keys := by
    rw [keys_put]
    exact arranged.keys
  histories := forall_history_put (P := fun _ => History.Arranged) arranged.histories rows

theorem Moves.arranged {told : Int → Record → Prop} {l l' : Ledger} (moves : Moves told l l')
    (arranged : l.Arranged) : l'.Arranged := by
  induction moves with
  | refl => exact arranged
  | tail _ move ih =>
    cases move with
    | enroll key => exact ih.enroll key
    | adopt r => exact ih.adopt r
    | change id h _ _ step => exact ih.put (step.arranged (ih.histories id)) id

def historyOf (l : Ledger) (key : PublicKey) : History := (l.idOf key).elim .empty l.history

theorem historyOf_eq (known : l.idOf key = some id) : l.historyOf key = l.history id := by
  simp only [historyOf, known, Option.elim_some]

theorem historyOf_unknown (unknown : l.idOf key = none) : l.historyOf key = .empty := by
  simp only [historyOf, unknown, Option.elim_none]

theorem Arranged.historyOf (arranged : l.Arranged) (key : PublicKey) :
    (l.historyOf key).Arranged := by
  cases known : l.idOf key with
  | none =>
    rw [historyOf_unknown known]
    exact .empty
  | some id =>
    rw [historyOf_eq known]
    exact arranged.histories id

theorem Kept.historyOf (kept : l.Kept) (key : PublicKey) : (l.historyOf key).Kept := by
  cases known : l.idOf key with
  | none =>
    rw [historyOf_unknown known]
    exact .empty
  | some id =>
    rw [historyOf_eq known]
    exact kept.histories id

theorem mem_of_idOf (known : l.idOf key = some id) :
    ∃ a ∈ l.accounts, a.id = id ∧ a.key = key.bytes := by
  obtain ⟨a, found, hid⟩ := Option.map_eq_some_iff.mp known
  exact ⟨a, List.mem_of_find?_eq_some found, hid, by simpa using List.find?_some found⟩

theorem idOf_injective (distinct : l.ids.Nodup) {other : PublicKey}
    (known : l.idOf key = some id) (known' : l.idOf other = some id) : key = other := by
  obtain ⟨a, ha, hid, hkey⟩ := mem_of_idOf known
  obtain ⟨b, hb, hid', hkey'⟩ := mem_of_idOf known'
  have same : a = b := List.inj_on_of_nodup_map distinct ha hb (hid.trans hid'.symm)
  exact PublicKey.ext_bytes (hkey.symm.trans (same ▸ hkey'))

theorem idOf_of_mem (arranged : l.Arranged) {a : Account} (member : a ∈ l.accounts)
    (same : a.key = key.bytes) : l.idOf key = some a.id := by
  cases known : l.idOf key with
  | none => exact False.elim (idOf_eq_none.mp known (same ▸ List.mem_map_of_mem member))
  | some id =>
    obtain ⟨b, hb, hid, hkey⟩ := mem_of_idOf known
    have one : a = b := List.inj_on_of_nodup_map arranged.keys member hb (same.trans hkey.symm)
    rw [one, hid]

theorem idOf_enroll_ne {other : PublicKey} (apart : other ≠ key) :
    (l.enroll key).2.idOf other = l.idOf other := by
  cases known : l.idOf key with
  | some id =>
    rw [enroll_known known]
    rfl
  | none =>
    have bytes : key.bytes ≠ other.bytes := fun same => apart (PublicKey.ext_bytes same.symm)
    rw [enroll_new known]
    simp [idOf, List.find?_append, bytes]

/-- A new id finds nothing, so the first history of a key is empty. -/
theorem history_enrolled (bound : ∀ id ∈ l.ids, id ≤ l.issued) (key : PublicKey) :
    (l.enroll key).2.history (l.enroll key).1 = l.historyOf key := by
  rw [history_enroll]
  cases known : l.idOf key with
  | some id => rw [enroll_known known, historyOf_eq known]
  | none =>
    rw [enroll_new known, historyOf_unknown known]
    apply history_of_not_registered
    rw [Bool.eq_false_iff]
    intro registered
    have := bound _ (isRegistered_iff_mem_ids.mp registered)
    omega

theorem historyOf_enroll (bound : ∀ id ∈ l.ids, id ≤ l.issued) (key other : PublicKey) :
    (l.enroll key).2.historyOf other = l.historyOf other := by
  by_cases same : other = key
  · rw [same, historyOf_eq (idOf_enroll l key), history_enrolled bound]
  · simp only [historyOf, idOf_enroll_ne same]
    cases l.idOf other with
    | none => rfl
    | some id => exact history_enroll l key id

theorem historyOf_put (distinct : l.ids.Nodup) (known : l.idOf key = some id) (h : History)
    (other : PublicKey) :
    (l.put id h).historyOf other = if key = other then h else l.historyOf other := by
  split
  · rename_i same
    rw [historyOf_eq (by rw [idOf_put, ← same, known]),
      history_put_self (registered_of_idOf known)]
  · rename_i apart
    cases found : l.idOf other with
    | none => rw [historyOf_unknown (by rw [idOf_put, found]), historyOf_unknown found]
    | some id' =>
      have ne : id' ≠ id := by
        rintro rfl
        exact apart (idOf_injective distinct known found)
      rw [historyOf_eq (by rw [idOf_put, found]), historyOf_eq found, history_put_ne ne]

def absorb (l : Ledger) (h : KeyHistory) : Ledger :=
  (l.enroll h.key).2.put (l.enroll h.key).1
    ((l.historyOf h.key).join (h.blocks.map Block.row) (h.attestations.map Attestation.row))

def absorbAll (l : Ledger) (hs : List KeyHistory) : Ledger := hs.foldl absorb l

theorem absorbAll_cons (l : Ledger) (h : KeyHistory) (hs : List KeyHistory) :
    l.absorbAll (h :: hs) = (l.absorb h).absorbAll hs := rfl

def blocksFor (key : PublicKey) (hs : List KeyHistory) : List Block :=
  (hs.filter fun h => h.key = key).flatMap KeyHistory.blocks

def votesFor (key : PublicKey) (hs : List KeyHistory) : List Attestation :=
  (hs.filter fun h => h.key = key).flatMap KeyHistory.attestations

theorem mem_blocksFor {hs : List KeyHistory} {b : Block} :
    b ∈ blocksFor key hs ↔ ∃ h ∈ hs, h.key = key ∧ b ∈ h.blocks := by
  simp [blocksFor, and_assoc]

theorem mem_votesFor {hs : List KeyHistory} {a : Attestation} :
    a ∈ votesFor key hs ↔ ∃ h ∈ hs, h.key = key ∧ a ∈ h.attestations := by
  simp [votesFor, and_assoc]

theorem Arranged.absorb (arranged : l.Arranged) (h : KeyHistory) : (l.absorb h).Arranged :=
  (arranged.enroll h.key).put ((arranged.historyOf h.key).join _ _) _

theorem Arranged.absorbAll (arranged : l.Arranged) (hs : List KeyHistory) :
    (l.absorbAll hs).Arranged := by
  induction hs generalizing l with
  | nil => exact arranged
  | cons h hs ih => exact ih (arranged.absorb h)

theorem historyOf_absorb (arranged : l.Arranged) (h : KeyHistory) (key : PublicKey) :
    (l.absorb h).historyOf key = if h.key = key then (l.historyOf key).join
      (h.blocks.map Block.row) (h.attestations.map Attestation.row) else l.historyOf key := by
  rw [absorb, historyOf_put (arranged.enroll h.key).distinct (idOf_enroll l h.key),
    historyOf_enroll arranged.issued]
  split
  · rename_i same
    rw [same]
  · rfl

/-- The history of a key is joined with all that comes for it, whatever entries it comes in. -/
theorem historyOf_absorbAll (arranged : l.Arranged) (hs : List KeyHistory) (key : PublicKey) :
    (l.absorbAll hs).historyOf key = (l.historyOf key).join
      ((blocksFor key hs).map Block.row) ((votesFor key hs).map Attestation.row) := by
  induction hs generalizing l with
  | nil => rfl
  | cons h hs ih =>
    have rest := ih (arranged.absorb h)
    rw [historyOf_absorb arranged] at rest
    rw [absorbAll_cons, rest]
    by_cases same : h.key = key
    · simp [blocksFor, votesFor, same, History.join_join]
    · simp [blocksFor, votesFor, same]

def roster (l : Ledger) : List (Int × List UInt8) := l.accounts.map fun a => (a.id, a.key)

theorem keys_eq_roster (l : Ledger) : l.accounts.map Account.key = l.roster.map Prod.snd := by
  simp [roster, Function.comp_def]

theorem roster_put (l : Ledger) (id : Int) (h : History) : (l.put id h).roster = l.roster := by
  simp only [roster, put, amend, List.map_map]
  apply List.map_congr_left
  intro a _
  simp only [Function.comp_apply]
  split <;> rfl

theorem idOf_eq_roster (l : Ledger) (key : PublicKey) :
    l.idOf key = (l.roster.find? fun entry => entry.2 = key.bytes).map Prod.fst := by
  simp [idOf, roster, List.find?_map, Function.comp_def]

theorem isRegistered_eq_roster (l : Ledger) (id : Int) :
    l.isRegistered id = l.roster.any fun entry => entry.1 = id := by
  simp [isRegistered, roster, Function.comp_def]

theorem ids_eq_roster (l : Ledger) : l.ids = l.roster.map Prod.fst := by
  simp [ids, roster, Function.comp_def]

theorem roster_adopt (l : Ledger) (r : Root) : (l.adopt r).roster = l.roster := by
  simp only [adopt, recordNetwork]
  cases l.network <;> rfl

theorem roster_absorb_known {h : KeyHistory} (known : l.idOf h.key = some id) :
    (l.absorb h).roster = l.roster := by
  rw [absorb, roster_put, enroll_known known]
  rfl

theorem roster_absorb_new {h : KeyHistory} (new : l.idOf h.key = none) :
    (l.absorb h).roster = l.roster ++ [(l.issued + 1, h.key.bytes)] := by
  rw [absorb, roster_put, enroll_new new]
  simp [roster]

theorem roster_prefix_absorb (l : Ledger) (h : KeyHistory) : l.roster <+: (l.absorb h).roster := by
  cases known : l.idOf h.key with
  | some id => exact ⟨[], by rw [List.append_nil, roster_absorb_known known]⟩
  | none =>
    rw [roster_absorb_new known]
    exact List.prefix_append _ _

theorem roster_prefix_absorbAll (l : Ledger) (hs : List KeyHistory) :
    l.roster <+: (l.absorbAll hs).roster := by
  induction hs generalizing l with
  | nil => exact List.prefix_rfl
  | cons h hs ih => exact (roster_prefix_absorb l h).trans (ih (l.absorb h))

theorem isSome_idOf_absorbAll (l : Ledger) (hs : List KeyHistory) (key : PublicKey) :
    ((l.absorbAll hs).idOf key).isSome = true ↔
      (l.idOf key).isSome = true ∨ ∃ h ∈ hs, h.key = key := by
  induction hs generalizing l with
  | nil => simp [absorbAll]
  | cons h hs ih =>
    have first : ((l.absorb h).idOf key).isSome = true ↔
        (l.idOf key).isSome = true ∨ h.key = key := by
      rw [absorb, idOf_put]
      by_cases same : h.key = key
      · rw [← same, idOf_enroll]
        simp
      · rw [idOf_enroll_ne (Ne.symm same)]
        simp [same]
    rw [absorbAll_cons, ih, first, or_assoc]
    simp

theorem keys_absorbAll {hs : List KeyHistory}
    (new : (l.accounts.map Account.key ++ hs.map fun h => h.key.bytes).Nodup) :
    (l.absorbAll hs).accounts.map Account.key =
      l.accounts.map Account.key ++ hs.map fun h => h.key.bytes := by
  induction hs generalizing l with
  | nil => simp [absorbAll]
  | cons h hs ih =>
    have unknown : l.idOf h.key = none := by
      apply idOf_eq_none.mpr
      intro known
      exact (List.nodup_append.mp new).2.2 _ known _ (by simp) rfl
    have first : (l.absorb h).accounts.map Account.key =
        l.accounts.map Account.key ++ [h.key.bytes] := by
      rw [keys_eq_roster, roster_absorb_new unknown, keys_eq_roster]
      simp
    have rest := @ih (l.absorb h) (by rw [first]; simpa using new)
    rw [first] at rest
    simpa [absorbAll] using rest

theorem network_absorbAll (l : Ledger) (hs : List KeyHistory) :
    (l.absorbAll hs).network = l.network := by
  induction hs generalizing l with
  | nil => rfl
  | cons h hs ih =>
    have first : (l.absorb h).network = l.network := by rw [absorb, network_put, network_enroll]
    exact (ih (l.absorb h)).trans first

theorem version_absorbAll (l : Ledger) (hs : List KeyHistory) :
    (l.absorbAll hs).version = l.version := by
  induction hs generalizing l with
  | nil => rfl
  | cons h hs ih => exact (ih (l.absorb h)).trans (version_enroll l h.key)

theorem issued_absorbAll (l : Ledger) (hs : List KeyHistory) :
    (l.absorbAll hs).issued = l.issued + hs.length := by
  induction hs generalizing l with
  | nil => simp [absorbAll]
  | cons h hs ih =>
    have first : (l.absorb h).issued = l.issued + 1 := by rw [absorb, issued_put, issued_enroll]
    have rest := ih (l.absorb h)
    rw [first] at rest
    simp only [absorbAll, List.foldl_cons, List.length_cons] at rest ⊢
    omega

end SlashGuard.Ledger
