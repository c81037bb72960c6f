import Mathlib.Logic.Relation
import SlashGuard.Proofs.Accounts
import SlashGuard.Proofs.Coverage

/-! Moves of a ledger: a key is registered, the network is stored, or the history of a registered
validator changes. Whatever a call does to a ledger is a sequence of moves, so what each move keeps
holds of every ledger that calls can reach. -/
namespace SlashGuard.Ledger

/-- The invariant of a ledger. Ids rise with the order of registration, and a network is known as
soon as anything is stored of a validator. -/
structure Kept (l : Ledger) : Prop where
  distinct : l.ids.Nodup
  issued : ∀ id ∈ l.ids, id ≤ l.issued
  keys : ∀ a ∈ l.accounts, a.key ≠ []
  network : ∀ bytes, l.network = some bytes → bytes.length = rootSize
  known : ∀ id, l.history id ≠ .empty → l.network ≠ none
  histories : ∀ id, (l.history id).Kept

inductive Move (told : Int → Record → Prop) (l : Ledger) : Ledger → Prop
  | enroll (key : PublicKey) : Move told l (l.enroll key).2
  | adopt (r : Root) : Move told l (l.adopt r)
  | change (id : Int) (h : History) (registered : l.isRegistered id = true)
      (known : l.network ≠ none) (step : (l.history id).Step (told id) h) :
      Move told l (l.put id h)

abbrev Moves (told : Int → Record → Prop) : Ledger → Ledger → Prop :=
  Relation.ReflTransGen (Move told)

theorem Moves.change {told : Int → Record → Prop} {l : Ledger} {id : Int} {h h' : History}
    (moves : Moves told l (l.put id h)) (registered : l.isRegistered id = true)
    (known : l.network ≠ none) (step : h.Step (told id) h') : Moves told l (l.put id h') := by
  have self := history_put_self registered h
  have next : Move told (l.put id h) ((l.put id h).put id h') :=
    .change id h' (by simpa using registered) known (by rwa [self])
  rw [put_put] at next
  exact moves.tail next

theorem Kept.fresh : Ledger.fresh.Kept where
  distinct := List.nodup_nil
  issued := nofun
  keys := nofun
  network := nofun
  known := fun _ stored => False.elim (stored rfl)
  histories := fun _ => .empty

theorem Kept.nodup_enroll {l : Ledger} (kept : l.Kept) (key : PublicKey) :
    (l.enroll key).2.ids.Nodup := by
  rcases ids_enroll l key with same | more
  · rw [same]
    exact kept.distinct
  · rw [more, List.nodup_append]
    refine ⟨kept.distinct, by simp, ?_⟩
    intro id member id' last
    have := kept.issued id member
    rw [List.mem_singleton.mp last]
    omega

theorem le_issued_enroll {l : Ledger} (bound : ∀ id ∈ l.ids, id ≤ l.issued) (key : PublicKey)
    {id : Int} (member : id ∈ (l.enroll key).2.ids) : id ≤ (l.enroll key).2.issued := by
  rw [issued_enroll]
  rcases ids_enroll l key with same | more
  · rw [same] at member
    have := bound id member
    omega
  · rw [more] at member
    rcases List.mem_append.mp member with member | last
    · have := bound id member
      omega
    · have := List.mem_singleton.mp last
      omega

theorem Kept.keys_enroll {l : Ledger} (kept : l.Kept) (key : PublicKey) :
    ∀ a ∈ (l.enroll key).2.accounts, a.key ≠ [] := by
  simp only [Ledger.enroll]
  cases l.idOf key with
  | some _ => exact kept.keys
  | none =>
    intro a member
    rcases List.mem_append.mp member with member | last
    · exact kept.keys a member
    · rw [List.mem_singleton.mp last]
      exact key.nonempty

theorem Kept.enroll {l : Ledger} (kept : l.Kept) (key : PublicKey) : (l.enroll key).2.Kept where
  distinct := kept.nodup_enroll key
  issued := fun _ => le_issued_enroll kept.issued key
  keys := kept.keys_enroll key
  network := by
    rw [network_enroll]
    exact kept.network
  known := by
    intro id
    rw [history_enroll, network_enroll]
    exact kept.known id
  histories := by
    intro id
    rw [history_enroll]
    exact kept.histories id

theorem Kept.adopt {l : Ledger} (kept : l.Kept) (r : Root) : (l.adopt r).Kept := by
  cases known : l.network with
  | some bytes => rwa [adopt_eq_self (by simp [known])]
  | none =>
    have adopted : l.adopt r = { l with network := some r.bytes } := by
      simp [Ledger.adopt, recordNetwork, known]
    rw [adopted]
    refine ⟨kept.distinct, kept.issued, kept.keys, ?_, ?_, kept.histories⟩
    · intro bytes stored
      rw [← Option.some.inj stored]
      exact r.size
    · intro id _ none
      cases none

theorem Kept.put {l : Ledger} (kept : l.Kept) {id : Int} {h : History}
    (known : l.network ≠ none) (hkept : h.Kept) : (l.put id h).Kept where
  distinct := by simpa using kept.distinct
  issued := by simpa using kept.issued
  keys := by
    intro a member
    have key : a.key ∈ (l.put id h).accounts.map Account.key := List.mem_map_of_mem member
    rw [keys_put] at key
    obtain ⟨b, hb, same⟩ := List.mem_map.mp key
    exact same ▸ kept.keys b hb
  network := kept.network
  known := fun _ _ => known
  histories := forall_history_put (P := fun _ => History.Kept) kept.histories hkept

theorem Move.kept {told : Int → Record → Prop} {l l' : Ledger} (move : Move told l l')
    (kept : l.Kept) : l'.Kept := by
  cases move with
  | enroll key => exact kept.enroll key
  | adopt r => exact kept.adopt r
  | change id h registered known step =>
    exact kept.put known (step.kept (kept.histories id))

theorem Moves.kept {told : Int → Record → Prop} {l l' : Ledger} (moves : Moves told l l')
    (kept : l.Kept) : l'.Kept := by
  induction moves with
  | refl => exact kept
  | tail _ move ih => exact move.kept ih

theorem Kept.known_of_stores {l : Ledger} (kept : l.Kept) {id : Int} {r : Record}
    (stored : (l.history id).Stores r) : l.network ≠ none :=
  kept.known id (History.ne_empty_of_stores stored)

/-- What every sequence of moves keeps: registered keys with their ids, a stored network, and the
memory of each history. What is newly stored was told. -/
structure Grows (told : Int → Record → Prop) (l l' : Ledger) : Prop where
  registered : ∀ id, l.isRegistered id = true → l'.isRegistered id = true
  idOf : ∀ key id, l.idOf key = some id → l'.idOf key = some id
  network : ∀ bytes, l.network = some bytes → l'.network = some bytes
  advances : ∀ id, (l.history id).Advances (l'.history id)
  told : ∀ id r, (l'.history id).Stores r → (l.history id).Stores r ∨ told id r

variable {told : Int → Record → Prop} {l l' l'' : Ledger}

theorem Grows.refl (l : Ledger) : Grows told l l :=
  ⟨fun _ h => h, fun _ _ h => h, fun _ h => h, fun _ => .refl _, fun _ _ h => .inl h⟩

theorem Grows.trans (first : Grows told l l') (second : Grows told l' l'') :
    Grows told l l'' where
  registered := fun id h => second.registered id (first.registered id h)
  idOf := fun key id h => second.idOf key id (first.idOf key id h)
  network := fun bytes h => second.network bytes (first.network bytes h)
  advances := fun id => (first.advances id).trans (second.advances id)
  told := by
    intro id r stored
    rcases second.told id r stored with stored | new
    · exact first.told id r stored
    · exact .inr new

theorem grows_of_histories (same : ∀ id, l'.history id = l.history id)
    (registered : ∀ id, l.isRegistered id = true → l'.isRegistered id = true)
    (idOf : ∀ key id, l.idOf key = some id → l'.idOf key = some id)
    (network : ∀ bytes, l.network = some bytes → l'.network = some bytes) : Grows told l l' := by
  refine ⟨registered, idOf, network, ?_, ?_⟩
  · intro id
    rw [same id]
    exact .refl _
  · intro id r stored
    rw [same id] at stored
    exact .inl stored

theorem grows_enroll (l : Ledger) (key : PublicKey) : Grows told l (l.enroll key).2 := by
  apply grows_of_histories (history_enroll l key)
  · exact fun _ => isRegistered_enroll_of key
  · exact fun _ _ => idOf_enroll_of key
  · rw [network_enroll]
    exact fun _ known => known

theorem grows_adopt (l : Ledger) (r : Root) : Grows told l (l.adopt r) := by
  apply grows_of_histories (history_adopt l r)
  · simp
  · simp
  · intro bytes known
    rwa [adopt_eq_self (by simp [known])]

theorem grows_put {id : Int} {h : History} (kept : (l.history id).Kept)
    (step : (l.history id).Step (told id) h) : Grows told l (l.put id h) := by
  refine ⟨?_, ?_, fun _ known => known, ?_, ?_⟩
  · simp
  · simp
  · exact forall_history_put (P := fun id' => (l.history id').Advances) (fun _ => .refl _)
      (step.advances kept)
  · intro id' r
    exact forall_history_put
      (P := fun id' h => h.Stores r → (l.history id').Stores r ∨ told id' r) (fun _ => .inl)
      step.told id'

theorem Move.grows (move : Move told l l') (kept : l.Kept) : Grows told l l' := by
  cases move with
  | enroll key => exact grows_enroll l key
  | adopt r => exact grows_adopt l r
  | change id h registered known step => exact grows_put (kept.histories id) step

theorem Moves.grows (moves : Moves told l l') (kept : l.Kept) : Grows told l l' := by
  induction moves with
  | refl => exact .refl l
  | tail before move ih => exact ih.trans (move.grows (Moves.kept before kept))

theorem Moves.mono {told' : Int → Record → Prop} (moves : Moves told l l')
    (more : ∀ id r, told id r → told' id r) : Moves told' l l' := by
  induction moves with
  | refl => exact .refl
  | tail _ move ih =>
    refine ih.tail ?_
    cases move with
    | enroll key => exact .enroll key
    | adopt r => exact .adopt r
    | change id h registered known step => exact .change id h registered known (step.mono (more id))

end SlashGuard.Ledger
