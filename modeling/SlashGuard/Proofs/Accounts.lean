import SlashGuard.Ledger.Ledger

/-! Accounts of a ledger seen through their histories. Where ids are distinct every write replaces
the history of one id by a value, and registering a key changes no history. -/
namespace SlashGuard.Ledger

def put (l : Ledger) (id : Int) (h : History) : Ledger := l.amend id fun _ => h

def adopt (l : Ledger) (r : Root) : Ledger := (l.recordNetwork r).2

def Takes (l : Ledger) (r : Root) : Prop := ∀ bytes, l.network = some bytes → bytes = r.bytes

theorem isRegistered_iff {l : Ledger} {id : Int} :
    l.isRegistered id = true ↔ ∃ a ∈ l.accounts, a.id = id := by
  simp [isRegistered]

theorem isRegistered_iff_mem_ids {l : Ledger} {id : Int} :
    l.isRegistered id = true ↔ id ∈ l.ids := by
  simp [isRegistered, ids]

theorem history_of_not_registered {l : Ledger} {id : Int} (h : l.isRegistered id = false) :
    l.history id = .empty := by
  have absent : l.accounts.find? (fun a => a.id = id) = none := by
    simpa [isRegistered] using h
  simp [history, absent]

theorem registered_of_history {l : Ledger} {id : Int} (h : l.history id ≠ .empty) :
    l.isRegistered id = true := by
  cases hr : l.isRegistered id with
  | true => rfl
  | false => exact False.elim (h (history_of_not_registered hr))

theorem history_of_mem {l : Ledger} (distinct : l.ids.Nodup) {a : Account}
    (member : a ∈ l.accounts) : l.history a.id = a.history := by
  have find : ∀ as : List Account, (as.map Account.id).Nodup → a ∈ as →
      as.find? (fun b => b.id = a.id) = some a := by
    intro as nodup mem
    induction as with
    | nil => cases mem
    | cons b bs ih =>
      rw [List.map_cons, List.nodup_cons] at nodup
      rcases List.mem_cons.mp mem with rfl | mem
      · simp
      · have apart : b.id ≠ a.id := by
          intro same
          exact nodup.1 (same ▸ List.mem_map_of_mem mem)
        simp only [List.find?_cons, apart, decide_false, ih nodup.2 mem]
  simp [history, find l.accounts distinct member]

@[simp] theorem ids_amend (l : Ledger) (id : Int) (f : History → History) :
    (l.amend id f).ids = l.ids := by
  simp only [ids, amend, List.map_map]
  apply List.map_congr_left
  intro a _
  simp only [Function.comp_apply]
  split <;> rfl

@[simp] theorem ids_put (l : Ledger) (id : Int) (h : History) : (l.put id h).ids = l.ids :=
  ids_amend l id fun _ => h

@[simp] theorem isRegistered_put (l : Ledger) (id : Int) (h : History) (id' : Int) :
    (l.put id h).isRegistered id' = l.isRegistered id' := by
  rw [Bool.eq_iff_iff, isRegistered_iff_mem_ids, isRegistered_iff_mem_ids, ids_put]

@[simp] theorem network_put (l : Ledger) (id : Int) (h : History) :
    (l.put id h).network = l.network := rfl

@[simp] theorem version_put (l : Ledger) (id : Int) (h : History) :
    (l.put id h).version = l.version := rfl

@[simp] theorem issued_put (l : Ledger) (id : Int) (h : History) :
    (l.put id h).issued = l.issued := rfl

theorem keys_put (l : Ledger) (id : Int) (h : History) :
    (l.put id h).accounts.map Account.key = l.accounts.map Account.key := by
  simp only [put, amend, List.map_map]
  apply List.map_congr_left
  intro a _
  simp only [Function.comp_apply]
  split <;> rfl

theorem find_amend (l : Ledger) (id : Int) (f : History → History) (p : Account → Bool)
    (same : ∀ a : Account, p { a with history := f a.history } = p a) :
    (l.amend id f).accounts.find? p = (l.accounts.find? p).map fun a =>
      if a.id = id then { a with history := f a.history } else a := by
  simp only [amend, List.find?_map]
  congr 2
  funext a
  simp only [Function.comp_apply]
  split
  · exact same a
  · rfl

@[simp] theorem idOf_put (l : Ledger) (id : Int) (h : History) (key : PublicKey) :
    (l.put id h).idOf key = l.idOf key := by
  simp only [idOf, put]
  rw [find_amend _ _ _ _ (fun _ => rfl)]
  cases l.accounts.find? (fun a => a.key = key.bytes) with
  | none => rfl
  | some a =>
    simp only [Option.map_some, Option.some.injEq]
    split <;> rfl

theorem history_put_self {l : Ledger} {id : Int} (registered : l.isRegistered id = true)
    (h : History) : (l.put id h).history id = h := by
  simp only [history, put]
  rw [find_amend _ _ _ _ (fun _ => rfl)]
  cases found : l.accounts.find? (fun a => a.id = id) with
  | none =>
    obtain ⟨a, member, hid⟩ := isRegistered_iff.mp registered
    have absent := List.find?_eq_none.mp found a member
    simp [hid] at absent
  | some a =>
    have hid : a.id = id := by simpa using List.find?_some found
    simp [hid]

theorem history_put_ne {l : Ledger} {id id' : Int} (apart : id' ≠ id) (h : History) :
    (l.put id h).history id' = l.history id' := by
  simp only [history, put]
  rw [find_amend _ _ _ _ (fun _ => rfl)]
  cases found : l.accounts.find? (fun a => a.id = id') with
  | none => rfl
  | some a =>
    have hid : a.id = id' := by simpa using List.find?_some found
    have other : ¬ a.id = id := by rwa [hid]
    simp [other]

/-- What holds of the history that is put in and of all that stood before holds of all. -/
theorem forall_history_put {P : Int → History → Prop} {l : Ledger} {id : Int} {h : History}
    (old : ∀ id', P id' (l.history id')) (new : P id h) (id' : Int) :
    P id' ((l.put id h).history id') := by
  by_cases same : id' = id
  · cases registered : l.isRegistered id with
    | true => rwa [same, history_put_self registered]
    | false =>
      have before := old id'
      rw [same, history_of_not_registered registered] at before
      rwa [same, history_of_not_registered (by simpa using registered)]
  · rw [history_put_ne same]
    exact old id'

@[simp] theorem put_put (l : Ledger) (id : Int) (h h' : History) :
    (l.put id h).put id h' = l.put id h' := by
  simp only [put, amend, List.map_map, Ledger.mk.injEq, true_and]
  apply List.map_congr_left
  intro a _
  simp only [Function.comp_apply]
  by_cases same : a.id = id
  · simp [same]
  · simp [same]

theorem amend_eq_put {l : Ledger} (distinct : l.ids.Nodup) (id : Int) (f : History → History) :
    l.amend id f = l.put id (f (l.history id)) := by
  simp only [put, amend, Ledger.mk.injEq, true_and]
  apply List.map_congr_left
  intro a member
  by_cases same : a.id = id
  · have own := history_of_mem distinct member
    rw [same] at own
    simp [same, own]
  · simp [same]

theorem put_history {l : Ledger} (distinct : l.ids.Nodup) (id : Int) :
    l.put id (l.history id) = l := by
  rw [← amend_eq_put distinct id fun h => h]
  simp [amend]

theorem write_eq {l : Ledger} (distinct : l.ids.Nodup) {id : Int}
    (registered : l.isRegistered id = true) (f : History → History) :
    l.write id f = .ok (l.put id (f (l.history id))) := by
  rw [write, if_pos registered, amend_eq_put distinct]

theorem isRegistered_enroll_of {l : Ledger} {id : Int} (key : PublicKey)
    (registered : l.isRegistered id = true) : (l.enroll key).2.isRegistered id = true := by
  simp only [enroll]
  cases l.idOf key with
  | some _ => exact registered
  | none =>
    obtain ⟨a, member, hid⟩ := isRegistered_iff.mp registered
    exact isRegistered_iff.mpr ⟨a, List.mem_append_left _ member, hid⟩

theorem ids_enroll (l : Ledger) (key : PublicKey) :
    (l.enroll key).2.ids = l.ids ∨ (l.enroll key).2.ids = l.ids ++ [l.issued + 1] := by
  simp only [enroll]
  cases l.idOf key with
  | some _ => exact .inl rfl
  | none =>
    right
    simp only [ids, List.map_append, List.map_cons, List.map_nil]

@[simp] theorem issued_enroll (l : Ledger) (key : PublicKey) :
    (l.enroll key).2.issued = l.issued + 1 := by
  simp only [enroll]
  cases l.idOf key <;> rfl

@[simp] theorem version_enroll (l : Ledger) (key : PublicKey) :
    (l.enroll key).2.version = l.version := by
  simp only [enroll]
  cases l.idOf key <;> rfl

@[simp] theorem network_enroll (l : Ledger) (key : PublicKey) :
    (l.enroll key).2.network = l.network := by
  simp only [enroll]
  cases l.idOf key <;> rfl

@[simp] theorem history_enroll (l : Ledger) (key : PublicKey) (id : Int) :
    (l.enroll key).2.history id = l.history id := by
  simp only [enroll]
  cases l.idOf key with
  | some _ => rfl
  | none =>
    simp only [history, List.find?_append]
    cases l.accounts.find? (fun a => a.id = id) with
    | some a => rfl
    | none =>
      simp only [Option.none_or, List.find?_singleton]
      split <;> rfl

/-- The id that registering answers is the one that the key has from then on. -/
theorem idOf_enroll (l : Ledger) (key : PublicKey) :
    (l.enroll key).2.idOf key = some (l.enroll key).1 := by
  cases known : l.idOf key with
  | some id =>
    simp only [enroll, known]
    exact known
  | none =>
    simp only [enroll, known]
    simp only [idOf, Option.map_eq_none_iff] at known
    simp [idOf, List.find?_append, known]

theorem idOf_enroll_of {l : Ledger} {key : PublicKey} {id : Int} (other : PublicKey)
    (known : l.idOf key = some id) : (l.enroll other).2.idOf key = some id := by
  simp only [enroll]
  cases l.idOf other with
  | some _ => exact known
  | none =>
    obtain ⟨a, found, hid⟩ := Option.map_eq_some_iff.mp known
    simp [idOf, List.find?_append, found, hid]

theorem registered_of_idOf {l : Ledger} {key : PublicKey} {id : Int}
    (known : l.idOf key = some id) : l.isRegistered id = true := by
  obtain ⟨a, found, hid⟩ := Option.map_eq_some_iff.mp known
  exact isRegistered_iff.mpr ⟨a, List.mem_of_find?_eq_some found, hid⟩

theorem registered_enroll (l : Ledger) (key : PublicKey) :
    (l.enroll key).2.isRegistered (l.enroll key).1 = true :=
  registered_of_idOf (idOf_enroll l key)

@[simp] theorem history_adopt (l : Ledger) (r : Root) (id : Int) :
    (l.adopt r).history id = l.history id := by
  simp only [adopt, recordNetwork]
  cases l.network <;> rfl

@[simp] theorem isRegistered_adopt (l : Ledger) (r : Root) (id : Int) :
    (l.adopt r).isRegistered id = l.isRegistered id := by
  simp only [adopt, recordNetwork]
  cases l.network <;> rfl

@[simp] theorem idOf_adopt (l : Ledger) (r : Root) (key : PublicKey) :
    (l.adopt r).idOf key = l.idOf key := by
  simp only [adopt, recordNetwork]
  cases l.network <;> rfl

@[simp] theorem ids_adopt (l : Ledger) (r : Root) : (l.adopt r).ids = l.ids := by
  simp only [adopt, recordNetwork]
  cases l.network <;> rfl

@[simp] theorem version_adopt (l : Ledger) (r : Root) : (l.adopt r).version = l.version := by
  simp only [adopt, recordNetwork]
  cases l.network <;> rfl

@[simp] theorem issued_adopt (l : Ledger) (r : Root) : (l.adopt r).issued = l.issued := by
  simp only [adopt, recordNetwork]
  cases l.network <;> rfl

theorem takes_iff_network {l : Ledger} {r : Root} :
    l.Takes r ↔ l.network = none ∨ l.network = some r.bytes := by
  cases known : l.network with
  | none => simp [Takes, known]
  | some bytes => simp [Takes, known]

theorem network_of_takes {l : Ledger} {r : Root} (takes : l.Takes r) (known : l.network ≠ none) :
    l.network = some r.bytes := by
  cases stored : l.network with
  | none => exact False.elim (known stored)
  | some bytes => rw [takes bytes stored]

theorem network_adopt {l : Ledger} {r : Root} (takes : l.Takes r) :
    (l.adopt r).network = some r.bytes := by
  simp only [adopt, recordNetwork]
  cases known : l.network with
  | none => rfl
  | some bytes => exact takes bytes known ▸ known

theorem adopt_eq_self {l : Ledger} (known : l.network ≠ none) (r : Root) : l.adopt r = l := by
  simp only [adopt, recordNetwork]
  cases hn : l.network with
  | none => exact False.elim (known hn)
  | some bytes => rfl

end SlashGuard.Ledger
