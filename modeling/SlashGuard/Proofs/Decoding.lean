import Mathlib.Data.List.Forall2
import SlashGuard.Json.Decoder
import SlashGuard.Proofs.Readings

/-! Decoders on the readings of values: a list is read item by item, and a record field by field,
be it an object or an array. -/
namespace SlashGuard

theorem mapError_ok {α ε ε' : Type} (f : ε → ε') (a : α) :
    (Except.ok a : Except ε α).mapError f = .ok a := rfl

theorem mapError_eq_ok {α ε ε' : Type} {f : ε → ε'} {x : Except ε α} {a : α} :
    x.mapError f = .ok a ↔ x = .ok a := by
  cases x <;> simp [Except.mapError]

theorem mapM_eq_ok {α β ε : Type} {g : β → Except ε α} {xs : List α} {ys : List β} :
    ys.mapM g = .ok xs ↔ List.Forall₂ (fun x y => g y = .ok x) xs ys := by
  constructor
  · intro read
    induction ys generalizing xs with
    | nil =>
      cases read
      exact .nil
    | cons y ys ih =>
      rw [List.mapM_cons] at read
      cases first : g y with
      | error e =>
        rw [first] at read
        contradiction
      | ok x =>
        cases rest : ys.mapM g with
        | error e =>
          rw [first, rest] at read
          contradiction
        | ok xs =>
          rw [first, rest] at read
          cases read
          exact .cons first (ih rest)
  · intro each
    induction each with
    | nil => rfl
    | cons first _ ih =>
      rw [List.mapM_cons, first, ih]
      rfl

theorem mapM_eq_error {α β ε : Type} {g : α → Except ε β} {xs : List α} {e : ε} :
    xs.mapM g = .error e ↔
      ∃ before x after, xs = before ++ x :: after ∧ (∀ y ∈ before, ∃ b, g y = .ok b) ∧
        g x = .error e := by
  induction xs with
  | nil => simp [pure, Except.pure]
  | cons x xs ih =>
    rw [List.mapM_cons]
    cases first : g x with
    | error f =>
      simp only [bind, Except.bind, Except.error.injEq]
      constructor
      · rintro rfl
        exact ⟨[], x, xs, rfl, nofun, first⟩
      · rintro ⟨before, y, after, split, fine, bad⟩
        cases before with
        | nil =>
          cases split
          rw [first] at bad
          exact Except.error.inj bad
        | cons z zs =>
          cases split
          obtain ⟨b, good⟩ := fine _ List.mem_cons_self
          rw [first] at good
          contradiction
    | ok b =>
      have rest : ((Except.ok b : Except ε β) >>= fun b => xs.mapM g >>= fun bs => pure (b :: bs)) =
          .error e ↔ xs.mapM g = .error e := by
        cases xs.mapM g <;> simp [pure, Except.pure, bind, Except.bind]
      rw [rest, ih]
      constructor
      · rintro ⟨before, y, after, rfl, fine, bad⟩
        exact ⟨x :: before, y, after, rfl, List.forall_mem_cons.mpr ⟨⟨b, first⟩, fine⟩, bad⟩
      · rintro ⟨before, y, after, split, fine, bad⟩
        cases before with
        | nil =>
          cases split
          rw [first] at bad
          contradiction
        | cons z zs =>
          cases split
          exact ⟨zs, y, after, rfl, (List.forall_mem_cons.mp fine).2, bad⟩

theorem mapM_mapError {α β ε ε' : Type} (f : ε → ε') (g : β → Except ε α) (xs : List β) :
    (xs.mapM fun x => (g x).mapError f) = (xs.mapM g).mapError f := by
  induction xs with
  | nil => rfl
  | cons x xs ih =>
    rw [List.mapM_cons, List.mapM_cons, ih]
    cases g x with
    | error e => rfl
    | ok a => cases xs.mapM g <;> rfl

theorem mapM_map {α β ε : Type} {f : α → β} {g : β → Except ε α} {xs : List α}
    (each : ∀ x ∈ xs, g (f x) = .ok x) : (xs.map f).mapM g = .ok xs := by
  refine mapM_eq_ok.mpr (List.forall₂_map_right_iff.mpr ?_)
  exact List.forall₂_same.mpr each

namespace Json

namespace Value

def IsList {α : Type} (written : α → Value → Prop) (xs : List α) : Value → Prop
  | .array vs => List.Forall₂ written xs vs
  | _ => False

/-- The parts of a record by their names, whatever other members there are, or in an array. -/
def IsRecord (names : List String) (parts : List Value) : Value → Prop
  | .object ms => (ms.filter fun m => names.contains m.1) = names.zip parts
  | .array vs => vs = parts
  | _ => False

theorem isList_map {α : Type} {written : α → Value → Prop} {f : α → Value} {xs : List α}
    (each : ∀ x ∈ xs, written x (f x)) : IsList written xs (.array (xs.map f)) :=
  List.forall₂_map_right_iff.mpr (List.forall₂_same.mpr each)

end Value

open Decoder

open Value (IsList IsRecord)

theorem hold_text (p : Place) (s : String) : hold p (.string (some s)) = .ok () := by
  cases p <;> rfl

theorem hold_number (p : Place) (n : Number) : hold p (.number (some n)) = .ok () := by
  cases p <;> rfl

theorem skip_reading (p : Place) (v : Value) : skip p v.reading = .ok () := by
  cases p with
  | held => rfl
  | streamed room => simp only [skip, v.isIntact_reading, if_true]

section Decoders

variable {α σ : Type} {fields : List (Decoder.Field σ)} {p q : Place} {s t : σ}

theorem find?_name (distinct : (fields.map (·.name)).Nodup) {f : Decoder.Field σ}
    (member : f ∈ fields) : fields.find? (·.name == f.name) = some f := by
  induction fields with
  | nil => contradiction
  | cons g gs ih =>
    rw [List.map_cons, List.nodup_cons] at distinct
    rcases List.mem_cons.mp member with rfl | later
    · simp
    · have apart : g.name ≠ f.name := fun same => distinct.1 (same ▸ List.mem_map_of_mem later)
      rw [List.find?_cons_of_neg (by simpa using apart)]
      exact ih distinct.2 later

theorem members_known (p : Place) (ms : List (String × Value)) (s : σ) :
    members fields p (Value.memberReadings ms) s =
      members fields p (Value.memberReadings
        (ms.filter fun m => (fields.map (·.name)).contains m.1)) s := by
  induction ms generalizing s with
  | nil => rfl
  | cons m ms ih =>
    obtain ⟨key, v⟩ := m
    cases known : fields.find? (·.name == key) with
    | none =>
      have unknown : (fields.map (·.name)).contains key = false := by
        simpa [List.find?_eq_none] using known
      simp only [List.filter_cons, unknown, Value.memberReadings, members, known,
        skip_reading, bind, Except.bind]
      exact ih s
    | some f =>
      have own : (fields.map (·.name)).contains key = true := by
        have member := List.mem_map_of_mem (f := (·.name)) (List.mem_of_find?_eq_some known)
        have same : f.name = key := by simpa using List.find?_some known
        rw [List.contains_iff_mem, ← same]
        exact member
      simp only [List.filter_cons, own, if_true, Value.memberReadings, members, known, ih]

/-- Values that go into the fields of a draft one after the other. -/
inductive Fills (p : Place) : List (Decoder.Field σ) → List Value → σ → σ → Prop
  | nil {s : σ} : Fills p [] [] s s
  | cons {f : Decoder.Field σ} {fs : List (Decoder.Field σ)} {v : Value} {vs : List Value}
      {s t u : σ} (fresh : f.present s = false) (read : f.decode p v.reading s = .ok t)
      (rest : Fills p fs vs t u) : Fills p (f :: fs) (v :: vs) s u

theorem members_of_fills {all : List (Decoder.Field σ)} {vs : List Value}
    (filled : Fills p fields vs s t)
    (listed : ∀ f ∈ fields, all.find? (·.name == f.name) = some f) :
    members all p (Value.memberReadings ((fields.map (·.name)).zip vs)) s = .ok t := by
  induction filled with
  | nil => rfl
  | cons fresh read _ ih =>
    have own := listed _ List.mem_cons_self
    have others := ih fun g member => listed g (List.mem_cons_of_mem _ member)
    simp only [List.map_cons, List.zip_cons_cons, Value.memberReadings, members, own, fresh, read,
      bind, Except.bind, others]
    rfl

theorem items_of_fills {vs : List Value} (wanted : Nat → Fault) (n : Nat)
    (filled : Fills p fields vs s t) :
    items wanted p true n fields (Value.readings vs) s = .ok (t, []) := by
  induction filled generalizing n with
  | nil => rfl
  | cons _ read _ ih => simp only [Value.readings, items, read, bind, Except.bind, ih (n + 1)]

theorem record_reading {title : String} {blank : σ} {build : σ → Except Fault α}
    {names : List String} {v : Value} {a : α} (parts : List Value) (within : p.enter = .ok q)
    (named : fields.map (·.name) = names) (shape : IsRecord names parts v)
    (filled : Fills q fields parts blank s) (built : build s = .ok a) (distinct : names.Nodup) :
    record title fields blank build p v.reading = .ok a := by
  subst named
  cases v with
  | object ms =>
    have read := members_of_fills filled fun f => find?_name distinct
    rw [← shape, ← members_known] at read
    simp only [Value.reading, record, within, bind, Except.bind, read, finish, if_true,
      built]
  | array vs =>
    cases shape
    have read (wanted : Nat → Fault) := items_of_fills wanted 0 filled
    simp only [Value.reading, record, within, bind, Except.bind, read, built]
    cases p <;> rfl
  | null | bool _ | whole _ | string _ => contradiction

theorem list_reading {d : Decoder α} {written : α → Value → Prop} {xs : List α} {v : Value}
    (within : p.enter = .ok q) (listed : IsList written xs v)
    (each : ∀ x w, written x w → d q w.reading = .ok x) : list d p v.reading = .ok xs := by
  cases v with
  | array vs =>
    have items : (Value.readings vs).mapM (d q) = .ok xs := by
      rw [Value.readings_eq_map]
      exact mapM_eq_ok.mpr (List.forall₂_map_right_iff.mpr (listed.imp each))
    simp only [Value.reading, list, within, bind, Except.bind, items]
    rfl
  | null | bool _ | whole _ | string _ | object _ => contradiction

theorem option_some {d : Decoder α} {r : Reading} {a : α} (present : r ≠ .null)
    (read : d p r = .ok a) : option d p r = .ok (some a) := by
  rw [option, read]
  · rfl
  · exact present

theorem option_reading {d : Decoder α} {f : α → Value} {o : Option α}
    (present : ∀ a, (f a).reading ≠ .null) (read : ∀ a ∈ o, d p (f a).reading = .ok a) :
    option d p (Value.option f o).reading = .ok o := by
  cases o with
  | none => rfl
  | some a => exact option_some (present a) (read a rfl)

theorem field_read {β : Type} {name : String} {d : Decoder β} {get : σ → Option β}
    {set : β → σ → σ} {p : Place} {r : Reading} {s : σ} {x : β} (read : d p r = .ok x) :
    (field name d get set).decode p r s = .ok (set x s) := by
  simp only [field, read, Except.map]

theorem spare_read {β : Type} {name : String} {d : Decoder β} {get : σ → Option β}
    {set : β → σ → σ} {p : Place} {r : Reading} {s : σ} {x : β} (read : d p r = .ok x) :
    (field name d get set).orNone.decode p r s = .ok (set x s) := by
  simp only [Field.orNone, field, read, Except.map]

end Decoders

end Json

end SlashGuard
