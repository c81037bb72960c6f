import SlashGuard.Proofs.Decoding
import SlashGuard.Proofs.Rows

/-! A member that only puts into a record what would be there without it may be left out of the
text. -/
namespace SlashGuard

namespace Json.Decoder

section Insertion

variable {σ α : Type} {fields : List (Field σ)} {p q : Place} {f : Field σ} {r : Reading}
  {fill : σ → σ} {s t : σ} {m : Reading × Reading} {before after ms : List (Reading × Reading)}

def member (fields : List (Field σ)) (p : Place) (s : σ) : Reading × Reading → Except Fault σ
  | (.string (some key), r) =>
    match fields.find? (·.name == key) with
    | none => (skip p r).map fun _ => s
    | some f => if f.present s then .error (.duplicateField key) else f.decode p r s
  | _ => .error .illFormed

theorem members_eq_foldlM : members fields p ms s = ms.foldlM (member fields p) s := by
  induction ms generalizing s with
  | nil => rfl
  | cons m ms ih =>
    obtain ⟨k, r⟩ := m
    rw [List.foldlM_cons]
    cases k with
    | string name =>
      cases name with
      | none => rfl
      | some key =>
        cases known : fields.find? (·.name == key) with
        | none =>
          simp only [members, member, known, ih]
          cases skip p r <;> rfl
        | some f =>
          simp only [members, member, known]
          split
          · rfl
          · exact congrArg (f.decode p r s >>= ·) (funext fun _ => ih)
    | _ => rfl

structure Ignores (q : Place) (f : Field σ) (fill : σ → σ) (g : Field σ) : Prop where
  present : ∀ s, g.present (fill s) = g.present s
  commutes : ∀ x s, g.decode q x (fill s) = (g.decode q x s).map fill
  apart : ∀ x s t, g.decode q x s = .ok t → f.present t = f.present s

theorem field_ignores {β : Type} {name : String} {d : Decoder β} {get : σ → Option β}
    {set : β → σ → σ} (unread : ∀ s, get (fill s) = get s)
    (unset : ∀ x s, set x (fill s) = fill (set x s))
    (apart : ∀ x s, f.present (set x s) = f.present s) :
    Ignores q f fill (field name d get set) where
  present s := by simp only [field, unread]
  commutes x s := by
    simp only [field]
    cases d q x with
    | error e => rfl
    | ok b => exact congrArg Except.ok (unset b s)
  apart x s t done := by
    obtain ⟨b, -, rfl⟩ := map_eq_ok.mp done
    exact apart b s

theorem spare_ignores {β : Type} {name : String} {d : Decoder β} {get : σ → Option β}
    {set : β → σ → σ} (unread : ∀ s, get (fill s) = get s)
    (unset : ∀ x s, set x (fill s) = fill (set x s))
    (apart : ∀ x s, f.present (set x s) = f.present s) :
    Ignores q f fill (field name d get set).orNone :=
  have ignores : Ignores q f fill (field name d get set) := field_ignores unread unset apart
  ⟨ignores.present, ignores.commutes, ignores.apart⟩

/-- Reading `r` into `f` fills a draft in a way that no other field notices. -/
structure Idle (fields : List (Field σ)) (q : Place) (f : Field σ) (r : Reading) (fill : σ → σ) :
    Prop where
  known : fields.find? (·.name == f.name) = some f
  own : ∀ s, f.decode q r s = .ok (fill s)
  others : ∀ g ∈ fields, g.name ≠ f.name → Ignores q f fill g

theorem Idle.member_fill (idle : Idle fields q f r fill) (other : m.1 ≠ .string (some f.name)) :
    member fields q (fill s) m = (member fields q s m).map fill ∧
      ∀ t, member fields q s m = .ok t → f.present t = f.present s := by
  obtain ⟨k, x⟩ := m
  cases k with
  | string name =>
    cases name with
    | none => exact ⟨rfl, nofun⟩
    | some key =>
      cases known : fields.find? (·.name == key) with
      | none =>
        simp only [member, known]
        cases skip q x with
        | error e => exact ⟨rfl, nofun⟩
        | ok u => exact ⟨rfl, fun t done => by cases done; rfl⟩
      | some g =>
        have listed : g ∈ fields := List.mem_of_find?_eq_some known
        have named : g.name = key := by simpa using List.find?_some known
        have differs : g.name ≠ f.name := fun same => other (by rw [← named, same])
        have ignores := idle.others g listed differs
        simp only [member, known, ignores.present, ignores.commutes]
        split
        · exact ⟨rfl, nofun⟩
        · exact ⟨rfl, ignores.apart x s⟩
  | _ => exact ⟨rfl, nofun⟩

theorem Idle.members_fill (idle : Idle fields q f r fill)
    (lacks : ∀ m ∈ ms, m.1 ≠ .string (some f.name)) :
    ms.foldlM (member fields q) (fill s) = (ms.foldlM (member fields q) s).map fill ∧
      ∀ t, ms.foldlM (member fields q) s = .ok t → f.present t = f.present s := by
  induction ms generalizing s with
  | nil => exact ⟨rfl, fun t done => by cases done; rfl⟩
  | cons m ms ih =>
    obtain ⟨own, others⟩ := List.forall_mem_cons.mp lacks
    obtain ⟨filled, kept⟩ := idle.member_fill (s := s) own
    simp only [List.foldlM_cons, filled]
    cases step : member fields q s m with
    | error e => exact ⟨rfl, nofun⟩
    | ok t =>
      obtain ⟨further, later⟩ := ih (s := t) others
      exact ⟨further, fun u done => (later u done).trans (kept t step)⟩

theorem Idle.members_insert (idle : Idle fields q f r fill) (unset : f.present s = false)
    (lacks : ∀ m ∈ before ++ after, m.1 ≠ .string (some f.name)) :
    members fields q (before ++ (.string (some f.name), r) :: after) s =
      (members fields q (before ++ after) s).map fill ∧
    ∀ t, members fields q (before ++ after) s = .ok t → f.present t = false := by
  obtain ⟨early, late⟩ := List.forall_mem_append.mp lacks
  simp only [members_eq_foldlM, List.foldlM_append, List.foldlM_cons]
  cases first : before.foldlM (member fields q) s with
  | error e => exact ⟨rfl, nofun⟩
  | ok t =>
    have still : f.present t = false := by rw [(idle.members_fill early).2 t first, unset]
    have read : member fields q t (.string (some f.name), r) = .ok (fill t) := by
      simp [member, idle.known, still, idle.own]
    obtain ⟨filled, kept⟩ := idle.members_fill (s := t) late
    simp only [ok_bind, read]
    exact ⟨filled, fun u done => (kept u done).trans still⟩

theorem Idle.record_insert {title : String} {blank : σ} {build : σ → Except Fault α} {closed : Bool}
    (idle : Idle fields q f r fill) (within : p.enter = .ok q) (unset : f.present blank = false)
    (spare : ∀ s, f.present s = false → build (fill s) = build s)
    (lacks : ∀ m ∈ before ++ after, m.1 ≠ .string (some f.name)) :
    record title fields blank build p
        (.object (before ++ (.string (some f.name), r) :: after) closed) =
      record title fields blank build p (.object (before ++ after) closed) := by
  obtain ⟨filled, kept⟩ := idle.members_insert unset lacks
  simp only [record, within, ok_bind, filled]
  cases read : members fields q (before ++ after) blank with
  | error e => rfl
  | ok t => simp only [Except.map, ok_bind, spare t (kept t read)]

end Insertion

end Json.Decoder

end SlashGuard
