import SlashGuard.Files.Opening

/-! Trees of files, as far as the files of one ledger need them. What is written at the place of a
ledger or beside it leaves the directories above, so the place is found again. -/
namespace SlashGuard

theorem isDots_eq_false {part : String} :
    isDots part = false ↔ (part ≠ "" ∧ part ≠ ".") ∧ part ≠ ".." := by
  simp only [isDots, Bool.or_eq_false_iff, decide_eq_false_iff_not, ne_eq]

namespace Place

variable {p q : Place}

theorem extend_concat (dir : Place) (name text : String) :
    Place.extend (dir ++ [name]) text = dir ++ [name ++ text] := by
  simp [Place.extend]

@[simp] theorem extend_empty (p : Place) : p.extend "" = p := by
  rcases List.eq_nil_or_concat p with rfl | ⟨dir, name, rfl⟩
  · rfl
  · rw [List.concat_eq_append, extend_concat, String.append_empty]

theorem extend_ne_nil (some : p ≠ []) (text : String) : p.extend text ≠ [] := by
  rcases List.eq_nil_or_concat p with none | ⟨dir, name, rfl⟩
  · exact False.elim (some none)
  · rw [List.concat_eq_append, extend_concat]
    simp

theorem extend_inj (some : p ≠ []) {s t : String} : p.extend s = p.extend t ↔ s = t := by
  rcases List.eq_nil_or_concat p with none | ⟨dir, name, rfl⟩
  · exact False.elim (some none)
  · rw [List.concat_eq_append, extend_concat, extend_concat]
    simp

/-- The places of a ledger and of the files beside it are apart. -/
structure Apart (p : Place) : Prop where
  journal_some : p.journal ≠ []
  log_some : p.log ≠ []
  index_some : p.index ≠ []
  journal : p ≠ p.journal
  log : p ≠ p.log
  index : p ≠ p.index
  journal_log : p.journal ≠ p.log
  journal_index : p.journal ≠ p.index
  log_index : p.log ≠ p.index

theorem apart (p : Place) (some : p ≠ []) : p.Apart := by
  have other {s t : String} (apart : s ≠ t) : p.extend s ≠ p.extend t :=
    fun same => apart ((extend_inj some).mp same)
  have beside {t : String} (apart : "" ≠ t) : p ≠ p.extend t := by
    have other := other apart
    rwa [extend_empty] at other
  constructor
  case journal_some => exact extend_ne_nil some _
  case log_some => exact extend_ne_nil some _
  case index_some => exact extend_ne_nil some _
  case journal => exact beside (by decide)
  case log => exact beside (by decide)
  case index => exact beside (by decide)
  case journal_log => exact other (by decide)
  case journal_index => exact other (by decide)
  case log_index => exact other (by decide)

theorem length_extend (p : Place) (text : String) : (p.extend text).length = p.length := by
  rcases List.eq_nil_or_concat p with rfl | ⟨dir, name, rfl⟩
  · rfl
  · rw [List.concat_eq_append, extend_concat]
    simp

theorem ne_extend_of_above {rest : List String} (whole : q ++ rest = p) (more : rest ≠ [])
    (text : String) : q ≠ p.extend text := by
  intro same
  have long := congrArg List.length whole
  rw [same, List.length_append, length_extend] at long
  exact more (List.eq_nil_of_length_eq_zero (by omega))

theorem step_name {part : String} (name : isDots part = false) (here : Place) :
    here.step part = here ++ [part] := by
  rw [isDots_eq_false] at name
  simp [step, name]

theorem size_concat (p : Place) (name : String) :
    Place.size (p ++ [name]) = p.size + 1 + name.utf8ByteSize := by
  simp [Place.size]

theorem size_le_append (p : Place) (rest : List String) : p.size ≤ Place.size (p ++ rest) := by
  induction rest generalizing p with
  | nil => simp
  | cons name rest ih =>
    have longer := ih (p ++ [name])
    rw [size_concat, List.append_assoc] at longer
    exact Nat.le_trans (by omega) longer

end Place

namespace Files

variable {fs : Files} {p q : Place}

theorem lookup_filter {α : Type} (p q : Place) (xs : List (Place × α)) :
    (xs.filter fun x => x.1 ≠ p).lookup q = if q = p then none else xs.lookup q := by
  induction xs with
  | nil => simp
  | cons x xs ih =>
    obtain ⟨r, a⟩ := x
    by_cases own : r = p
    · rw [List.filter_cons, if_neg (by simpa using own), ih]
      split
      · rfl
      · rename_i other
        have apart : (q == r) = false := by simpa [own] using other
        rw [List.lookup_cons, apart]
    · rw [List.filter_cons, if_pos (by simpa using own), List.lookup_cons, List.lookup_cons, ih]
      by_cases found : q = r
      · simp [found, own]
      · have apart : (q == r) = false := by simpa using found
        rw [apart]

theorem at?_remove (some : p ≠ []) (fs : Files) (q : Place) :
    (fs.remove p).at? q = if q = p then none else fs.at? q := by
  unfold at? remove
  by_cases root : q = []
  · rw [if_pos root, if_pos root, if_neg]
    intro same
    exact some (same.symm.trans root)
  · rw [if_neg root, if_neg root, lookup_filter]

theorem at?_put (some : p ≠ []) (fs : Files) (q : Place) (n : Node) :
    (fs.put p n).at? q = if q = p then .some n else fs.at? q := by
  unfold at? put
  by_cases root : q = []
  · rw [if_pos root, if_pos root, if_neg]
    intro same
    exact some (same.symm.trans root)
  · rw [if_neg root, if_neg root, List.lookup_cons, lookup_filter]
    by_cases own : q = p
    · simp [own]
    · have apart : (q == p) = false := by simpa using own
      rw [apart, if_neg own, if_neg own]

@[simp] theorem lookup_putLog (fs : Files) (p : Place) (log : Log) :
    (fs.putLog p log).logs.lookup p = some log := by
  simp [putLog]

@[simp] theorem lookup_dropLog (fs : Files) (p : Place) : (fs.dropLog p).logs.lookup p = none := by
  rw [dropLog, lookup_filter, if_pos rfl]

def Leads (fs : Files) (p : Place) : Prop :=
  ∀ q rest, q ++ rest = p → rest ≠ [] → fs.at? q = some .directory

theorem Leads.put (leads : fs.Leads p) (some : p ≠ []) (text : String) (n : Node) :
    (fs.put (p.extend text) n).Leads p := by
  intro q rest whole more
  rw [at?_put (Place.extend_ne_nil some text), if_neg (Place.ne_extend_of_above whole more text)]
  exact leads q rest whole more

theorem Leads.put_self (leads : fs.Leads p) (some : p ≠ []) (n : Node) : (fs.put p n).Leads p := by
  have put := leads.put some "" n
  rwa [Place.extend_empty] at put

theorem Leads.remove (leads : fs.Leads p) (some : p ≠ []) (text : String) :
    (fs.remove (p.extend text)).Leads p := by
  intro q rest whole more
  rw [at?_remove (Place.extend_ne_nil some text), if_neg (Place.ne_extend_of_above whole more text)]
  exact leads q rest whole more

end Files

abbrev Locator.plain (name : String) (mode : Mode) : Locator := ⟨name, mode, .shared, false, none⟩

/-- A name is the path of a place from the root: it leads nowhere back, and neither it nor the names
of the files beside the place are too long. -/
structure Spells (name : String) (p : Place) : Prop where
  parts : (Path.ofText name).parts = "" :: p
  plain : ∀ mode, Locator.read name mode = .ok (.plain name mode)
  nul : Files.nulAt name.toList = none
  names : ∀ part ∈ p, isDots part = false ∧ Path.checkName part = .ok ()
  beside : ∀ q ∈ [p.journal, p.log], (Path.checkName (q.getLast?.getD "")).isOk = true
  size : 2 ≤ p.size ∧ p.size + Files.journalSize ≤ Files.storedLimit
  above : p.dropLast ≠ [] → (Path.ofNames true p.dropLast).check = .ok ()

namespace Spells

variable {fs : Files} {p here : Place} {name part : String} {rest more : List String}

theorem some (spells : Spells name p) : p ≠ [] := by
  rintro rfl
  exact absurd spells.size.1 (by decide)

theorem follow_cons (spells : Spells name p) (leads : fs.Leads p)
    (whole : here ++ part :: rest ++ more = p) :
    fs.follow here (part :: rest) =
      if (fs.at? (here ++ [part])).isNone then .error .missing
      else fs.follow (here ++ [part]) rest := by
  have inside : part ∈ p := by simp [← whole]
  obtain ⟨dotless, checked⟩ := spells.names part inside
  have dir := leads here (part :: rest ++ more) (by rw [← whole, List.append_assoc]) (by simp)
  rw [Files.follow, if_neg (by simp [Files.isDirectory, dir]), checked, Place.step_name dotless]
  cases fs.at? (here ++ [part]) with
  | none => rfl
  | some n => rfl

theorem follow_above (spells : Spells name p) (leads : fs.Leads p) (here : Place)
    (whole : here ++ rest ++ more = p) (below : more ≠ []) :
    fs.follow here rest = .ok (here ++ rest) := by
  induction rest generalizing here with
  | nil => rw [Files.follow, List.append_nil]
  | cons part rest ih =>
    rw [spells.follow_cons leads whole, List.append_cons here part rest]
    rw [List.append_cons here part rest] at whole
    have dir := leads (here ++ [part]) (rest ++ more) (by rw [← whole, List.append_assoc _ rest])
      (by simp [below])
    rw [dir, if_neg (by simp)]
    exact ih (here ++ [part]) whole

theorem follow (spells : Spells name p) (leads : fs.Leads p) (here : Place) (rest : List String)
    (whole : here ++ rest ++ more = p) :
    fs.follow here rest = .ok (here ++ rest) ∨ fs.follow here rest = .error .missing := by
  induction rest generalizing here with
  | nil => exact .inl (by rw [Files.follow, List.append_nil])
  | cons part rest ih =>
    rw [spells.follow_cons leads whole]
    split
    · exact .inr rfl
    · rw [List.append_cons here part rest] at whole ⊢
      exact ih (here ++ [part]) whole

theorem storedPlace_rest (spells : Spells name p) (leads : fs.Leads p) (here : Place)
    (whole : here ++ rest = p) :
    fs.storedPlace here rest = .some p := by
  induction rest generalizing here with
  | nil =>
    rw [List.append_nil] at whole
    rw [Files.storedPlace, whole, if_pos spells.size]
  | cons part rest ih =>
    have dotless := (spells.names part (by simp [← whole])).1
    rw [List.append_cons here part rest] at whole
    have short : ¬ Files.storedLimit < here.size + part.utf8ByteSize + 2 := by
      have longer := Place.size_le_append (here ++ [part]) rest
      rw [whole, Place.size_concat] at longer
      have limit := spells.size.2
      rw [Files.journalSize] at limit
      omega
    rw [Files.storedPlace, dotless, if_neg Bool.false_ne_true, if_neg short,
      Place.step_name dotless]
    -- Only the last part can be missing, and a file that is to be made may be.
    rcases spells.follow leads [] (here ++ [part]) whole with found | missing
    · rw [found]
      exact ih (here ++ [part]) whole
    · rw [missing]
      exact ih (here ++ [part]) whole

theorem isRooted (spells : Spells name p) : (Path.ofText name).isRooted = true := by
  obtain ⟨part, rest, rfl⟩ := List.exists_cons_of_ne_nil spells.some
  rw [Path.isRooted, spells.parts]
  rfl

theorem storedPlace (spells : Spells name p) (leads : fs.Leads p) :
    fs.storedPlace (fs.start (Path.ofText name)) (Path.ofText name).parts = .some p := by
  rw [Files.start, spells.isRooted, if_pos rfl, spells.parts, Files.storedPlace,
    if_pos (by rfl)]
  exact spells.storedPlace_rest leads [] rfl

theorem names_eq (spells : Spells name p) : (Path.ofText name).names = p := by
  rw [Path.names, spells.parts, List.filter_cons, if_neg (by simp)]
  apply List.filter_eq_self.mpr
  intro part inside
  have dotless := isDots_eq_false.mp (spells.names part inside).1
  simp [dotless]

section

variable {dir : Place} {last : String}

theorem start_above (fs : Files) (dir : Place) (last : String) :
    fs.start (Path.ofNames true (dir ++ [last])) = [] := by
  cases dir with
  | nil => rfl
  | cons part rest => rfl

theorem place_above (spells : Spells name p) (leads : fs.Leads p) (whole : dir ++ [last] ++ more = p)
    (below : more ≠ []) (checked : (Path.ofNames true (dir ++ [last])).check = .ok ()) :
    fs.place (Path.ofNames true (dir ++ [last])) = .ok (dir ++ [last]) := by
  rw [Files.place, checked, start_above]
  exact spells.follow_above leads [] whole below

theorem seat_above (spells : Spells name p) (leads : fs.Leads p) (whole : dir ++ [last] ++ more = p)
    (checked : (Path.ofNames true (dir ++ [last])).check = .ok ()) :
    fs.seat (Path.ofNames true (dir ++ [last])) = .ok (dir, last) := by
  have dotless := isDots_eq_false.mp (spells.names last (by simp [← whole])).1
  have trimmed : (Path.ofNames true (dir ++ [last])).trimmed = last :: (dir.reverse ++ [""]) := by
    simp [Path.trimmed, Path.ofNames, dotless]
  rw [List.append_assoc] at whole
  have followed : fs.follow [] (dir.reverse ++ [""]).reverse = .ok dir := by
    rw [List.reverse_append, List.reverse_reverse]
    exact spells.follow_above leads [] whole (by simp)
  have stands := leads dir ([last] ++ more) whole (by simp)
  rw [Files.seat, checked, trimmed, start_above]
  simp only [bind, Except.bind, followed, Files.isDirectory, stands, if_true]
  rfl

theorem ensure_above (spells : Spells name p) (leads : fs.Leads p)
    (whole : dir ++ [last] ++ more = p) (below : more ≠ [])
    (checked : (Path.ofNames true (dir ++ [last])).check = .ok ()) :
    fs.ensure (Path.ofNames true (dir ++ [last])) = .ok fs := by
  have stands := leads (dir ++ [last]) more whole below
  obtain ⟨dotless, short⟩ := spells.names last (by simp [← whole])
  have made : fs.make (Path.ofNames true (dir ++ [last])) = .error .exists := by
    rw [Files.make, spells.seat_above leads whole checked]
    simp [bind, Except.bind, dotless, short, stands]
  rw [Files.ensure, made]
  simp [spells.place_above leads whole below checked, Files.isDirectory, stands]

end

theorem makeParents (spells : Spells name p) (leads : fs.Leads p) :
    fs.makeParents (Path.ofText name) = (.ok (), fs) := by
  rw [Files.makeParents, spells.names_eq, spells.isRooted, List.tail_reverse]
  rcases List.eq_nil_or_concat p.dropLast with none | ⟨dir, last, above⟩
  · rw [none]
    rfl
  · have whole := List.dropLast_concat_getLast spells.some
    rw [List.concat_eq_append] at above
    rw [above] at whole
    have checked := spells.above (by simp [above])
    rw [above] at checked
    rw [above, List.reverse_append, List.reverse_singleton, List.singleton_append, Files.ensureAll]
    have ensured := spells.ensure_above leads whole (by simp) checked
    simp [ensured]

end Spells

theorem spells_short : Spells "/db/s.db" ["db", "s.db"] := by
  constructor
  case parts => decide
  case plain =>
    intro mode
    rfl
  case nul => decide
  case names =>
    intro part inside
    simp only [List.mem_cons, List.not_mem_nil, or_false] at inside
    rcases inside with rfl | rfl
    · exact ⟨by decide, rfl⟩
    · exact ⟨by decide, rfl⟩
  case beside => decide
  case size => decide
  case above =>
    intro _
    show (Path.ofNames true ["db"]).check = .ok ()
    have nul : (Path.ofNames true ["db"]).toText.contains '\x00' = false := by
      simp [Path.ofNames, Path.toText]
    rw [Path.check, nul]
    rfl

theorem Files.leads_short {fs : Files} (stands : fs.at? ["db"] = some .directory) :
    fs.Leads ["db", "s.db"] := by
  intro q rest whole more
  rcases q with - | ⟨first, - | ⟨second, others⟩⟩
  · rfl
  · cases whole
    exact stands
  · obtain ⟨rfl, rfl⟩ := List.append_eq_nil_iff.mp (List.cons.inj (List.cons.inj whole).2).2
    exact False.elim (more rfl)

end SlashGuard
