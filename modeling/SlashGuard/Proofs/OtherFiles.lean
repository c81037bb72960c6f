import SlashGuard.Proofs.Persistence
import SlashGuard.Proofs.Rows

/-! Texts beside an open ledger. Opening it puts files where nothing stood, so a text is read as
before, and one can be written exactly where it could be before. Wherever it is written but in the
files of the ledger, the ledger is kept and nothing else changes. -/
namespace SlashGuard

def Node.IsFile : Node → Prop
  | .text _ | .ledger .. | .journal => True
  | .directory | .device _ | .socket => False

theorem Path.parts_ne_nil {path : Path} (checked : path.check = .ok ()) : path.parts ≠ [] := by
  obtain ⟨parts⟩ := path
  rintro rfl
  simp [Path.check, Path.toText] at checked

namespace Files

variable {fs fs' : Files} {p q here : Place} {path : Path} {part s : String} {rest : List String}

theorem follow_cons_eq_ok : fs.follow here (part :: rest) = .ok q ↔ fs.isDirectory here = true ∧
    Path.checkName part = .ok () ∧ (fs.at? (here.step part)).isSome = true ∧
      fs.follow (here.step part) rest = .ok q := by
  rw [follow]
  cases dir : fs.isDirectory here with
  | false => simp [bind, Except.bind]
  | true =>
    cases checked : Path.checkName part with
    | error f => simp [bind, Except.bind]
    | ok _ => cases stands : fs.at? (here.step part) <;> simp [bind, Except.bind]

theorem isSome_of_isDirectory (dir : fs.isDirectory q = true) : (fs.at? q).isSome = true := by
  rw [isDirectory] at dir
  cases stands : fs.at? q with
  | none => simp [stands] at dir
  | some n => rfl

theorem isSome_of_follow (followed : fs.follow here rest = .ok q) (parts : rest ≠ []) :
    (fs.at? q).isSome = true := by
  induction rest generalizing here with
  | nil => exact absurd rfl parts
  | cons part rest ih =>
    obtain ⟨-, -, stands, further⟩ := follow_cons_eq_ok.mp followed
    by_cases last : rest = []
    · subst last
      cases further
      exact stands
    · exact ih further last

structure SameDirectories (fs fs' : Files) : Prop where
  here : fs'.here = fs.here
  same : ∀ q, fs'.isDirectory q = fs.isDirectory q

namespace SameDirectories

theorem symm (same : fs.SameDirectories fs') : fs'.SameDirectories fs :=
  ⟨same.here.symm, fun q => (same.same q).symm⟩

theorem start (same : fs.SameDirectories fs') (path : Path) : fs'.start path = fs.start path := by
  rw [Files.start, Files.start, same.here]

theorem follow (same : fs.SameDirectories fs') (dir : fs.isDirectory q = true)
    (followed : fs.follow here rest = .ok q) : fs'.follow here rest = .ok q := by
  induction rest generalizing here with
  | nil => exact followed
  | cons part rest ih =>
    obtain ⟨above, short, -, further⟩ := follow_cons_eq_ok.mp followed
    refine follow_cons_eq_ok.mpr ⟨(same.same here).trans above, short, ?_, ih further⟩
    apply isSome_of_isDirectory
    rw [same.same]
    cases rest with
    | nil =>
      cases further
      exact dir
    | cons next rest => exact (follow_cons_eq_ok.mp further).1

theorem seat (same : fs.SameDirectories fs') {x : Place × String} (found : fs.seat path = .ok x) :
    fs'.seat path = .ok x := by
  unfold Files.seat at found ⊢
  obtain ⟨⟨⟩, checked, found⟩ := bind_eq_ok.mp found
  rw [checked, ok_bind]
  split at found
  · exact found
  · obtain ⟨dir, followed, found⟩ := bind_eq_ok.mp found
    split at found
    · rename_i stands
      rw [same.start, same.follow stands followed, ok_bind, same.same, stands]
      exact found
    · contradiction

end SameDirectories

def target? (fs : Files) (path : Path) : Option Place :=
  match fs.seat path with
  | .ok (dir, last) =>
    if (path.isOpen || isDots last) || !(Path.checkName last).isOk then none
    else some (dir ++ [last])
  | .error _ => none

def keepsText (s : String) : Option Node → Except FileFault Bool
  | some .directory => .error .isDirectory
  | some .socket | some (.device .detached) => .error .noDevice
  | some (.device .full) => if s = "" then .ok false else .error .noSpace
  | some (.device _) => .ok false
  | _ => .ok true

def written (fs : Files) (q : Place) (s : String) (kept : Bool) : Files :=
  if kept then fs.put q (.text s) else fs

theorem logs_written (fs : Files) (q : Place) (s : String) (kept : Bool) :
    (fs.written q s kept).logs = fs.logs := by
  cases kept with
  | false => rfl
  | true => rfl

theorem at?_written (some : q ≠ []) (fs : Files) (s : String) (kept : Bool) (r : Place) :
    (fs.written q s kept).at? r = if kept ∧ r = q then .some (.text s) else fs.at? r := by
  cases kept with
  | false => simp [written]
  | true => simp [written, at?_put some]

theorem writeText_eq_ok : fs.writeText path s = .ok fs' ↔ ∃ q kept, fs.target? path = some q ∧
    keepsText s (fs.at? q) = .ok kept ∧ fs.written q s kept = fs' := by
  rw [writeText, target?]
  cases fs.seat path with
  | error f => simp
  | ok x =>
    obtain ⟨dir, last⟩ := x
    simp only [ok_bind]
    cases named : path.isOpen || isDots last with
    | true => simp [bind, Except.bind]
    | false =>
      cases short : Path.checkName last with
      | error f => simp [bind, Except.bind, Except.isOk, Except.toBool]
      | ok _ =>
        simp only [Bool.false_eq_true, if_false, Bool.false_or, Except.isOk, Except.toBool,
          Bool.not_true, Option.some.injEq, exists_and_left, exists_eq_left', ok_bind]
        unfold keepsText written
        by_cases empty : s = "" <;> split <;> simp_all [pure, Except.pure]

theorem target?_eq_some : fs.target? path = some q ↔ ∃ x, fs.seat path = .ok x ∧
    (path.isOpen || isDots x.2) = false ∧ (Path.checkName x.2).isOk = true ∧ x.1 ++ [x.2] = q := by
  rw [target?]
  cases fs.seat path with
  | error f => simp
  | ok x => simp [and_assoc]

theorem target?_of_parts {dir : Place} {last : String} (parts : path.parts = "" :: (dir ++ [last]))
    (checked : path.check = .ok ()) (name : isDots last = false)
    (short : Path.checkName last = .ok ()) (followed : fs.follow [] ("" :: dir) = .ok dir)
    (stands : fs.isDirectory dir = true) : fs.target? path = some (dir ++ [last]) := by
  have text := (isDots_eq_false.mp name).1.1
  have rooted : fs.start path = [] := by
    cases dir <;> simp [start, Path.isRooted, parts]
  have trimmed : path.trimmed = last :: ("" :: dir).reverse := by
    simp [Path.trimmed, parts, text]
  have seated : fs.seat path = .ok (dir, last) := by
    rw [seat, checked, ok_bind, trimmed, rooted]
    simp only [List.reverse_reverse, followed, ok_bind, stands, if_true]
    rfl
  have closed : path.isOpen = false := by
    simp [Path.isOpen, parts, List.getLast?_cons, text]
  refine target?_eq_some.mpr ⟨(dir, last), seated, ?_, ?_, rfl⟩
  · rw [closed, name]
    rfl
  · rw [short]
    rfl

theorem ne_nil_of_target? (target : fs.target? path = some q) : q ≠ [] := by
  obtain ⟨x, -, -, -, rfl⟩ := target?_eq_some.mp target
  simp

variable {o : Option Node} {kept : Bool}

theorem keepsText_of_isFile (files : ∀ n, o = some n → n.IsFile) : keepsText s o = .ok true := by
  cases o with
  | none => rfl
  | some n =>
    have file := files n rfl
    cases n with
    | text | ledger | journal => rfl
    | directory | device | socket => exact False.elim file

theorem keepsText_any (keeps : keepsText s o = .ok kept) (text : s ≠ "") (s' : String) :
    keepsText s' o = .ok kept := by
  unfold keepsText at keeps ⊢
  split at keeps <;> simp_all

def IsWritable (fs : Files) (path : Path) : Prop := ∀ s, ∃ fs', fs.writeText path s = .ok fs'

theorem isWritable_of_writeText (written : fs.writeText path s = .ok fs') (text : s ≠ "") :
    fs.IsWritable path := by
  intro s'
  obtain ⟨q, kept, target, keeps, -⟩ := writeText_eq_ok.mp written
  exact ⟨_, writeText_eq_ok.mpr ⟨q, kept, target, keepsText_any keeps text s', rfl⟩⟩

/-- Files stand where nothing stood, and all else is as it was. -/
structure Grows (fs fs' : Files) : Prop where
  here : fs'.here = fs.here
  kept : ∀ q n, fs.at? q = some n → fs'.at? q = some n
  files : ∀ q n, fs.at? q = none → fs'.at? q = some n → n.IsFile

namespace Grows

theorem sameDirectories (grows : fs.Grows fs') : fs.SameDirectories fs' := by
  refine ⟨grows.here, fun q => ?_⟩
  rw [isDirectory, isDirectory]
  cases stands : fs.at? q with
  | some n => rw [grows.kept q n stands]
  | none =>
    cases grown : fs'.at? q with
    | none => rfl
    | some n =>
      have file := grows.files q n stands grown
      cases n with
      | directory => exact False.elim file
      | _ => rfl

theorem follow (grows : fs.Grows fs') (followed : fs.follow here rest = .ok q) :
    fs'.follow here rest = .ok q := by
  induction rest generalizing here with
  | nil => exact followed
  | cons part rest ih =>
    obtain ⟨dir, short, stands, further⟩ := follow_cons_eq_ok.mp followed
    obtain ⟨n, stands⟩ := Option.isSome_iff_exists.mp stands
    have above := (grows.sameDirectories.same here).trans dir
    refine follow_cons_eq_ok.mpr ⟨above, short, ?_, ih further⟩
    rw [grows.kept _ n stands]
    rfl

theorem readText (grows : fs.Grows fs') (read : fs.readText path = .ok s) :
    fs'.readText path = .ok s := by
  unfold Files.readText Files.place at read ⊢
  obtain ⟨q, found, read⟩ := bind_eq_ok.mp read
  obtain ⟨⟨⟩, checked, followed⟩ := bind_eq_ok.mp found
  obtain ⟨n, stands⟩ := Option.isSome_iff_exists.mp
    (isSome_of_follow followed (Path.parts_ne_nil checked))
  rw [checked, ok_bind, grows.sameDirectories.start, grows.follow followed, ok_bind,
    grows.kept q n stands]
  rwa [stands] at read

theorem target?_eq (grows : fs.Grows fs') (path : Path) : fs'.target? path = fs.target? path := by
  have same := grows.sameDirectories
  have seat (x : Place × String) : fs'.seat path = .ok x ↔ fs.seat path = .ok x :=
    ⟨same.symm.seat, same.seat⟩
  ext q
  simp only [target?_eq_some, seat]

theorem keepsText_eq (grows : fs.Grows fs') (q : Place) (s : String) :
    keepsText s (fs'.at? q) = keepsText s (fs.at? q) := by
  cases stands : fs.at? q with
  | some n => rw [grows.kept q n stands]
  | none => exact keepsText_of_isFile fun n grown => grows.files q n stands grown

theorem writeText_eq_ok (grows : fs.Grows fs') {fs1 : Files} : fs'.writeText path s = .ok fs1 ↔
    ∃ q kept, fs.target? path = some q ∧ keepsText s (fs.at? q) = .ok kept ∧
      fs'.written q s kept = fs1 := by
  simp only [Files.writeText_eq_ok, grows.target?_eq, grows.keepsText_eq]

end Grows

/-- A ledger is kept in its file, and nobody has it open. A journal may be left beside it. -/
structure Keeps (fs : Files) (p : Place) (l : Ledger) : Prop where
  leads : fs.Leads p
  stored : fs.at? p = some (.ledger l true true)
  log : fs.at? p.log = none
  index : fs.at? p.index = none
  closed : fs.logs.lookup p = none

variable {l : Ledger}

theorem Rests.keeps (rests : fs.Rests p l) : fs.Keeps p l :=
  ⟨rests.leads, rests.stored, rests.log, rests.index, rests.closed⟩

theorem Rests.some (rests : fs.Rests p l) : p ≠ [] := by
  rintro rfl
  cases rests.stored

theorem Rests.close_opened (rests : fs.Rests p l) :
    ((fs.opened p l).close (.file (.sole p))).Keeps p l :=
  ((rests.opened rests.some).close rests.some).keeps

theorem Rests.grows (rests : fs.Rests p l) : fs.Grows (fs.opened p l) := by
  refine ⟨rfl, fun q n stands => ?_, fun q n free grown => ?_⟩
  · have index : q ≠ p.index := by
      rintro rfl
      cases rests.index.symm.trans stands
    have log : q ≠ p.log := by
      rintro rfl
      cases rests.log.symm.trans stands
    rw [at?_opened rests.some, if_neg index, if_neg log, stands]
  · rw [at?_opened rests.some] at grown
    split at grown
    · cases grown
      trivial
    · split at grown
      · cases grown
        trivial
      · cases free.symm.trans grown

theorem close_unwritten {stored n : Node} {isWhole : Bool} (file : fs.at? p = some stored)
    (log : fs.at? p.log = some n) (held : fs.logs.lookup p = some ⟨l, false, isWhole, false⟩) :
    fs.close (.file (.sole p)) = ((fs.remove p.log).remove p.index).dropLog p := by
  have torn : fs.isTorn p ⟨l, false, isWhole, false⟩ = false := isTorn_eq log (.inl rfl)
  simp [Files.close, Lease.sole, settle, held, file, torn]

/-- A text is written while a ledger is open, but not in the files of the ledger. Once that is
closed it is kept as it was, and everywhere else the tree is as if it had not been opened. -/
theorem Rests.close_written (rests : fs.Rests p l) (target : fs.target? path = .some q)
    (apart : q ∉ [p, p.log, p.index]) (keeps : keepsText s (fs.at? q) = .ok kept) :
    (((fs.opened p l).written q s kept).close (.file (.sole p))).Keeps p l ∧
      ∀ r, r ≠ p.log → r ≠ p.index →
        (((fs.opened p l).written q s kept).close (.file (.sole p))).at? r =
          (fs.written q s kept).at? r := by
  have own := p.apart rests.some
  simp only [List.mem_cons, List.not_mem_nil, or_false, not_or] at apart
  obtain ⟨notSelf, notLog, notIndex⟩ := apart
  generalize during : (fs.opened p l).written q s kept = fs1
  have at?_during (r : Place) (other : r ≠ q) : fs1.at? r = (fs.opened p l).at? r := by
    rw [← during, at?_written (ne_nil_of_target? target), if_neg (by simp [other])]
  have file : fs1.at? p = .some (.ledger l true true) := by
    rw [at?_during p (Ne.symm notSelf), at?_opened rests.some, if_neg own.index, if_neg own.log,
      rests.stored]
  have log : fs1.at? p.log = .some (.text "") := by
    rw [at?_during p.log (Ne.symm notLog), at?_opened rests.some, if_neg own.log_index, if_pos rfl]
  have held : fs1.logs.lookup p = .some ⟨l, false, false, false⟩ := by
    rw [← during, logs_written]
    exact lookup_putLog _ p _
  rw [close_unwritten file log held]
  have elsewhere (r : Place) (log : r ≠ p.log) (index : r ≠ p.index) :
      (((fs1.remove p.log).remove p.index).dropLog p).at? r = (fs.written q s kept).at? r := by
    rw [at?_cleared rests.some, if_neg index, if_neg log, ← during,
      at?_written (ne_nil_of_target? target), at?_written (ne_nil_of_target? target),
      at?_opened rests.some, if_neg index, if_neg log]
  refine ⟨⟨?leads, ?stored, ?log, ?index, lookup_dropLog _ p⟩, elsewhere⟩
  case leads =>
    intro r rest whole more
    have dir := rests.leads r rest whole more
    -- A directory takes no text, so what was written stands elsewhere.
    have other : r ≠ q := by
      rintro rfl
      rw [dir] at keeps
      cases keeps
    rw [elsewhere r (Place.ne_extend_of_above whole more _) (Place.ne_extend_of_above whole more _),
      at?_written (ne_nil_of_target? target), if_neg (by simp [other]), dir]
  case stored => rw [at?_cleared rests.some, if_neg own.index, if_neg own.log, file]
  case log => rw [at?_cleared rests.some, if_neg own.log_index, if_pos rfl]
  case index => rw [at?_cleared rests.some, if_pos rfl]

/-- A text that is written over the file of an open ledger stays there; one that is written to its
log or to the index of that is put away with them. -/
theorem Rests.close_over (rests : fs.Rests p l) (own : q ∈ [p, p.log, p.index]) (s : String) :
    (((fs.opened p l).put q (.text s)).close (.file (.sole p))).at? q =
      if q = p then .some (.text s) else none := by
  have apart := p.apart rests.some
  have some : q ≠ [] := by
    simp only [List.mem_cons, List.not_mem_nil, or_false] at own
    rcases own with rfl | rfl | rfl
    · exact rests.some
    · exact apart.log_some
    · exact apart.index_some
  have file : ∃ n, ((fs.opened p l).put q (.text s)).at? p = .some n := by
    rw [at?_put some, at?_opened rests.some, if_neg apart.index, if_neg apart.log, rests.stored]
    split <;> exact ⟨_, rfl⟩
  have log : ∃ n, ((fs.opened p l).put q (.text s)).at? p.log = .some n := by
    rw [at?_put some, at?_opened rests.some, if_neg apart.log_index, if_pos rfl]
    split <;> exact ⟨_, rfl⟩
  obtain ⟨stored, file⟩ := file
  obtain ⟨n, log⟩ := log
  rw [close_unwritten file log (lookup_putLog _ p _), at?_cleared rests.some, at?_put some,
    if_pos rfl]
  simp only [List.mem_cons, List.not_mem_nil, or_false] at own
  rcases own with rfl | rfl | rfl
  · rw [if_neg apart.index, if_neg apart.log, if_pos rfl]
  · rw [if_neg apart.log_index, if_pos rfl, if_neg apart.log.symm]
  · rw [if_pos rfl, if_neg apart.index.symm]

end Files

end SlashGuard
