import SlashGuard.Proofs.Order

/-! The join of a history with rows that an import brings. It depends on the set of the rows alone,
joins compose to the join with all rows, and a mark of the floor becomes the highest of its old
value and all that is stored of its kind. -/
namespace SlashGuard.History

/-- Stores blocks and attestations and raises the marks of each kind that there are rows of. -/
def join (bs : List BlockRow) (vs : List AttestationRow) (h : History) : History :=
  (h.importBlocks bs).importAttestations vs

variable {h : History} {bs : List BlockRow} {vs : List AttestationRow}

theorem importBlocks_nil : h.importBlocks [] = h := rfl

theorem importBlocks_eq {v : Int} (nonempty : bs ≠ [])
    (top : ((insertAll BlockRow.place bs h.blocks).map BlockRow.slot).max? = some v) :
    h.importBlocks bs = ⟨insertAll BlockRow.place bs h.blocks, h.attestations,
      some { h.floorOrEmpty with slot := some (max (h.floorOrEmpty.slot.getD v) v) }⟩ := by
  cases bs with
  | nil => contradiction
  | cons b bs =>
    simp only [importBlocks, topSlot, top]
    rfl

theorem exists_topSlot (xs : List BlockRow) (nonempty : bs ≠ []) :
    ∃ v, ((insertAll BlockRow.place bs xs).map BlockRow.slot).max? = some v := by
  obtain ⟨b, hb⟩ := List.exists_mem_of_ne_nil bs nonempty
  have stored : insertAll BlockRow.place bs xs ≠ [] :=
    List.ne_nil_of_mem (mem_insertAll.mpr (.inl hb))
  obtain ⟨top, -, highest, -⟩ := exists_max BlockRow.slot stored
  exact ⟨top.slot, highest⟩

theorem max_le_of_subset {α : Type} {f : α → Int} {xs ys : List α} {v w : Int}
    (hv : (xs.map f).max? = some v) (hw : (ys.map f).max? = some w) (sub : ∀ x ∈ xs, x ∈ ys) :
    v ≤ w := by
  obtain ⟨x, hx, rfl⟩ := List.mem_map.mp (List.max?_eq_some_iff.mp hv).1
  exact (List.max?_eq_some_iff.mp hw).2 _ (List.mem_map_of_mem (sub x hx))

theorem insertAll_append {α : Type} [DecidableEq α] (place : α → List Int) (rs ss xs : List α) :
    insertAll place (rs ++ ss) xs = insertAll place ss (insertAll place rs xs) := by
  simp only [insertAll, List.foldl_append]

/-- A mark that is raised twice stands where the higher raise alone puts it. -/
theorem max_max_getD {v w : Int} (le : v ≤ w) (m : Option Int) :
    max (max (m.getD v) v) w = max (m.getD w) w := by
  cases m with
  | none => simp only [Option.getD_none]; omega
  | some x => simp only [Option.getD_some]; omega

theorem importBlocks_append (rs ss : List BlockRow) :
    h.importBlocks (rs ++ ss) = (h.importBlocks rs).importBlocks ss := by
  by_cases first : rs = []
  · rw [first]
    rfl
  by_cases second : ss = []
  · rw [second, List.append_nil]
    rfl
  obtain ⟨v, hv⟩ := exists_topSlot h.blocks first
  obtain ⟨w, hw⟩ := exists_topSlot (insertAll BlockRow.place rs h.blocks) second
  have le : v ≤ w := max_le_of_subset hv hw fun x hx => mem_insertAll.mpr (.inr hx)
  have whole : ((insertAll BlockRow.place (rs ++ ss) h.blocks).map BlockRow.slot).max? = some w := by
    rw [insertAll_append]
    exact hw
  rw [importBlocks_eq (by simp [first]) whole, importBlocks_eq first hv,
    importBlocks_eq second hw, insertAll_append]
  simp only [floorOrEmpty, Option.getD_some, max_max_getD le]

theorem Arranged.importBlocks_congr (arranged : h.Arranged) {rs ss : List BlockRow}
    (same : ∀ x, x ∈ rs ↔ x ∈ ss) : h.importBlocks rs = h.importBlocks ss := by
  have rows := arranged.blocks.insertAll_congr BlockRow.place_injective same
  by_cases none : rs = []
  · have none' : ss = [] := List.eq_nil_iff_forall_not_mem.mpr fun x hx => by
      have := (same x).mpr hx
      simp [none] at this
    rw [none, none']
  · have some' : ss ≠ [] := by
      obtain ⟨x, hx⟩ := List.exists_mem_of_ne_nil rs none
      exact List.ne_nil_of_mem ((same x).mp hx)
    obtain ⟨v, hv⟩ := exists_topSlot h.blocks none
    rw [importBlocks_eq none hv, importBlocks_eq some' (rows ▸ hv), rows]

theorem importAttestations_nil : h.importAttestations [] = h := rfl

theorem importAttestations_eq {s t : Int} (nonempty : vs ≠ [])
    (source : ((insertAll AttestationRow.place vs h.attestations).map
      AttestationRow.source).max? = some s)
    (target : ((insertAll AttestationRow.place vs h.attestations).map
      AttestationRow.target).max? = some t) :
    h.importAttestations vs = ⟨h.blocks, insertAll AttestationRow.place vs h.attestations,
      some { h.floorOrEmpty with
        source := some (max (h.floorOrEmpty.source.getD s) s)
        target := some (max (h.floorOrEmpty.target.getD t) t) }⟩ := by
  cases vs with
  | nil => contradiction
  | cons a as =>
    simp only [importAttestations, topEpochs, source, target]
    rfl

theorem exists_topEpochs (xs : List AttestationRow) (nonempty : vs ≠ []) : ∃ s t,
    ((insertAll AttestationRow.place vs xs).map AttestationRow.source).max? = some s ∧
      ((insertAll AttestationRow.place vs xs).map AttestationRow.target).max? = some t := by
  obtain ⟨a, ha⟩ := List.exists_mem_of_ne_nil vs nonempty
  have stored : insertAll AttestationRow.place vs xs ≠ [] :=
    List.ne_nil_of_mem (mem_insertAll.mpr (.inl ha))
  obtain ⟨begins, -, highest, -⟩ := exists_max AttestationRow.source stored
  obtain ⟨ends, -, highest', -⟩ := exists_max AttestationRow.target stored
  exact ⟨begins.source, ends.target, highest, highest'⟩

theorem importAttestations_append (rs ss : List AttestationRow) :
    h.importAttestations (rs ++ ss) = (h.importAttestations rs).importAttestations ss := by
  by_cases first : rs = []
  · rw [first]
    rfl
  by_cases second : ss = []
  · rw [second, List.append_nil]
    rfl
  obtain ⟨s, t, hs, ht⟩ := exists_topEpochs h.attestations first
  obtain ⟨s', t', hs', ht'⟩ :=
    exists_topEpochs (insertAll AttestationRow.place rs h.attestations) second
  have begins : s ≤ s' := max_le_of_subset hs hs' fun x hx => mem_insertAll.mpr (.inr hx)
  have ends : t ≤ t' := max_le_of_subset ht ht' fun x hx => mem_insertAll.mpr (.inr hx)
  have sources : ((insertAll AttestationRow.place (rs ++ ss) h.attestations).map
      AttestationRow.source).max? = some s' := by
    rw [insertAll_append]
    exact hs'
  have targets : ((insertAll AttestationRow.place (rs ++ ss) h.attestations).map
      AttestationRow.target).max? = some t' := by
    rw [insertAll_append]
    exact ht'
  rw [importAttestations_eq (by simp [first]) sources targets, importAttestations_eq first hs ht,
    importAttestations_eq second hs' ht', insertAll_append]
  simp only [floorOrEmpty, Option.getD_some, max_max_getD begins, max_max_getD ends]

theorem Arranged.importAttestations_congr (arranged : h.Arranged) {rs ss : List AttestationRow}
    (same : ∀ x, x ∈ rs ↔ x ∈ ss) : h.importAttestations rs = h.importAttestations ss := by
  have rows := arranged.votes.insertAll_congr AttestationRow.place_injective same
  by_cases none : rs = []
  · have none' : ss = [] := List.eq_nil_iff_forall_not_mem.mpr fun x hx => by
      have := (same x).mpr hx
      simp [none] at this
    rw [none, none']
  · have some' : ss ≠ [] := by
      obtain ⟨x, hx⟩ := List.exists_mem_of_ne_nil rs none
      exact List.ne_nil_of_mem ((same x).mp hx)
    obtain ⟨s, t, hs, ht⟩ := exists_topEpochs h.attestations none
    rw [importAttestations_eq none hs ht, importAttestations_eq some' (rows ▸ hs) (rows ▸ ht), rows]

theorem attestations_importBlocks (bs : List BlockRow) :
    (h.importBlocks bs).attestations = h.attestations := by
  rcases importBlocks_cases bs h with ⟨-, same⟩ | ⟨-, -, -, -, votes, -⟩
  · rw [same]
  · exact votes

theorem blocks_importAttestations (vs : List AttestationRow) :
    (h.importAttestations vs).blocks = h.blocks := by
  rcases importAttestations_cases vs h with ⟨-, same⟩ | ⟨-, -, -, -, -, -, blocks, -⟩
  · rw [same]
  · exact blocks

theorem importBlocks_importAttestations (bs : List BlockRow) (vs : List AttestationRow) :
    (h.importAttestations vs).importBlocks bs = (h.importBlocks bs).importAttestations vs := by
  by_cases blocks : bs = []
  · rw [blocks]
    rfl
  by_cases votes : vs = []
  · rw [votes]
    rfl
  obtain ⟨v, hv⟩ := exists_topSlot h.blocks blocks
  obtain ⟨s, t, hs, ht⟩ := exists_topEpochs h.attestations votes
  have hv' := hv
  have hs' := hs
  have ht' := ht
  rw [← blocks_importAttestations vs] at hv'
  rw [← attestations_importBlocks bs] at hs' ht'
  rw [importBlocks_eq blocks hv', importAttestations_eq votes hs' ht',
    importAttestations_eq votes hs ht, importBlocks_eq blocks hv]
  rfl

theorem join_nil : h.join [] [] = h := rfl

theorem join_join (bs bs' : List BlockRow) (vs vs' : List AttestationRow) :
    (h.join bs vs).join bs' vs' = h.join (bs ++ bs') (vs ++ vs') := by
  rw [join, join, join, importBlocks_importAttestations, importBlocks_append,
    importAttestations_append]

theorem Arranged.join (arranged : h.Arranged) (bs : List BlockRow) (vs : List AttestationRow) :
    (h.join bs vs).Arranged :=
  (arranged.importBlocks bs).importAttestations vs

theorem Arranged.join_congr (arranged : h.Arranged) {bs bs' : List BlockRow}
    {vs vs' : List AttestationRow} (blocks : ∀ x, x ∈ bs ↔ x ∈ bs')
    (votes : ∀ x, x ∈ vs ↔ x ∈ vs') : h.join bs vs = h.join bs' vs' := by
  rw [History.join, History.join, arranged.importBlocks_congr blocks,
    (arranged.importBlocks bs').importAttestations_congr votes]

theorem blocks_join : (h.join bs vs).blocks = insertAll BlockRow.place bs h.blocks := by
  rw [join, blocks_importAttestations]
  rcases importBlocks_cases bs h with ⟨none, same⟩ | ⟨-, -, -, blocks, -⟩
  · rw [same, none]
    rfl
  · exact blocks

theorem attestations_join :
    (h.join bs vs).attestations = insertAll AttestationRow.place vs h.attestations := by
  rw [join, ← importBlocks_importAttestations, attestations_importBlocks]
  rcases importAttestations_cases vs h with ⟨none, same⟩ | ⟨-, -, -, -, -, -, -, votes, -⟩
  · rw [same, none]
    rfl
  · exact votes

def highest (old : Option Int) (vs : List Int) : Option Int := (old.toList ++ vs).max?

theorem highest_eq {vs : List Int} {v : Int} (top : vs.max? = some v) (old : Option Int) :
    highest old vs = some (max (old.getD v) v) := by
  cases old with
  | none => simp [highest, top]
  | some low => simp [highest, List.max?_cons, top]

theorem floor_join : (h.join bs vs).floorOrEmpty = ⟨
    if bs = [] then h.floorOrEmpty.slot
      else highest h.floorOrEmpty.slot ((h.join bs vs).blocks.map BlockRow.slot),
    if vs = [] then h.floorOrEmpty.source
      else highest h.floorOrEmpty.source ((h.join bs vs).attestations.map AttestationRow.source),
    if vs = [] then h.floorOrEmpty.target
      else highest h.floorOrEmpty.target ((h.join bs vs).attestations.map
        AttestationRow.target)⟩ := by
  rw [blocks_join, attestations_join]
  by_cases blocks : bs = []
  · by_cases votes : vs = []
    · simp [blocks, votes, join_nil]
    · obtain ⟨s, t, hs, ht⟩ := exists_topEpochs h.attestations votes
      simp [join, blocks, votes, importBlocks_nil, importAttestations_eq votes hs ht,
        highest_eq hs, highest_eq ht, floorOrEmpty]
  · obtain ⟨v, hv⟩ := exists_topSlot h.blocks blocks
    by_cases votes : vs = []
    · simp [join, blocks, votes, importAttestations_nil, importBlocks_eq blocks hv, highest_eq hv,
        floorOrEmpty]
    · obtain ⟨s, t, hs, ht⟩ := exists_topEpochs h.attestations votes
      have hs' := hs
      have ht' := ht
      rw [← attestations_importBlocks bs] at hs' ht'
      rw [join, importAttestations_eq votes hs' ht', importBlocks_eq blocks hv]
      simp [blocks, votes, highest_eq hv, highest_eq hs, highest_eq ht, floorOrEmpty]

end SlashGuard.History
