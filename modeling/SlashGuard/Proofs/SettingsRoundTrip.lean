import SlashGuard.Settings
import SlashGuard.Proofs.Identifiers
import SlashGuard.Proofs.Messages
import SlashGuard.Proofs.Omissions

/-! Settings are read back from the text they are saved as if they keep all rules, and else the rule
that is broken first is reported. A field that may be left out is read as if its default stood in
the text. -/
namespace SlashGuard

open Text.Hex (HasBytes)

namespace Settings

def IsKeyText (s : String) : Prop := ∃ n, 1 ≤ n ∧ HasBytes n s.toList

def IsRootText (s : String) : Prop := HasBytes 32 s.toList

structure Sound (s : Settings) : Prop where
  kept : 1 ≤ s.pruning.keep
  paced : 1 ≤ s.pruning.interval
  keys : ∀ text ∈ s.validators, IsKeyText text
  network : ∀ text, s.network = some text → IsRootText text

/-- The rule that settings break before any other, in the order of the rules and of the list of
validators. -/
inductive BreaksFirst (s : Settings) : SettingsFault → Prop
  | kept (none : s.pruning.keep = 0) : BreaksFirst s .nothingKept
  | paced (kept : 1 ≤ s.pruning.keep) (none : s.pruning.interval = 0) : BreaksFirst s .noInterval
  | key {before after : List String} {text : String} {fault : InputFault}
      (kept : 1 ≤ s.pruning.keep) (paced : 1 ≤ s.pruning.interval)
      (split : s.validators = before ++ text :: after) (others : ∀ t ∈ before, IsKeyText t)
      (bad : ¬ IsKeyText text) (why : PublicKey.ofHex text = .error fault) :
      BreaksFirst s (.badKey text fault)
  | network {text : String} {fault : InputFault} (kept : 1 ≤ s.pruning.keep)
      (paced : 1 ≤ s.pruning.interval) (keys : ∀ t ∈ s.validators, IsKeyText t)
      (pinned : s.network = some text) (bad : ¬ IsRootText text)
      (why : Root.ofHex .network text = .error fault) : BreaksFirst s (.badNetwork fault)

variable {s : Settings} {f : SettingsFault}

theorem one_le_of_ne_zero {n : UInt64} (some : n ≠ 0) : 1 ≤ n := by
  have positive : n.toNat ≠ 0 := fun zero => some (UInt64.toNat_inj.mp zero)
  rw [UInt64.le_iff_toNat_le]
  exact Nat.one_le_iff_ne_zero.mpr positive

theorem ne_zero_of_one_le {n : UInt64} (some : 1 ≤ n) : n ≠ 0 := by
  rintro rfl
  exact absurd some (by decide)

theorem keys_of_isKeyText (sound : ∀ text ∈ s.validators, IsKeyText text) :
    ∃ ks, s.keys = .ok ks := by
  cases read : s.keys with
  | ok ks => exact ⟨ks, rfl⟩
  | error f =>
    obtain ⟨before, text, after, split, -, bad⟩ := mapM_eq_error.mp read
    obtain ⟨key, good⟩ := PublicKey.ofHex_isOk.mpr (sound text (by simp [split]))
    rw [good] at bad
    contradiction

theorem keys_of_bad {before after : List String} {text : String} {fault : InputFault}
    (split : s.validators = before ++ text :: after) (others : ∀ t ∈ before, IsKeyText t)
    (why : PublicKey.ofHex text = .error fault) : s.keys = .error (.badKey text fault) := by
  refine mapM_eq_error.mpr ⟨before, text, after, split, fun t member => ?_, ?_⟩
  · obtain ⟨key, good⟩ := PublicKey.ofHex_isOk.mpr (others t member)
    exact ⟨key, by rw [good]; rfl⟩
  · rw [why]
    rfl

theorem root?_of_isRootText (sound : ∀ text, s.network = some text → IsRootText text) :
    ∃ r, s.root? = .ok r := by
  unfold root?
  split
  · exact ⟨none, rfl⟩
  · rename_i text pinned
    obtain ⟨root, good⟩ : ∃ root, Root.ofHex .network text = .ok root :=
      Root.ofHex_isOk.mpr (sound text pinned)
    exact ⟨some root, by rw [good]⟩

theorem root?_of_bad {text : String} {fault : InputFault} (pinned : s.network = some text)
    (why : Root.ofHex .network text = .error fault) : s.root? = .error (.badNetwork fault) := by
  simp only [root?, pinned, why]

theorem Sound.validate (sound : s.Sound) : s.validate = .ok () := by
  obtain ⟨ks, keys⟩ := keys_of_isKeyText sound.keys
  obtain ⟨root, pinned⟩ := root?_of_isRootText sound.network
  simp only [Settings.validate, if_neg (ne_zero_of_one_le sound.kept),
    if_neg (ne_zero_of_one_le sound.paced), keys, pinned, ok_bind]
  rfl

theorem BreaksFirst.validate (broken : s.BreaksFirst f) : s.validate = .error f := by
  cases broken with
  | kept none => simp only [Settings.validate, if_pos none]
  | paced kept none =>
    simp only [Settings.validate, if_neg (ne_zero_of_one_le kept), if_pos none]
  | key kept paced split others bad why =>
    simp only [Settings.validate, if_neg (ne_zero_of_one_le kept),
      if_neg (ne_zero_of_one_le paced), keys_of_bad split others why, error_bind]
  | network kept paced keys pinned bad why =>
    obtain ⟨ks, keys⟩ := keys_of_isKeyText keys
    simp only [Settings.validate, if_neg (ne_zero_of_one_le kept),
      if_neg (ne_zero_of_one_le paced), keys, root?_of_bad pinned why, ok_bind, error_bind]

theorem exists_first_bad {texts : List String} (some : ¬ ∀ t ∈ texts, IsKeyText t) :
    ∃ before text after, texts = before ++ text :: after ∧ (∀ t ∈ before, IsKeyText t) ∧
      ¬ IsKeyText text := by
  induction texts with
  | nil => exact absurd nofun some
  | cons t ts ih =>
    by_cases own : IsKeyText t
    · obtain ⟨before, text, after, rfl, others, bad⟩ :=
        ih fun all => some (List.forall_mem_cons.mpr ⟨own, all⟩)
      exact ⟨t :: before, text, after, rfl, List.forall_mem_cons.mpr ⟨own, others⟩, bad⟩
    · exact ⟨[], t, ts, rfl, nofun, own⟩

theorem sound_or_breaksFirst (s : Settings) : s.Sound ∨ ∃ f, s.BreaksFirst f := by
  by_cases kept : s.pruning.keep = 0
  · exact .inr ⟨_, .kept kept⟩
  by_cases paced : s.pruning.interval = 0
  · exact .inr ⟨_, .paced (one_le_of_ne_zero kept) paced⟩
  have kept := one_le_of_ne_zero kept
  have paced := one_le_of_ne_zero paced
  by_cases keys : ∀ t ∈ s.validators, IsKeyText t
  · by_cases network : ∀ text, s.network = some text → IsRootText text
    · exact .inl ⟨kept, paced, keys, network⟩
    · push Not at network
      obtain ⟨text, pinned, bad⟩ := network
      cases read : Root.ofHex .network text with
      | ok root => exact absurd (Root.ofHex_isOk.mp ⟨root, read⟩) bad
      | error fault => exact .inr ⟨_, .network kept paced keys pinned bad read⟩
  · obtain ⟨before, text, after, split, others, bad⟩ := exists_first_bad keys
    cases read : PublicKey.ofHex text with
    | ok key => exact absurd (PublicKey.ofHex_isOk.mp ⟨key, read⟩) bad
    | error fault => exact .inr ⟨_, .key kept paced split others bad read⟩

theorem validate_eq_ok : s.validate = .ok () ↔ s.Sound := by
  refine ⟨fun passed => ?_, Sound.validate⟩
  rcases s.sound_or_breaksFirst with sound | ⟨f, broken⟩
  · exact sound
  · rw [broken.validate] at passed
    contradiction

theorem validate_eq_error : s.validate = .error f ↔ s.BreaksFirst f := by
  refine ⟨fun failed => ?_, BreaksFirst.validate⟩
  rcases s.sound_or_breaksFirst with sound | ⟨g, broken⟩
  · rw [sound.validate] at failed
    contradiction
  · rw [broken.validate] at failed
    cases failed
    exact broken

end Settings

open Json Json.Decoder

theorem PruningSettings.decoder_reading (room : Nat) (p : PruningSettings) :
    PruningSettings.decoder (.streamed (room + 1)) p.toValue.reading = .ok p := by
  refine record_reading (s := ⟨some p.enabled, some p.keep, some p.interval, some p.atBoot⟩)
    [.bool p.enabled, .whole p.keep.toNat, .whole p.interval.toNat, .bool p.atBoot] rfl rfl rfl ?_
    rfl (by decide)
  exact .cons rfl (field_read rfl) (.cons rfl (field_read (word_reading _))
    (.cons rfl (field_read (word_reading _)) (.cons rfl (field_read rfl) .nil)))

namespace Settings

theorem decoder_reading (room : Nat) (s : Settings) :
    Settings.decoder (.streamed (room + 2)) s.toValue.reading = .ok s := by
  refine record_reading
    (s := ⟨some s.database, some s.socket, some s.validators, some s.network, some s.pruning⟩)
    [.string s.database, .string s.socket, .array (s.validators.map .string),
      .option .string s.network, s.pruning.toValue] rfl rfl rfl ?_ rfl (by decide)
  exact .cons rfl (field_read rfl) (.cons rfl (field_read rfl)
    (.cons rfl (spare_read (list_map_reading rfl fun _ _ => rfl))
      (.cons rfl (spare_read (optionString_reading _))
        (.cons rfl (spare_read (PruningSettings.decoder_reading room _)) .nil))))

theorem toValue_fits (s : Settings) : s.toValue.Fits := by
  have word (n : UInt64) : Lexeme.InWord n.toNat := inWord_of_lt n.toNat_lt
  have text (o : Option String) : (Value.option .string o).Fits := by cases o <;> trivial
  simp [toValue, PruningSettings.toValue, Value.Fits, Value.MembersFit, Value.itemsFit_iff, word,
    text]

theorem load_page (s : Settings) :
    Settings.load s.page = (s.validate.mapError .rule).map fun _ => s := by
  have read : Json.decode decoder (Text.Utf8.ofText s.page) = .ok s := by
    simp only [Json.decode, page, Value.ofSource_page s.toValue_fits, s.decoder_reading 125,
      ok_bind, Json.depth, if_true]
  simp only [load, read, mapError_ok, ok_bind]
  cases s.validate <;> rfl

inductive Spare
  | validators
  | network
  | pruning

namespace Spare

def name : Spare → String
  | .validators => "validators"
  | .network => "genesis_validators_root"
  | .pruning => "pruning"

def standard : Spare → Value
  | .validators => .array []
  | .network => .null
  | .pruning => PruningSettings.standard.toValue

def place : Spare → Nat
  | .validators => 2
  | .network => 3
  | .pruning => 4

def field : Spare → Decoder.Field Draft
  | .validators => (Decoder.field "validators" (list string) Draft.validators
      fun x d => { d with validators := some x }).orNone
  | .network => (Decoder.field "genesis_validators_root" (option string) Draft.network
      fun x d => { d with network := some x }).orNone
  | .pruning => (Decoder.field "pruning" PruningSettings.decoder Draft.pruning
      fun x d => { d with pruning := some x }).orNone

def fill : Spare → Draft → Draft
  | .validators, d => { d with validators := some [] }
  | .network, d => { d with network := some none }
  | .pruning, d => { d with pruning := some .standard }

end Spare

variable {room : Nat} {before after : List (Reading × Reading)} {closed : Bool}

theorem Spare.field_standard (spare : Spare) (d : Draft) :
    spare.field.decode (.streamed (room + 1)) spare.standard.reading d = .ok (spare.fill d) := by
  cases spare with
  | validators => rfl
  | network => rfl
  | pruning => exact spare_read (PruningSettings.decoder_reading room _)

theorem decoder_insert (spare : Spare)
    (lacks : ∀ m ∈ before ++ after, m.1 ≠ .string (some spare.name)) :
    Settings.decoder (.streamed (room + 2))
        (.object (before ++ (.string (some spare.name), spare.standard.reading) :: after) closed) =
      Settings.decoder (.streamed (room + 2)) (.object (before ++ after) closed) := by
  have named : spare.field.name = spare.name := by cases spare <;> rfl
  rw [← named] at lacks ⊢
  refine Idle.record_insert ⟨by cases spare <;> rfl, spare.field_standard, ?_⟩ rfl
    (by cases spare <;> rfl) ?_ lacks
  · intro g listed other
    simp only [List.mem_cons, List.not_mem_nil, or_false] at listed
    rcases listed with rfl | rfl | rfl | rfl | rfl
    · cases spare <;> exact field_ignores (fun _ => rfl) (fun _ _ => rfl) (fun _ _ => rfl)
    · cases spare <;> exact field_ignores (fun _ => rfl) (fun _ _ => rfl) (fun _ _ => rfl)
    · cases spare with
      | validators => exact absurd rfl other
      | network => exact spare_ignores (fun _ => rfl) (fun _ _ => rfl) (fun _ _ => rfl)
      | pruning => exact spare_ignores (fun _ => rfl) (fun _ _ => rfl) (fun _ _ => rfl)
    · cases spare with
      | validators => exact spare_ignores (fun _ => rfl) (fun _ _ => rfl) (fun _ _ => rfl)
      | network => exact absurd rfl other
      | pruning => exact spare_ignores (fun _ => rfl) (fun _ _ => rfl) (fun _ _ => rfl)
    · cases spare with
      | validators => exact spare_ignores (fun _ => rfl) (fun _ _ => rfl) (fun _ _ => rfl)
      | network => exact spare_ignores (fun _ => rfl) (fun _ _ => rfl) (fun _ _ => rfl)
      | pruning => exact absurd rfl other
  · rintro ⟨database, socket, validators, network, pruning⟩ unset
    cases spare with
    | validators =>
      cases validators with
      | none => rfl
      | some _ => contradiction
    | network =>
      cases network with
      | none => rfl
      | some _ => contradiction
    | pruning =>
      cases pruning with
      | none => rfl
      | some _ => contradiction

theorem decoder_append (spare : Spare) {rs : List Reading}
    (place : rs.length = spare.place) :
    Settings.decoder (.streamed (room + 2)) (.array (rs ++ [spare.standard.reading]) closed) =
      Settings.decoder (.streamed (room + 2)) (.array rs closed) := by
  cases spare with
  | validators =>
    obtain ⟨a, b, rfl⟩ := List.length_eq_two.mp place
    simp only [Settings.decoder, record, Place.enter, ok_bind, List.cons_append, List.nil_append,
      items, field, Field.orNone]
    cases stringAs "path string" (.streamed (room + 1)) a with
    | error e => rfl
    | ok database =>
      cases stringAs "path string" (.streamed (room + 1)) b with
      | error e => rfl
      | ok socket => cases closed <;> rfl
  | network =>
    obtain ⟨a, b, c, rfl⟩ := List.length_eq_three.mp place
    simp only [Settings.decoder, record, Place.enter, ok_bind, List.cons_append, List.nil_append,
      items, field, Field.orNone]
    cases stringAs "path string" (.streamed (room + 1)) a with
    | error e => rfl
    | ok database =>
      cases stringAs "path string" (.streamed (room + 1)) b with
      | error e => rfl
      | ok socket =>
        cases list string (.streamed (room + 1)) c with
        | error e => rfl
        | ok validators => cases closed <;> rfl
  | pruning =>
    obtain ⟨a, rest, rfl⟩ := List.exists_cons_of_length_eq_add_one place
    obtain ⟨b, c, d, rfl⟩ := List.length_eq_three.mp (Nat.succ.inj place)
    have own : PruningSettings.decoder (.streamed (room + 1)) Spare.pruning.standard.reading =
        .ok .standard := PruningSettings.decoder_reading room .standard
    simp only [Settings.decoder, record, Place.enter, ok_bind, List.cons_append, List.nil_append,
      items, field, Field.orNone, own]
    cases stringAs "path string" (.streamed (room + 1)) a with
    | error e => rfl
    | ok database =>
      cases stringAs "path string" (.streamed (room + 1)) b with
      | error e => rfl
      | ok socket =>
        cases list string (.streamed (room + 1)) c with
        | error e => rfl
        | ok validators =>
          cases option string (.streamed (room + 1)) d with
          | error e => rfl
          | ok network => cases closed <;> rfl

/-- `r` is what `r'` is without a field that has its default there. -/
inductive Spare.LeftOut (spare : Spare) : Reading → Reading → Prop
  | member {before after : List (Reading × Reading)} {closed : Bool}
      (lacks : ∀ m ∈ before ++ after, m.1 ≠ .string (some spare.name)) :
      LeftOut spare (.object (before ++ after) closed)
        (.object (before ++ (.string (some spare.name), spare.standard.reading) :: after) closed)
  | item {items : List Reading} {closed : Bool} (place : items.length = spare.place) :
      LeftOut spare (.array items closed) (.array (items ++ [spare.standard.reading]) closed)

theorem load_leftOut {spare : Spare} {r r' : Reading} {alone : Bool} {t t' : String}
    (out : spare.LeftOut r r') (without : Reading.ofSource (Text.Utf8.ofText t) = (r, alone))
    (written : Reading.ofSource (Text.Utf8.ofText t') = (r', alone)) : load t = load t' := by
  have same : Settings.decoder (.streamed Json.depth) r =
      Settings.decoder (.streamed Json.depth) r' := by
    cases out with
    | member lacks => exact (decoder_insert spare lacks).symm
    | item place => exact (decoder_append spare place).symm
  simp only [load, Json.decode, without, written, same]

/-- `v` is what `v'` is without a field that has its default there. -/
inductive Spare.Omits (spare : Spare) : Value → Value → Prop
  | member {before after : List (String × Value)}
      (lacks : ∀ m ∈ before ++ after, m.1 ≠ spare.name) :
      Omits spare (.object (before ++ after))
        (.object (before ++ (spare.name, spare.standard) :: after))
  | item {items : List Value} (place : items.length = spare.place) :
      Omits spare (.array items) (.array (items ++ [spare.standard]))

theorem Spare.standard_fits (spare : Spare) : spare.standard.Fits := by
  have word (n : UInt64) : Lexeme.InWord n.toNat := inWord_of_lt n.toNat_lt
  cases spare <;>
    simp [standard, PruningSettings.toValue, Value.Fits, Value.ItemsFit, Value.MembersFit, word]

theorem Spare.Omits.fits {spare : Spare} {v v' : Value} (omits : spare.Omits v v')
    (fits : v.Fits) : v'.Fits := by
  cases omits with
  | @member before after lacks =>
    simp only [Value.Fits, Value.membersFit_iff, List.forall_mem_append, List.forall_mem_cons]
      at fits ⊢
    exact ⟨fits.1, spare.standard_fits, fits.2⟩
  | item place =>
    simp only [Value.Fits, Value.itemsFit_iff, List.forall_mem_append, List.forall_mem_singleton]
      at fits ⊢
    exact ⟨fits, spare.standard_fits⟩

theorem Spare.Omits.leftOut {spare : Spare} {v v' : Value} (omits : spare.Omits v v') :
    spare.LeftOut v.reading v'.reading := by
  cases omits with
  | @member before after lacks =>
    simp only [Value.reading, Value.memberReadings_eq_map, List.map_append, List.map_cons]
    refine .member fun m listed => ?_
    rw [← List.map_append] at listed
    obtain ⟨own, member, rfl⟩ := List.mem_map.mp listed
    exact fun same => lacks own member (by simpa using same)
  | item place =>
    simp only [Value.reading, Value.readings_eq_map, List.map_append, List.map_cons, List.map_nil]
    exact .item (by simpa using place)

theorem load_omits {spare : Spare} {v v' : Value} (omits : spare.Omits v v') (fits : v.Fits)
    (k k' : Value.Layout) :
    load (String.ofList (k.write 0 v)) = load (String.ofList (k'.write 0 v')) := by
  have read (k : Value.Layout) {v : Value} (fits : v.Fits) :
      Reading.ofSource (Text.Utf8.ofText (String.ofList (k.write 0 v))) = (v.reading, true) := by
    have text : Text.Utf8.ofText (String.ofList (k.write 0 v)) = (k.write 0 v).map some ++ [] := by
      simp [Text.Utf8.ofText]
    rw [text]
    exact Value.ofSource_write k fits (List.forall_mem_nil _)
  exact load_leftOut omits.leftOut (read k fits) (read k' (omits.fits fits))

/-- Settings are read back from their page exactly if they are sound; if they are not, the rule that
is broken first is the fault. A text in which a field is left out is read like one in which its
default stands in its place, and so is any text laid out from a value. -/
theorem saved_and_loaded :
    (∀ s s' : Settings, load s.page = .ok s' ↔ s' = s ∧ s.Sound) ∧
    (∀ (s : Settings) fault, load s.page = .error fault ↔
      ∃ f, fault = .rule f ∧ s.BreaksFirst f) ∧
    (∀ (spare : Spare) r r' alone t t', spare.LeftOut r r' →
      Reading.ofSource (Text.Utf8.ofText t) = (r, alone) →
      Reading.ofSource (Text.Utf8.ofText t') = (r', alone) → load t = load t') ∧
    ∀ (spare : Spare) v v', spare.Omits v v' → v.Fits → ∀ k k' : Value.Layout,
      load (String.ofList (k.write 0 v)) = load (String.ofList (k'.write 0 v')) := by
  refine ⟨fun s s' => ?_, fun s fault => ?_, fun _ _ _ _ _ _ => load_leftOut,
    fun _ _ _ omits fits k k' => load_omits omits fits k k'⟩
  · rw [load_page, map_eq_ok, ← validate_eq_ok]
    constructor
    · rintro ⟨u, passed, rfl⟩
      exact ⟨rfl, mapError_eq_ok.mp passed⟩
    · rintro ⟨rfl, passed⟩
      exact ⟨(), mapError_eq_ok.mpr passed, rfl⟩
  · simp only [load_page, ← validate_eq_error]
    cases s.validate with
    | ok u => simp [Except.mapError, Except.map]
    | error f => simp [Except.mapError, Except.map, eq_comm]

theorem saved_and_loaded_short :
    load (String.ofList (Value.Layout.lines.write 0
        (.object [("database_path", .string "/d"), ("ipc_socket_path", .string "/s")]))) =
      load (String.ofList (Value.Layout.oneLine.write 0
        (.object [("database_path", .string "/d"), ("pruning", PruningSettings.standard.toValue),
          ("ipc_socket_path", .string "/s")]))) ∧
    load (Value.array [.string "/d", .string "/s"]).line =
      load (Value.array [.string "/d", .string "/s", .array []]).line := by
  have member : Spare.pruning.Omits
      (.object ([("database_path", .string "/d")] ++ [("ipc_socket_path", .string "/s")]))
      (.object ([("database_path", .string "/d")] ++
        ("pruning", PruningSettings.standard.toValue) :: [("ipc_socket_path", .string "/s")])) :=
    .member (by decide)
  have item : Spare.validators.LeftOut (.array [.string (some "/d"), .string (some "/s")] true)
      (.array [.string (some "/d"), .string (some "/s"), .array [] true] true) :=
    .item rfl
  exact ⟨saved_and_loaded.2.2.2 _ _ _ member ⟨trivial, trivial, trivial⟩ .lines .oneLine,
    saved_and_loaded.2.2.1 _ _ _ true _ _ item
      (Value.ofSource_line ⟨trivial, trivial, trivial⟩)
      (Value.ofSource_line ⟨trivial, trivial, trivial, trivial⟩)⟩

end Settings

end SlashGuard
