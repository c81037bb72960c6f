import SlashGuard.Proofs.Decoding
import SlashGuard.Proofs.Framing

/-! Requests and replies on a connection. Each is read from its line as it was sent. -/
namespace SlashGuard

open Json Json.Decoder

namespace Json

theorem inWord_of_lt {n : Nat} (small : n < UInt64.size) : Lexeme.InWord n := by
  simp only [Lexeme.InWord, Number.signedLimit]
  omega

theorem hold_list (room : Nat) {vs : List Value} (each : ∀ v ∈ vs, v.reading.isSound room = true) :
    hold (.streamed (room + 1)) (Value.array vs).reading = .ok () := by
  have sound : Reading.areSound room (Value.readings vs) = true := by
    induction vs with
    | nil => rfl
    | cons v vs ih =>
      obtain ⟨first, rest⟩ := List.forall_mem_cons.mp each
      simp [Value.readings, Reading.areSound, first, ih rest]
  simp [hold, Value.reading, Reading.isSound, sound]

namespace Decoder

variable {τ α : Type} {tag : String} {options : List (String × τ)} {p q : Json.Place}

theorem parted_others {t : τ} {ms : List (String × Value)} (apart : ∀ m ∈ ms, m.1 ≠ tag)
    (kept : ∀ m ∈ ms, hold p m.2.reading = .ok ()) :
    parted p tag options (Value.memberReadings ms) (some t) =
      .ok (some t, Value.memberReadings ms) := by
  induction ms with
  | nil => rfl
  | cons m ms ih =>
    obtain ⟨key, v⟩ := m
    obtain ⟨other, others⟩ := List.forall_mem_cons.mp apart
    obtain ⟨first, rest⟩ := List.forall_mem_cons.mp kept
    simp only [Value.memberReadings, parted, if_neg other, first, ih others rest, bind,
      Except.bind]
    rfl

/-- A tag that comes first decides how the other members are read, once they are held. -/
theorem inside_reading {title name : String} {bodies : List (String × Decoder α)} {d : Decoder α}
    {a : α} {ms : List (String × Value)} (within : p.enter = .ok q)
    (known : bodies.lookup name = some d) (apart : ∀ m ∈ ms, m.1 ≠ tag)
    (kept : ∀ m ∈ ms, hold q m.2.reading = .ok ())
    (read : d .held (Value.object ms).reading = .ok a) :
    inside title tag bodies id p (Value.object ((tag, .string name) :: ms)).reading = .ok a := by
  have others : parted q tag bodies (Value.memberReadings ms) (some d) =
      .ok (some d, Value.memberReadings ms) := parted_others apart kept
  have own : identifier bodies q (.string (some name)) = .ok d := by
    simp only [identifier, named, known]
  rw [Value.reading] at read
  simp only [Value.reading, Value.memberReadings, inside, within, parted, if_true, own, others,
    bind, Except.bind, Option.isSome_none, Bool.false_eq_true, if_false, finish, need, id, read]

theorem word_reading (n : UInt64) : word p (Value.whole n.toNat).reading = .ok n := by
  simp [word, natural, Value.reading, Except.map]

theorem natural_reading {wanted : String} (n : Nat) :
    natural wanted p (Value.whole n).reading = .ok n := by
  simp [natural, Value.reading]

theorem signed_reading {n : Int} (fits : n < Number.signedLimit) :
    signed p (Value.whole n).reading = .ok n := by
  simp only [signed, Value.reading, if_pos fits]

theorem optionString_reading (o : Option String) :
    option string p (Value.option .string o).reading = .ok o :=
  option_reading (fun _ => nofun) fun _ _ => rfl

theorem hold_optionString (o : Option String) :
    hold p (Value.option .string o).reading = .ok () := by
  cases o <;> cases p <;> rfl

theorem list_map_reading {β : Type} {d : Decoder β} {f : β → Value} {xs : List β}
    (within : p.enter = .ok q) (each : ∀ x ∈ xs, d q (f x).reading = .ok x) :
    list d p (Value.array (xs.map f)).reading = .ok xs := by
  have listed : Value.IsList (fun x v => d q v.reading = .ok x) xs (.array (xs.map f)) :=
    Value.isList_map each
  exact list_reading within listed fun _ _ read => read

end Decoder

end Json

namespace Request

theorem decoder_reading (room : Nat) (r : Request) :
    Request.decoder (.streamed (room + 2)) r.toValue.reading = .ok r := by
  cases r with
  | ping => exact inside_reading rfl rfl (by simp) (by simp) rfl
  | register keys =>
    refine inside_reading rfl rfl (by simp) ?_ ?_
    · simp only [List.forall_mem_singleton]
      refine hold_list room fun v member => ?_
      obtain ⟨key, -, rfl⟩ := List.mem_map.mp member
      rfl
    · refine record_reading (s := { Draft.blank with keys := some keys })
        [.array (keys.map .string)] rfl rfl rfl ?_ rfl (by decide)
      exact .cons rfl (field_read (list_map_reading rfl fun _ _ => rfl)) .nil
  | lookup key =>
    refine inside_reading rfl rfl (by simp) (by simp [Value.reading, hold_text]) ?_
    refine record_reading (s := { Draft.blank with key := some key }) [.string key] rfl rfl rfl ?_
      rfl (by decide)
    exact .cons rfl (field_read rfl) .nil
  | block key slot root network =>
    refine inside_reading rfl rfl (by simp)
      (by simp [Value.reading, hold_text, hold_number, hold_optionString]) ?_
    refine record_reading
      (s := { Draft.blank with
        key := some key, slot := some slot, root := some root, network := some network })
      [.string key, .whole slot.toNat, .string root, .option .string network] rfl rfl rfl ?_ rfl
      (by decide)
    exact .cons rfl (field_read rfl) (.cons rfl (field_read (word_reading slot))
      (.cons rfl (field_read rfl) (.cons rfl (spare_read (optionString_reading network)) .nil)))
  | attestation key source target root network =>
    refine inside_reading rfl rfl (by simp)
      (by simp [Value.reading, hold_text, hold_number, hold_optionString]) ?_
    refine record_reading
      (s := { Draft.blank with
        key := some key, source := some source, target := some target, root := some root,
        network := some network })
      [.string key, .whole source.toNat, .whole target.toNat, .string root,
        .option .string network] rfl rfl rfl ?_ rfl (by decide)
    exact .cons rfl (field_read rfl) (.cons rfl (field_read (word_reading source))
      (.cons rfl (field_read (word_reading target)) (.cons rfl (field_read rfl)
        (.cons rfl (spare_read (optionString_reading network)) .nil))))
  | prune keep key =>
    refine inside_reading rfl rfl (by simp)
      (by simp [Value.reading, hold_number, hold_optionString]) ?_
    refine record_reading (s := { Draft.blank with keep := some keep, only := some key })
      [.whole keep.toNat, .option .string key] rfl rfl rfl ?_ rfl (by decide)
    exact .cons rfl (field_read (word_reading keep))
      (.cons rfl (spare_read (optionString_reading key)) .nil)
  | importText text =>
    refine inside_reading rfl rfl (by simp) (by simp [Value.reading, hold_text]) ?_
    refine record_reading (s := { Draft.blank with text := some text }) [.string text] rfl rfl rfl
      ?_ rfl (by decide)
    exact .cons rfl (field_read rfl) .nil
  | exportText => exact inside_reading rfl rfl (by simp) (by simp) rfl

theorem toValue_fits (r : Request) : r.toValue.Fits := by
  have word (n : UInt64) : Lexeme.InWord n.toNat := inWord_of_lt n.toNat_lt
  have text (o : Option String) : (Value.option .string o).Fits := by cases o <;> trivial
  cases r <;>
    simp [toValue, Value.Fits, Value.MembersFit, Value.itemsFit_iff, word, text]

end Request

theorem PruneSummary.decoder_reading (s : PruneSummary) :
    PruneSummary.decoder .held s.toValue.reading = .ok s := by
  refine record_reading (s := ⟨some s.pruned, some s.failed, some s.blocks, some s.attestations⟩)
    [.whole s.pruned, .whole s.failed, .whole s.blocks, .whole s.attestations] rfl rfl rfl ?_ rfl
    (by decide)
  exact .cons rfl (field_read (natural_reading _)) (.cons rfl (field_read (natural_reading _))
    (.cons rfl (field_read (natural_reading _)) (.cons rfl (field_read (natural_reading _)) .nil)))

theorem ImportSummary.decoder_reading (s : ImportSummary) :
    ImportSummary.decoder .held s.toValue.reading = .ok s := by
  refine record_reading
    (s := ⟨some s.validators, some s.blocksImported, some s.blocksSkipped,
      some s.attestationsImported, some s.attestationsSkipped, some s.conflicts⟩)
    [.whole s.validators, .whole s.blocksImported, .whole s.blocksSkipped,
      .whole s.attestationsImported, .whole s.attestationsSkipped, .whole s.conflicts]
    rfl rfl rfl ?_ rfl (by decide)
  exact .cons rfl (field_read (natural_reading _)) (.cons rfl (field_read (natural_reading _))
    (.cons rfl (field_read (natural_reading _)) (.cons rfl (field_read (natural_reading _))
      (.cons rfl (field_read (natural_reading _)) (.cons rfl (field_read (natural_reading _))
        .nil)))))

theorem Verdict.decoder_reading (v : Verdict) :
    Verdict.decoder .held v.toValue.reading = .ok v := by
  rcases v with (_ | _) | (_ | _ | _ | _ | _ | _) <;> rfl

namespace Reply

def IsId (id : Int) : Prop := -Number.signedLimit ≤ id ∧ id < Number.signedLimit

def Fits : Reply → Prop
  | .registered ids => ∀ id ∈ ids, IsId id
  | .validator id => ∀ i ∈ id, IsId i
  | .pruned s =>
    s.pruned < UInt64.size ∧ s.failed < UInt64.size ∧ s.blocks < UInt64.size ∧
      s.attestations < UInt64.size
  | .imported s =>
    s.validators < UInt64.size ∧ s.blocksImported < UInt64.size ∧
      s.blocksSkipped < UInt64.size ∧ s.attestationsImported < UInt64.size ∧
      s.attestationsSkipped < UInt64.size ∧ s.conflicts < UInt64.size
  | _ => True

theorem body_reading {β : Type} {name key : String} {d : Json.Decoder β} {f : β → Reply} {x : β}
    {v : Value} (read : d .held v.reading = .ok x) :
    body name key d f .held (Value.object [(key, v)]).reading = .ok (f x) := by
  refine record_reading (s := some x) [v] rfl rfl ?_ (.cons rfl (field_read read) .nil) rfl
    (List.pairwise_singleton _ _)
  simp [Value.IsRecord, field]

theorem decoder_reading (room : Nat) {r : Reply} (fits : r.Fits) :
    Reply.decoder (.streamed (room + 2)) r.toValue.reading = .ok r := by
  cases r with
  | pong version =>
    refine inside_reading rfl rfl (by simp) (by simp [Value.reading, hold_text]) ?_
    exact body_reading rfl
  | error message =>
    refine inside_reading rfl rfl (by simp) (by simp [Value.reading, hold_text]) ?_
    exact body_reading rfl
  | registered ids =>
    refine inside_reading rfl rfl (by simp) ?_ ?_
    · simp only [List.forall_mem_singleton]
      refine hold_list room fun v member => ?_
      obtain ⟨id, -, rfl⟩ := List.mem_map.mp member
      rfl
    · exact body_reading (list_map_reading rfl fun id member => signed_reading (fits id member).2)
  | validator id =>
    refine inside_reading rfl rfl (by simp) ?_ ?_
    · cases id <;> simp [Value.option, Value.reading, hold, Reading.isSound]
    · refine record_reading (s := some id) [.option .whole id] rfl rfl rfl
        (.cons rfl (field_read ?_) .nil) rfl (by decide)
      exact option_reading (fun _ => nofun) fun i own => signed_reading (fits i own).2
  | decision v =>
    refine inside_reading rfl rfl (by simp) ?_ (body_reading v.decoder_reading)
    refine List.forall_mem_singleton.mpr ?_
    rcases v with (_ | _) | (_ | _ | _ | _ | _ | _) <;> rfl
  | pruned s =>
    exact inside_reading rfl rfl (by simp) (List.forall_mem_singleton.mpr rfl)
      (body_reading s.decoder_reading)
  | imported s =>
    exact inside_reading rfl rfl (by simp) (List.forall_mem_singleton.mpr rfl)
      (body_reading s.decoder_reading)
  | exported text =>
    refine inside_reading rfl rfl (by simp) (by simp [Value.reading, hold_text]) ?_
    exact body_reading rfl

theorem toValue_fits {r : Reply} (fits : r.Fits) : r.toValue.Fits := by
  have id {i : Int} (h : IsId i) : Lexeme.InWord i := by
    obtain ⟨low, high⟩ := h
    refine ⟨low, ?_⟩
    simp only [Number.signedLimit, UInt64.size] at high ⊢
    omega
  cases r with
  | pong _ | error _ | exported _ => simp [toValue, Value.Fits, Value.MembersFit]
  | registered ids =>
    simp only [toValue, Value.Fits, Value.MembersFit, Value.itemsFit_iff, List.forall_mem_map]
    exact ⟨trivial, fun i member => id (fits i member), trivial⟩
  | validator i =>
    cases i with
    | none => simp [toValue, Value.option, Value.Fits, Value.MembersFit]
    | some i => exact ⟨trivial, id (fits i rfl), trivial⟩
  | decision v =>
    rcases v with s | r <;>
      simp [toValue, Verdict.toValue, Safe.toValue, Refusal.toValue, Value.Fits, Value.MembersFit]
  | pruned s =>
    obtain ⟨h1, h2, h3, h4⟩ := fits
    simp [toValue, PruneSummary.toValue, Value.Fits, Value.MembersFit, inWord_of_lt, h1, h2, h3, h4]
  | imported s =>
    obtain ⟨h1, h2, h3, h4, h5, h6⟩ := fits
    simp [toValue, ImportSummary.toValue, Value.Fits, Value.MembersFit, inWord_of_lt, h1, h2, h3,
      h4, h5, h6]

end Reply

theorem decode_line {α : Type} {d : Json.Decoder α} {v : Value} {a : α} (fits : v.Fits)
    (read : d (.streamed Json.depth) v.reading = .ok a) :
    Json.decode d (Text.Utf8.ofText v.line) = .ok a ∧
      Json.decode d (Text.Utf8.ofText (Connection.line v)) = .ok a := by
  have ended : Text.Utf8.ofText (Connection.line v) = Text.Utf8.ofText v.line ++ [some '\n'] := by
    simp [Text.Utf8.ofText, Connection.line]
  have blank : ∀ b ∈ [some '\n'], Lexeme.isBlank b = true := by decide
  constructor
  · simp only [Json.decode, Value.ofSource_line fits, read, bind, Except.bind, if_true]
  · rw [ended]
    simp only [Json.decode, Value.ofSource_line_append fits blank, read, bind, Except.bind, if_true]

/-- A request or a reply is read from its text as it was written, and its line is one line. -/
theorem Connection.messages_round_trip :
    (∀ r : Request, Json.decode Request.decoder (Text.Utf8.ofText r.toValue.line) = .ok r ∧
      '\n' ∉ r.toValue.line.toList ∧
      (∀ rest, lines (sent r.toValue ++ rest) = sent r.toValue :: lines rest) ∧
      ∃ text, Text.Utf8.text? (sent r.toValue) = some text ∧ request text = .ok r) ∧
    (∀ r : Reply, r.Fits → Json.decode Reply.decoder (Text.Utf8.ofText r.toValue.line) = .ok r ∧
      '\n' ∉ r.toValue.line.toList ∧
      (∀ rest, lines (sent r.toValue ++ rest) = sent r.toValue :: lines rest) ∧
      ∃ text, Text.Utf8.text? (sent r.toValue) = some text ∧
        ∀ more, Json.decode Reply.decoder ((Client.firstLine (text ++ more)).map some) = .ok r) := by
  constructor
  · intro r
    obtain ⟨bare, ended⟩ := decode_line r.toValue_fits (r.decoder_reading 125)
    exact ⟨bare, r.toValue.newline_not_mem_line, lines_sent _, _, Text.Utf8.text?_encode _, ended⟩
  · intro r fits
    obtain ⟨bare, ended⟩ := decode_line (Reply.toValue_fits fits) (Reply.decoder_reading 125 fits)
    refine ⟨bare, r.toValue.newline_not_mem_line, lines_sent _, _, Text.Utf8.text?_encode _, ?_⟩
    intro more
    rw [Client.firstLine_sent]
    exact ended

theorem Connection.messages_round_trip_control :
    '\n' ∉ (Request.importText "a\n\"\\\u0000").toValue.line.toList ∧
      Json.decode Request.decoder
        (Text.Utf8.ofText (Request.importText "a\n\"\\\u0000").toValue.line) =
          .ok (.importText "a\n\"\\\u0000") ∧
      Json.decode Reply.decoder
        (Text.Utf8.ofText (Reply.validator (some (-9223372036854775808))).toValue.line) =
          .ok (.validator (some (-9223372036854775808))) := by
  obtain ⟨requests, replies⟩ := messages_round_trip
  obtain ⟨read, whole, -⟩ := requests (.importText "a\n\"\\\u0000")
  have least : Reply.IsId (-9223372036854775808) := ⟨by decide, by decide⟩
  have fits : (Reply.validator (some (-9223372036854775808))).Fits := by
    intro i own
    cases own
    exact least
  exact ⟨whole, read, (replies _ fits).1⟩

end SlashGuard
