import SlashGuard.Interchange.Document
import SlashGuard.Proofs.Decoding

/-! A document of the current format is read back from its text as it was written, and from the
text of any value that means the same: numbers may be bare, digits of either case and without a
prefix, records may be arrays, and members that nobody knows may stand between the others. -/
namespace SlashGuard

open Json Json.Decoder

namespace Json.Value

def IsNumber (n : Nat) (v : Value) : Prop :=
  v = .whole n ∨ v = .string (String.ofList (Text.Decimal.write n))

def IsBytes (bs : List UInt8) (v : Value) : Prop :=
  ∃ cs, Text.Hex.Spells bs cs ∧
    (v = .string (String.ofList cs) ∨ v = .string (String.ofList ('0' :: 'x' :: cs)))

theorem isBytes_write (bs : List UInt8) :
    IsBytes bs (.string (String.ofList (Text.Hex.write bs))) :=
  ⟨Text.Hex.encode bs, Text.Hex.spells_encode bs, .inr rfl⟩

end Json.Value

open Json.Value (IsNumber IsBytes IsList IsRecord)

def Block.WrittenAs (b : Block) (v : Value) : Prop :=
  ∃ slot root, IsRecord ["slot", "signing_root"] [slot, root] v ∧
    IsNumber b.slot.number.toNat slot ∧ IsBytes b.root.bytes root

def Attestation.WrittenAs (a : Attestation) (v : Value) : Prop :=
  ∃ source target root,
    IsRecord ["source_epoch", "target_epoch", "signing_root"] [source, target, root] v ∧
    IsNumber a.source.number.toNat source ∧ IsNumber a.target.number.toNat target ∧
    IsBytes a.root.bytes root

def KeyHistory.WrittenAs (h : KeyHistory) (v : Value) : Prop :=
  ∃ key blocks votes,
    IsRecord ["pubkey", "signed_blocks", "signed_attestations"] [key, blocks, votes] v ∧
    IsBytes h.key.bytes key ∧ IsList Block.WrittenAs h.blocks blocks ∧
    IsList Attestation.WrittenAs h.attestations votes

def Metadata.WrittenAs (m : Metadata) (v : Value) : Prop :=
  ∃ version network,
    IsRecord ["interchange_format_version", "genesis_validators_root"] [version, network] v ∧
    IsNumber m.version version ∧ IsBytes m.network.bytes network

def Document.WrittenAs (d : Document) (v : Value) : Prop :=
  ∃ metadata data, IsRecord ["metadata", "data"] [metadata, data] v ∧
    d.metadata.WrittenAs metadata ∧
    match d.data with
    | none => data = .null
    | some hs => IsList KeyHistory.WrittenAs hs data

theorem numberDecoder_written {p : Json.Place} {n : UInt64} {v : Value}
    (written : IsNumber n.toNat v) : numberDecoder p v.reading = .ok n := by
  have size : (n.toNat : Int) < UInt64.size := Int.ofNat_lt.mpr n.toNat_lt
  rcases written with rfl | rfl
  · simp only [numberDecoder, numberOrText, Value.reading, hold_number, bind, Except.bind, size,
      Int.natCast_nonneg, and_self, if_true, Int.toNat_natCast, UInt64.ofNat_toNat]
  · have text := readNumber_writeNumber n
    rw [writeNumber] at text
    simp [numberDecoder, numberOrText, Value.reading, hold_text, text, mapError_ok, bind,
      Except.bind]

theorem Slot.decoder_written {p : Json.Place} {s : Slot} {v : Value}
    (written : IsNumber s.number.toNat v) : Slot.decoder p v.reading = .ok s := by
  simp only [Slot.decoder, Decoder.map, numberDecoder_written written, Except.map]

theorem Epoch.decoder_written {p : Json.Place} {e : Epoch} {v : Value}
    (written : IsNumber e.number.toNat v) : Epoch.decoder p v.reading = .ok e := by
  simp only [Epoch.decoder, Decoder.map, numberDecoder_written written, Except.map]

theorem Root.decoder_written {p : Json.Place} {r : Root} {v : Value} (written : IsBytes r.bytes v) :
    Root.decoder p v.reading = .ok r := by
  obtain ⟨cs, spelt, rfl | rfl⟩ := written
  all_goals
    simp [Root.decoder, andThen, Value.reading, Decoder.string, stringAs, Root.ofHex, spelt.read,
      spelt.read_prefixed, Root.ofBytes, r.size, mapError_ok, bind, Except.bind]

theorem PublicKey.decoder_written {p : Json.Place} {k : PublicKey} {v : Value}
    (written : IsBytes k.bytes v) : PublicKey.decoder p v.reading = .ok k := by
  obtain ⟨cs, spelt, rfl | rfl⟩ := written
  all_goals
    simp [PublicKey.decoder, andThen, Value.reading, Decoder.string, stringAs, PublicKey.ofHex,
      spelt.read, spelt.read_prefixed, PublicKey.ofBytes, k.nonempty, mapError_ok, bind,
      Except.bind]

theorem Block.decoder_written (room : Nat) {b : Block} {v : Value} (written : b.WrittenAs v) :
    Block.decoder (.streamed (room + 1)) v.reading = .ok b := by
  obtain ⟨slot, root, shape, hslot, hroot⟩ := written
  refine record_reading (s := ⟨some b.slot, some b.root⟩) _ rfl rfl shape ?_ rfl (by decide)
  exact .cons rfl (field_read (Slot.decoder_written hslot))
    (.cons rfl (field_read (Root.decoder_written hroot)) .nil)

theorem Attestation.decoder_written (room : Nat) {a : Attestation} {v : Value}
    (written : a.WrittenAs v) : Attestation.decoder (.streamed (room + 1)) v.reading = .ok a := by
  obtain ⟨source, target, root, shape, hsource, htarget, hroot⟩ := written
  refine record_reading (s := ⟨some a.source, some a.target, some a.root⟩) _ rfl rfl shape ?_
    rfl (by decide)
  exact .cons rfl (field_read (Epoch.decoder_written hsource))
    (.cons rfl (field_read (Epoch.decoder_written htarget))
      (.cons rfl (field_read (Root.decoder_written hroot)) .nil))

theorem KeyHistory.decoder_written (room : Nat) {h : KeyHistory} {v : Value}
    (written : h.WrittenAs v) : KeyHistory.decoder (.streamed (room + 3)) v.reading = .ok h := by
  obtain ⟨key, blocks, votes, shape, hkey, hblocks, hvotes⟩ := written
  have within : (Json.Place.streamed (room + 2)).enter = .ok (.streamed (room + 1)) := rfl
  have blocksRead := list_reading within hblocks fun _ _ => Block.decoder_written room
  have votesRead := list_reading within hvotes fun _ _ => Attestation.decoder_written room
  refine record_reading (s := ⟨some h.key, some h.blocks, some h.attestations⟩) _ rfl rfl shape ?_
    rfl (by decide)
  exact .cons rfl (field_read (PublicKey.decoder_written hkey))
    (.cons rfl (spare_read blocksRead) (.cons rfl (spare_read votesRead) .nil))

theorem Metadata.versionDecoder_written {p : Json.Place} {n : Nat} {v : Value}
    (fits : n < UInt32.size) (written : IsNumber n v) : versionDecoder p v.reading = .ok n := by
  have solid : ∀ c ∈ Text.Decimal.write n, Text.Blank.isBlank c = false :=
    fun c member => Text.Blank.isBlank_of_isDigit (Text.Decimal.isDigit_of_mem_write member)
  rcases written with rfl | rfl
  · simp only [versionDecoder, numberOrText, Value.reading, hold_number, bind, Except.bind,
      Int.natCast_nonneg, Int.ofNat_lt.mpr fits, and_self, if_true, Int.toNat_natCast, id]
  · simp [versionDecoder, numberOrText, Value.reading, hold_text, Text.Blank.trim_eq_self solid,
      Text.Decimal.read_write fits, mapError_ok, bind, Except.bind]

theorem Metadata.decoder_written (room : Nat) {m : Metadata} {v : Value}
    (fits : m.version < UInt32.size) (written : m.WrittenAs v) :
    Metadata.decoder (.streamed (room + 1)) v.reading = .ok m := by
  obtain ⟨version, network, shape, hversion, hnetwork⟩ := written
  refine record_reading (s := ⟨some m.version, some m.network⟩) _ rfl rfl shape ?_ rfl (by decide)
  exact .cons rfl (field_read (versionDecoder_written fits hversion))
    (.cons rfl (field_read (Root.decoder_written hnetwork)) .nil)

theorem Document.decoder_written (room : Nat) {d : Document} {v : Value}
    (fits : d.metadata.version < UInt32.size) (written : d.WrittenAs v) :
    Document.decoder (.streamed (room + 5)) v.reading = .ok d := by
  obtain ⟨metadata, data, shape, hmetadata, hdata⟩ := written
  have dataRead : Decoder.option (list KeyHistory.decoder) (.streamed (room + 4)) data.reading =
      .ok d.data := by
    split at hdata
    · rename_i absent
      rw [hdata, absent]
      rfl
    · rename_i hs present
      have within : (Json.Place.streamed (room + 4)).enter = .ok (.streamed (room + 3)) := rfl
      have histories := list_reading within hdata fun _ _ => KeyHistory.decoder_written room
      rw [present]
      refine option_some (fun missing => ?_) histories
      rw [missing] at histories
      contradiction
  refine record_reading (s := ⟨some d.metadata, some d.data⟩) _ rfl rfl shape ?_ rfl (by decide)
  exact .cons rfl (field_read (Metadata.decoder_written _ fits hmetadata))
    (.cons rfl (spare_read dataRead) .nil)

theorem Block.toValue_writtenAs (b : Block) : b.WrittenAs b.toValue :=
  ⟨_, _, rfl, .inr rfl, Value.isBytes_write _⟩

theorem Attestation.toValue_writtenAs (a : Attestation) : a.WrittenAs a.toValue :=
  ⟨_, _, _, rfl, .inr rfl, .inr rfl, Value.isBytes_write _⟩

theorem KeyHistory.toValue_writtenAs (h : KeyHistory) : h.WrittenAs h.toValue :=
  ⟨_, _, _, rfl, Value.isBytes_write _, Value.isList_map fun b _ => b.toValue_writtenAs,
    Value.isList_map fun a _ => a.toValue_writtenAs⟩

theorem Metadata.toValue_writtenAs (m : Metadata) : m.WrittenAs m.toValue :=
  ⟨_, _, rfl, .inr rfl, Value.isBytes_write _⟩

theorem Document.toValue_writtenAs (d : Document) : d.WrittenAs d.toValue := by
  refine ⟨_, _, rfl, d.metadata.toValue_writtenAs, ?_⟩
  cases d.data with
  | none => rfl
  | some hs => exact Value.isList_map fun h _ => h.toValue_writtenAs

theorem KeyHistory.toValue_fits (h : KeyHistory) : h.toValue.Fits := by
  simp [KeyHistory.toValue, Value.Fits, Value.MembersFit, Value.itemsFit_iff, PublicKey.toValue,
    Block.toValue, Attestation.toValue, Slot.toValue, Epoch.toValue, Root.toValue]

theorem Document.toValue_fits (d : Document) : d.toValue.Fits := by
  have metadata : d.metadata.toValue.Fits := by
    simp [Metadata.toValue, Value.Fits, Value.MembersFit, Root.toValue]
  cases data : d.data with
  | none => simp [Document.toValue, data, Value.option, Value.Fits, Value.MembersFit, metadata]
  | some hs =>
    simp [Document.toValue, data, Value.option, Value.Fits, Value.MembersFit, metadata,
      Value.itemsFit_iff, KeyHistory.toValue_fits]

section Texts

variable {d : Document}

theorem Document.decode_written {s : Text.Utf8.Source} {v : Value}
    (fits : d.metadata.version < UInt32.size) (written : d.WrittenAs v)
    (read : Reading.ofSource s = (v.reading, true)) : Document.decode s = .ok d := by
  have decoded := Document.decoder_written 122 fits written
  have depth : Json.depth = 122 + 5 := rfl
  simp only [Document.decode, Json.decode, read, depth, bind, Except.bind, decoded, if_true,
    mapError_ok]

theorem Document.read_written {s : Text.Utf8.Source} {v : Value}
    (current : d.metadata.version = currentFormat) (written : d.WrittenAs v)
    (read : Reading.ofSource s = (v.reading, true)) : Document.read s = .ok d := by
  have fits : d.metadata.version < UInt32.size := by
    rw [current]
    decide
  simp only [Document.read, Document.decode_written fits written read, bind, Except.bind,
    if_pos current]
  rfl

theorem Document.version_of_read {s : Text.Utf8.Source} (read : Document.read s = .ok d) :
    d.metadata.version = currentFormat := by
  unfold Document.read at read
  cases decoded : Document.decode s with
  | error f =>
    rw [decoded] at read
    contradiction
  | ok d' =>
    simp only [decoded, bind, Except.bind] at read
    split at read
    · rename_i current
      cases read
      exact current
    · contradiction

theorem Document.read_page (current : d.metadata.version = currentFormat) :
    Document.read (Text.Utf8.ofText d.page) = .ok d :=
  read_written current d.toValue_writtenAs (Value.ofSource_page d.toValue_fits)

theorem Document.read_line (current : d.metadata.version = currentFormat) :
    Document.read (Text.Utf8.ofText d.toValue.line) = .ok d :=
  read_written current d.toValue_writtenAs (Value.ofSource_line d.toValue_fits)

end Texts

/-- A document of the current format is read back from both of its texts, and from that of any
value that means it. Whatever text a document was read from, its own text is read as the same
document, and no other document that is read from there has another text. -/
theorem Document.text_round_trip :
    (∀ d : Document, d.metadata.version = currentFormat →
      Document.read (Text.Utf8.ofText d.page) = .ok d ∧
        Document.read (Text.Utf8.ofText d.toValue.line) = .ok d) ∧
    (∀ s d, Document.read s = .ok d → Document.read (Text.Utf8.ofText d.page) = .ok d ∧
      ∀ d', Document.read (Text.Utf8.ofText d.page) = .ok d' → d'.page = d.page) ∧
    (∀ (k : Value.Layout) (d : Document) (v : Value), d.metadata.version = currentFormat →
      d.WrittenAs v → v.Fits → Document.read ((k.write 0 v).map some) = .ok d) := by
  refine ⟨fun d current => ⟨read_page current, read_line current⟩, ?accepted, ?meant⟩
  case accepted =>
    intro s d read
    have again := read_page (version_of_read read)
    refine ⟨again, fun d' other => ?_⟩
    rw [again] at other
    cases other
    rfl
  case meant =>
    intro k d v current written fits
    have read := @Value.ofSource_write k v fits [] nofun
    rw [List.append_nil] at read
    exact read_written current written read

/-- A document with a bare number, upper case digits without a prefix, an array for a record and a
member that nobody knows. -/
def bareValue : Value :=
  .object [("note", .whole 1),
    ("metadata", .array [.whole 5, .string (String.ofList (List.replicate 64 'A'))]),
    ("data", .null)]

def bareDocument : Document := ⟨⟨currentFormat, ⟨List.replicate rootSize 0xaa, rfl⟩⟩, none⟩

theorem bareDocument_writtenAs : bareDocument.WrittenAs bareValue := by
  have digits : Text.Hex.Spells (List.replicate rootSize 0xaa) (List.replicate 64 'A') := by
    simp only [rootSize, List.replicate]
    repeat refine .cons (.inr (by decide)) (.inr (by decide)) ?_
    exact .nil
  exact ⟨_, _, rfl, ⟨_, _, rfl, .inl rfl, _, digits, .inl rfl⟩, rfl⟩

theorem bareDocument_round_trip :
    Document.read (Text.Utf8.ofText bareValue.line) = .ok bareDocument ∧
      Document.read (Text.Utf8.ofText bareDocument.page) = .ok bareDocument := by
  obtain ⟨-, accepted, meant⟩ := Document.text_round_trip
  have read := meant .oneLine bareDocument bareValue rfl bareDocument_writtenAs
    (by simp [bareValue, Value.Fits, Value.MembersFit, Value.ItemsFit, Lexeme.InWord,
      Number.signedLimit, UInt64.size])
  rw [Value.Layout.write_oneLine] at read
  have text : Text.Utf8.ofText bareValue.line = (Value.compact bareValue).map some := by
    simp [Text.Utf8.ofText, Value.line]
  rw [text]
  exact ⟨read, (accepted _ bareDocument read).1⟩

end SlashGuard
