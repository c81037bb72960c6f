import SlashGuard.Proofs.Lexing

/-! The reading of a value that is written in one line or on indented lines: the value itself, with
nothing open and nothing after it. -/
namespace SlashGuard.Json

open Lexeme

namespace Value

mutual

/-- All whole numbers in a value are read back as such. -/
def Fits : Value → Prop
  | .whole n => InWord n
  | .array vs => ItemsFit vs
  | .object ms => MembersFit ms
  | _ => True

def ItemsFit : List Value → Prop
  | [] => True
  | v :: vs => Fits v ∧ ItemsFit vs

def MembersFit : List (String × Value) → Prop
  | [] => True
  | (_, v) :: ms => Fits v ∧ MembersFit ms

end

theorem itemsFit_iff {vs : List Value} : ItemsFit vs ↔ ∀ v ∈ vs, v.Fits := by
  induction vs with
  | nil => simp [ItemsFit]
  | cons v vs ih => simp [ItemsFit, ih]

theorem membersFit_iff {ms : List (String × Value)} : MembersFit ms ↔ ∀ m ∈ ms, m.2.Fits := by
  induction ms with
  | nil => simp [MembersFit]
  | cons m ms ih => simp [MembersFit, ih]

mutual

def lexemes : Value → List Lexeme
  | .null => [.null]
  | .bool b => [.bool b]
  | .whole n => [.number (some (.whole n))]
  | .string s => [.string (some s)]
  | .array [] => [.beginArray, .endArray]
  | .array (v :: vs) => .beginArray :: (lexemes v ++ (itemLexemes vs ++ [.endArray]))
  | .object [] => [.beginObject, .endObject]
  | .object ((k, v) :: ms) =>
    .beginObject :: .string (some k) :: .colon ::
      (lexemes v ++ (memberLexemes ms ++ [.endObject]))

def itemLexemes : List Value → List Lexeme
  | [] => []
  | v :: vs => .comma :: (lexemes v ++ itemLexemes vs)

def memberLexemes : List (String × Value) → List Lexeme
  | [] => []
  | (k, v) :: ms => .comma :: .string (some k) :: .colon :: (lexemes v ++ memberLexemes ms)

end

theorem scans_literal {b : Bool} {rest : Text.Utf8.Source} {ls : List Lexeme}
    (tail : Scans rest ls) : Scans ((literal b).map some ++ rest) (.bool b :: ls) := by
  have shorter : rest.length < ((literal b).map some ++ rest).length := by
    cases b <;> simp [literal] <;> omega
  cases b with
  | false => exact .lexeme rfl rfl shorter tail
  | true => exact .lexeme rfl rfl shorter tail

theorem scans_mark {c : Char} {l : Lexeme} {rest : Text.Utf8.Source} {ls : List Lexeme}
    (solid : Lexeme.isBlank (some c) = false) (mark : next (some c :: rest) = some (l, rest))
    (tail : Scans rest ls) : Scans (some c :: rest) (l :: ls) := by
  refine .lexeme ?_ mark (by simp) tail
  rw [List.dropWhile_cons_of_neg (by simp [solid])]

theorem ends_mark {c : Char} {rest : Text.Utf8.Source} (mark : c ∈ [',', ']', '\x7d']) :
    Ends (some c :: rest) := by
  simp only [List.mem_cons, List.not_mem_nil, or_false] at mark
  rcases mark with rfl | rfl | rfl <;>
    exact ends_cons (by decide) (by decide) (by decide) (by decide)

structure Layout where
  gap : Nat → List Char
  space : List Char
  gap_blank : ∀ level, ∀ c ∈ gap level, Lexeme.isBlank (some c) = true
  space_blank : ∀ c ∈ space, Lexeme.isBlank (some c) = true

namespace Layout

variable (k : Layout)

def oneLine : Layout := ⟨fun _ => [], [], nofun, nofun⟩

theorem newline_blank (level : Nat) : ∀ c ∈ newline level, Lexeme.isBlank (some c) = true := by
  intro c member
  rcases List.mem_cons.mp member with rfl | space
  · rfl
  · rw [List.eq_of_mem_replicate space]
    rfl

def lines : Layout where
  gap := newline
  space := [' ']
  gap_blank := newline_blank
  space_blank := fun c member => by rw [List.mem_singleton.mp member]; rfl

mutual

def write (level : Nat) : Value → List Char
  | .null => ['n', 'u', 'l', 'l']
  | .bool b => literal b
  | .whole n => digits n
  | .string s => quote s
  | .array [] => ['[', ']']
  | .array (v :: vs) =>
    '[' :: k.gap (level + 1) ++ write (level + 1) v ++ writeItems (level + 1) vs ++
      k.gap level ++ [']']
  | .object [] => ['\x7b', '\x7d']
  | .object ((key, v) :: ms) =>
    '\x7b' :: k.gap (level + 1) ++ quote key ++ ':' :: k.space ++ write (level + 1) v ++
      writeMembers (level + 1) ms ++ k.gap level ++ ['\x7d']

def writeItems (level : Nat) : List Value → List Char
  | [] => []
  | v :: vs => ',' :: k.gap level ++ write level v ++ writeItems level vs

def writeMembers (level : Nat) : List (String × Value) → List Char
  | [] => []
  | (key, v) :: ms =>
    ',' :: k.gap level ++ quote key ++ ':' :: k.space ++ write level v ++ writeMembers level ms

end

mutual

theorem write_oneLine (level : Nat) (v : Value) : oneLine.write level v = compact v := by
  match v with
  | .null | .bool _ | .whole _ | .string _ | .array [] | .object [] => rfl
  | .array (v :: vs) =>
    simp only [write, compact, write_oneLine (level + 1) v, writeItems_oneLine (level + 1) vs]
    simp [oneLine]
  | .object ((key, v) :: ms) =>
    simp only [write, compact, write_oneLine (level + 1) v, writeMembers_oneLine (level + 1) ms]
    simp [oneLine]

theorem writeItems_oneLine (level : Nat) (vs : List Value) :
    oneLine.writeItems level vs = compactItems vs := by
  match vs with
  | [] => rfl
  | v :: vs =>
    simp only [writeItems, compactItems, write_oneLine level v, writeItems_oneLine level vs]
    simp [oneLine]

theorem writeMembers_oneLine (level : Nat) (ms : List (String × Value)) :
    oneLine.writeMembers level ms = compactMembers ms := by
  match ms with
  | [] => rfl
  | (key, v) :: ms =>
    simp only [writeMembers, compactMembers, write_oneLine level v, writeMembers_oneLine level ms]
    simp [oneLine]

end

mutual

theorem write_lines (level : Nat) (v : Value) : lines.write level v = indented level v := by
  match v with
  | .null | .bool _ | .whole _ | .string _ | .array [] | .object [] => rfl
  | .array (v :: vs) =>
    simp only [write, indented, write_lines (level + 1) v, writeItems_lines (level + 1) vs]
    rfl
  | .object ((key, v) :: ms) =>
    simp only [write, indented, write_lines (level + 1) v, writeMembers_lines (level + 1) ms]
    simp [lines]

theorem writeItems_lines (level : Nat) (vs : List Value) :
    lines.writeItems level vs = indentedItems level vs := by
  match vs with
  | [] => rfl
  | v :: vs =>
    simp only [writeItems, indentedItems, write_lines level v, writeItems_lines level vs]
    rfl

theorem writeMembers_lines (level : Nat) (ms : List (String × Value)) :
    lines.writeMembers level ms = indentedMembers level ms := by
  match ms with
  | [] => rfl
  | (key, v) :: ms =>
    simp only [writeMembers, indentedMembers, write_lines level v, writeMembers_lines level ms]
    simp [lines]

end

variable {rest : Text.Utf8.Source} {ls : List Lexeme}

theorem scans_gap (level : Nat) (tail : Scans rest ls) :
    Scans ((k.gap level).map some ++ rest) ls := by
  refine .blanks ?_ tail
  intro c member
  obtain ⟨b, written, rfl⟩ := List.mem_map.mp member
  exact k.gap_blank level b written

theorem scans_space (tail : Scans rest ls) : Scans (k.space.map some ++ rest) ls := by
  refine .blanks ?_ tail
  intro c member
  obtain ⟨b, written, rfl⟩ := List.mem_map.mp member
  exact k.space_blank b written

theorem ends_gap (level : Nat) (ends : Ends rest) :
    Ends ((k.gap level).map some ++ rest) := by
  cases written : k.gap level with
  | nil => exact ends
  | cons c cs => exact ends_blank (k.gap_blank level c (written ▸ List.mem_cons_self))

theorem ends_writeItems {level : Nat} {vs : List Value} (ends : Ends rest) :
    Ends ((k.writeItems level vs).map some ++ rest) := by
  cases vs with
  | nil => exact ends
  | cons v vs => exact ends_mark (by decide)

theorem ends_writeMembers {level : Nat} {ms : List (String × Value)} (ends : Ends rest) :
    Ends ((k.writeMembers level ms).map some ++ rest) := by
  cases ms with
  | nil => exact ends
  | cons m ms => exact ends_mark (by decide)

mutual

theorem scans_write (v : Value) (fits : v.Fits) (level : Nat) {rest : Text.Utf8.Source}
    {ls : List Lexeme} (ends : Ends rest) (tail : Scans rest ls) :
    Scans ((k.write level v).map some ++ rest) (v.lexemes ++ ls) := by
  match v with
  | .null =>
    have shorter : rest.length < ((k.write level .null).map some ++ rest).length := by
      simp [write]
      omega
    exact .lexeme rfl rfl shorter tail
  | .bool b => exact scans_literal tail
  | .whole n => exact .whole fits ends tail
  | .string s => exact .string s tail
  | .array [] => exact scans_mark rfl rfl (scans_mark rfl rfl tail)
  | .array (v :: vs) =>
    simp only [write, lexemes, List.map_cons, List.map_append, List.map_nil, List.cons_append,
      List.append_assoc, List.nil_append]
    have close : Scans (some ']' :: rest) (.endArray :: ls) := scans_mark rfl rfl tail
    have stop := k.ends_gap level (ends_mark (by decide) : Ends (some ']' :: rest))
    have items := scans_writeItems vs fits.2 (level + 1) stop (k.scans_gap level close)
    have first := scans_write v fits.1 (level + 1) (k.ends_writeItems stop) items
    exact scans_mark rfl rfl (k.scans_gap (level + 1) first)
  | .object [] => exact scans_mark rfl rfl (scans_mark rfl rfl tail)
  | .object ((key, v) :: ms) =>
    simp only [write, lexemes, List.map_cons, List.map_append, List.map_nil, List.cons_append,
      List.append_assoc, List.nil_append]
    have close : Scans (some '\x7d' :: rest) (.endObject :: ls) := scans_mark rfl rfl tail
    have stop := k.ends_gap level (ends_mark (by decide) : Ends (some '\x7d' :: rest))
    have members := scans_writeMembers ms fits.2 (level + 1) stop (k.scans_gap level close)
    have value := scans_write v fits.1 (level + 1) (k.ends_writeMembers stop) members
    exact scans_mark rfl rfl (k.scans_gap (level + 1)
      (.string key (scans_mark rfl rfl (k.scans_space value))))

theorem scans_writeItems (vs : List Value) (fits : ItemsFit vs) (level : Nat)
    {rest : Text.Utf8.Source} {ls : List Lexeme} (ends : Ends rest) (tail : Scans rest ls) :
    Scans ((k.writeItems level vs).map some ++ rest) (itemLexemes vs ++ ls) := by
  match vs with
  | [] => exact tail
  | v :: vs =>
    simp only [writeItems, itemLexemes, List.map_cons, List.map_append, List.cons_append,
      List.append_assoc]
    have items := scans_writeItems vs fits.2 level ends tail
    have first := scans_write v fits.1 level (k.ends_writeItems ends) items
    exact scans_mark rfl rfl (k.scans_gap level first)

theorem scans_writeMembers (ms : List (String × Value)) (fits : MembersFit ms) (level : Nat)
    {rest : Text.Utf8.Source} {ls : List Lexeme} (ends : Ends rest) (tail : Scans rest ls) :
    Scans ((k.writeMembers level ms).map some ++ rest) (memberLexemes ms ++ ls) := by
  match ms with
  | [] => exact tail
  | (key, v) :: ms =>
    simp only [writeMembers, memberLexemes, List.map_cons, List.map_append, List.cons_append,
      List.append_assoc]
    have members := scans_writeMembers ms fits.2 level ends tail
    have value := scans_write v fits.1 level (k.ends_writeMembers ends) members
    exact scans_mark rfl rfl (k.scans_gap level
      (.string key (scans_mark rfl rfl (k.scans_space value))))

end

end Layout

mutual

def reading : Value → Reading
  | .null => .null
  | .bool b => .bool b
  | .whole n => .number (some (.whole n))
  | .string s => .string (some s)
  | .array vs => .array (readings vs) true
  | .object ms => .object (memberReadings ms) true

def readings : List Value → List Reading
  | [] => []
  | v :: vs => reading v :: readings vs

def memberReadings : List (String × Value) → List (Reading × Reading)
  | [] => []
  | (k, v) :: ms => (.string (some k), reading v) :: memberReadings ms

end

theorem readings_eq_map (vs : List Value) : readings vs = vs.map reading := by
  induction vs with
  | nil => rfl
  | cons v vs ih => simp [readings, ih]

theorem memberReadings_eq_map (ms : List (String × Value)) :
    memberReadings ms = ms.map fun m => (.string (some m.1), m.2.reading) := by
  induction ms with
  | nil => rfl
  | cons m ms ih => simp [memberReadings, ih]

mutual

theorem isIntact_reading (v : Value) : v.reading.isIntact = true := by
  match v with
  | .null | .bool _ | .whole _ | .string _ => rfl
  | .array vs => simp [reading, Reading.isIntact, areIntact_readings vs]
  | .object ms => simp [reading, Reading.isIntact, membersIntact_readings ms]

theorem areIntact_readings (vs : List Value) : Reading.areIntact (readings vs) = true := by
  match vs with
  | [] => rfl
  | v :: vs => simp [readings, Reading.areIntact, isIntact_reading v, areIntact_readings vs]

theorem membersIntact_readings (ms : List (String × Value)) :
    Reading.membersIntact (memberReadings ms) = true := by
  match ms with
  | [] => rfl
  | (key, v) :: ms =>
    simp [memberReadings, Reading.membersIntact, isIntact_reading v, membersIntact_readings ms]

end

open Reading

mutual

theorem foldl_lexemes (v : Value) (frames : List Frame) (orEnd : Bool) (ls : List Lexeme) :
    (v.lexemes ++ ls).foldl step (.within frames (.value orEnd)) =
      ls.foldl step (put v.reading frames) := by
  match v with
  | .null => rfl
  | .bool b => rfl
  | .whole n => rfl
  | .string s => rfl
  | .array [] => rfl
  | .array (v :: vs) =>
    simp only [lexemes, List.cons_append, List.append_assoc, List.foldl_cons, List.nil_append]
    have first := foldl_lexemes v (.array [] :: frames) true
      (itemLexemes vs ++ .endArray :: ls)
    have others := foldl_itemLexemes vs [v.reading] frames (.endArray :: ls)
    simp only [step, stepValue, first, put, others, List.foldl_cons, stepComma, List.reverse_append,
      List.reverse_reverse]
    rfl
  | .object [] => rfl
  | .object ((k, v) :: ms) =>
    simp only [lexemes, List.cons_append, List.append_assoc, List.foldl_cons, List.nil_append]
    have first := foldl_lexemes v (.object [] (some (.string (some k))) :: frames) false
      (memberLexemes ms ++ .endObject :: ls)
    have others := foldl_memberLexemes ms [(.string (some k), v.reading)] frames
      (.endObject :: ls)
    simp only [step, stepValue, stepKey, first, put, others, List.foldl_cons, stepComma,
      List.reverse_append, List.reverse_reverse]
    rfl

theorem foldl_itemLexemes (vs : List Value) (done : List Reading) (frames : List Frame)
    (ls : List Lexeme) :
    (itemLexemes vs ++ ls).foldl step (.within (.array done :: frames) .comma) =
      ls.foldl step (.within (.array ((readings vs).reverse ++ done) :: frames) .comma) := by
  match vs with
  | [] => rfl
  | v :: vs =>
    have first := foldl_lexemes v (.array done :: frames) false (itemLexemes vs ++ ls)
    have others := foldl_itemLexemes vs (v.reading :: done) frames ls
    simp only [itemLexemes, List.cons_append, List.append_assoc, List.foldl_cons, step, stepComma,
      first, put, others, readings, List.reverse_cons, List.nil_append]

theorem foldl_memberLexemes (ms : List (String × Value)) (done : List (Reading × Reading))
    (frames : List Frame) (ls : List Lexeme) :
    (memberLexemes ms ++ ls).foldl step (.within (.object done none :: frames) .comma) =
      ls.foldl step (.within (.object ((memberReadings ms).reverse ++ done) none :: frames)
        .comma) := by
  match ms with
  | [] => rfl
  | (k, v) :: ms =>
    have first := foldl_lexemes v (.object done (some (.string (some k))) :: frames) false
      (memberLexemes ms ++ ls)
    have others := foldl_memberLexemes ms ((.string (some k), v.reading) :: done) frames ls
    simp only [memberLexemes, List.cons_append, List.append_assoc, List.foldl_cons, step, stepComma,
      stepKey, first, put, others, memberReadings, List.reverse_cons, List.nil_append]

end

/-- A value is read back as itself, whatever blanks stand in its text and after it. -/
theorem ofSource_write (k : Layout) {v : Value} (fits : v.Fits) {bs : Text.Utf8.Source}
    (blank : ∀ b ∈ bs, Lexeme.isBlank b = true) :
    Reading.ofSource ((k.write 0 v).map some ++ bs) = (v.reading, true) := by
  have ends : Ends bs := by
    cases bs with
    | nil => exact ends_nil
    | cons b bs => exact ends_blank (blank b List.mem_cons_self)
  have after : Scans bs [] := by
    have none : Scans (bs ++ []) [] := .blanks blank .nil
    rwa [List.append_nil] at none
  have scanned := k.scans_write v fits 0 ends after
  have read := scanned _ (Nat.le_refl _)
  rw [ofSource, ofLexemes, Json.lexemes, read, start, foldl_lexemes]
  rfl

theorem ofSource_line_append {v : Value} (fits : v.Fits) {bs : Text.Utf8.Source}
    (blank : ∀ b ∈ bs, Lexeme.isBlank b = true) :
    Reading.ofSource (Text.Utf8.ofText v.line ++ bs) = (v.reading, true) := by
  have text : Text.Utf8.ofText v.line = (Layout.oneLine.write 0 v).map some := by
    simp [Text.Utf8.ofText, line, Layout.write_oneLine]
  rw [text]
  exact ofSource_write _ fits blank

theorem ofSource_line {v : Value} (fits : v.Fits) :
    Reading.ofSource (Text.Utf8.ofText v.line) = (v.reading, true) := by
  have read := @ofSource_line_append v fits [] nofun
  rwa [List.append_nil] at read

theorem ofSource_page {v : Value} (fits : v.Fits) :
    Reading.ofSource (Text.Utf8.ofText v.page) = (v.reading, true) := by
  have text : Text.Utf8.ofText v.page = (Layout.lines.write 0 v).map some ++ [] := by
    simp [Text.Utf8.ofText, page, Layout.write_lines]
  rw [text]
  exact ofSource_write _ fits nofun

end Value

end SlashGuard.Json
