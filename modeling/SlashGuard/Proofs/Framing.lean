import SlashGuard.Client
import SlashGuard.Proofs.Characters

/-! Lines on a connection. A value is written without a line end, so what is sent of it is one line,
and what arrives is split into the lines that were sent. -/
namespace SlashGuard

namespace Json.Value

theorem newline_not_mem_escape (c : Char) : '\n' ∉ escape c := by
  intro member
  unfold escape at member
  iterate 7
    split at member
    · simp at member
  split at member
  · have none : ∀ m < 16, Nat.digitChar m ≠ '\n' := by decide
    have other (n : Nat) : '\n' ≠ Nat.digitChar (n % 16) :=
      (none (n % 16) (Nat.mod_lt n (by decide))).symm
    simp [fourDigits, other] at member
  · rename_i own _ _ _ _ _
    exact own (List.mem_singleton.mp member).symm

theorem newline_not_mem_quote (s : String) : '\n' ∉ quote s := by
  simp [quote, newline_not_mem_escape]

theorem newline_not_mem_digits (n : Int) : '\n' ∉ digits n := by
  have none : '\n' ∉ Nat.toDigits 10 n.natAbs := by
    intro member
    have digit := Nat.isDigit_of_mem_toDigits (by decide) (by decide) member
    exact absurd digit (by decide)
  unfold digits
  split <;> simp [none]

mutual

/-- The text of a value in one line has no line end, whatever stands in its strings. -/
theorem newline_not_mem_compact (v : Value) : '\n' ∉ compact v := by
  match v with
  | .null => decide
  | .bool b => cases b <;> decide
  | .whole n => exact newline_not_mem_digits n
  | .string s => exact newline_not_mem_quote s
  | .array [] => decide
  | .array (v :: vs) =>
    simp [compact, newline_not_mem_compact v, newline_not_mem_compactItems vs]
  | .object [] => decide
  | .object ((k, v) :: ms) =>
    simp [compact, newline_not_mem_quote k, newline_not_mem_compact v,
      newline_not_mem_compactMembers ms]

theorem newline_not_mem_compactItems (vs : List Value) : '\n' ∉ compactItems vs := by
  match vs with
  | [] => decide
  | v :: vs => simp [compactItems, newline_not_mem_compact v, newline_not_mem_compactItems vs]

theorem newline_not_mem_compactMembers (ms : List (String × Value)) : '\n' ∉ compactMembers ms := by
  match ms with
  | [] => decide
  | (k, v) :: ms =>
    simp [compactMembers, newline_not_mem_quote k, newline_not_mem_compact v,
      newline_not_mem_compactMembers ms]

end

theorem newline_not_mem_line (v : Value) : '\n' ∉ v.line.toList := by
  rw [line, String.toList_ofList]
  exact newline_not_mem_compact v

end Json.Value

namespace Connection

open Text.Utf8 (encode)

inductive Splits : List UInt8 → List (List UInt8) → Prop
  | nil : Splits [] []
  | last {body : List UInt8} (nonempty : body ≠ []) (whole : 10 ∉ body) : Splits body [body]
  | line {body rest : List UInt8} {ls : List (List UInt8)} (whole : 10 ∉ body)
      (others : Splits rest ls) : Splits (body ++ 10 :: rest) ((body ++ [10]) :: ls)

theorem lines_line {body : List UInt8} (whole : 10 ∉ body) (rest : List UInt8) :
    lines (body ++ 10 :: rest) = (body ++ [10]) :: lines rest := by
  induction body with
  | nil => rfl
  | cons b body ih =>
    rw [List.mem_cons, not_or] at whole
    obtain ⟨other, whole⟩ := whole
    rw [List.cons_append, lines, if_neg (Ne.symm other), ih whole]
    rfl

theorem lines_last {body : List UInt8} (nonempty : body ≠ []) (whole : 10 ∉ body) :
    lines body = [body] := by
  induction body with
  | nil => contradiction
  | cons b body ih =>
    rw [List.mem_cons, not_or] at whole
    obtain ⟨other, whole⟩ := whole
    rw [lines, if_neg (Ne.symm other)]
    cases body with
    | nil => rfl
    | cons c body => rw [ih (List.cons_ne_nil c body) whole]

theorem splits_lines (bytes : List UInt8) : Splits bytes (lines bytes) := by
  induction bytes with
  | nil => exact .nil
  | cons b bytes ih =>
    rw [lines]
    by_cases mark : b = 10
    · rw [if_pos mark, mark]
      exact .line List.not_mem_nil ih
    · have other {body : List UInt8} (whole : 10 ∉ body) : 10 ∉ b :: body :=
        fun member => (List.mem_cons.mp member).elim (Ne.symm mark) whole
      rw [if_neg mark]
      cases found : lines bytes with
      | nil =>
        rw [found] at ih
        cases ih
        exact .last (List.cons_ne_nil b []) (other List.not_mem_nil)
      | cons l ls =>
        rw [found] at ih
        cases ih with
        | last _ whole => exact .last (List.cons_ne_nil b _) (other whole)
        | line whole others => exact .line (other whole) others

theorem splits_iff {bytes : List UInt8} {ls : List (List UInt8)} :
    Splits bytes ls ↔ lines bytes = ls := by
  constructor
  · intro splits
    induction splits with
    | nil => rfl
    | last nonempty whole => exact lines_last nonempty whole
    | line whole _ ih => rw [lines_line whole, ih]
  · rintro rfl
    exact splits_lines bytes

def sent (v : Json.Value) : List UInt8 := encode (line v).toList

theorem sent_eq (v : Json.Value) : sent v = encode v.line.toList ++ [10] := by
  rw [sent, line, String.toList_append, Text.Utf8.encode_append]
  rfl

theorem lines_sent (v : Json.Value) (rest : List UInt8) :
    lines (sent v ++ rest) = sent v :: lines rest := by
  have whole : 10 ∉ encode v.line.toList :=
    mt Text.Utf8.mem_encode_newline_iff.mp v.newline_not_mem_line
  rw [sent_eq, List.append_assoc]
  exact lines_line whole rest

theorem lines_sents (vs : List Json.Value) : lines (vs.flatMap sent) = vs.map sent := by
  induction vs with
  | nil => rfl
  | cons v vs ih => rw [List.flatMap_cons, lines_sent, ih, List.map_cons]

end Connection

namespace Client

theorem firstLine_line {cs : List Char} (whole : '\n' ∉ cs) (more : List Char) :
    firstLine (cs ++ '\n' :: more) = cs ++ ['\n'] := by
  induction cs with
  | nil => rfl
  | cons c cs ih =>
    rw [List.mem_cons, not_or] at whole
    obtain ⟨other, whole⟩ := whole
    rw [List.cons_append, firstLine, if_neg (Ne.symm other), ih whole]
    rfl

theorem firstLine_sent (v : Json.Value) (more : List Char) :
    firstLine ((Connection.line v).toList ++ more) = (Connection.line v).toList := by
  rw [Connection.line, String.toList_append, List.append_assoc]
  exact firstLine_line v.newline_not_mem_line more

end Client

end SlashGuard
