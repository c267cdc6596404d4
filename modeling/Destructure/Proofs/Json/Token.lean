import Destructure.Json.Reader
import Destructure.Proofs.Json.Number
import Destructure.Proofs.Json.Quoted

/-! # The tokens of a written value

What a value is written as falls into the tokens of that value.  Only a number could run on into what
follows it, and in a written value a number is followed by a comma, a bracket or nothing.
-/

namespace Destructure.Json

/-- Holds of the values that JSON text has, within so many open arrays. -/
inductive Readable : Nat → Value → Prop where
  | null {depth} : Readable depth .null
  | bool {depth} (b : Bool) : Readable depth (.bool b)
  | number {depth} {n : Number} (finite : n.IsFinite) : Readable depth (.number n)
  | str {depth} (text : String) : Readable depth (.str text)
  | list {depth} {items : List Value} (inside : depth < maxNesting)
      (each : ∀ v ∈ items, Readable (depth + 1) v) : Readable depth (.list items)

mutual
def tokensOf : Value → List Token
  | .null => [.null]
  | .bool b => [.bool b]
  | .number n => [.number n]
  | .str text => [.str text]
  | .list items => .opening :: [.comma].intercalate (tokensOfEach items) ++ [.closing]

def tokensOfEach : List Value → List (List Token)
  | [] => []
  | v :: vs => tokensOf v :: tokensOfEach vs
end

/-! ## One token -/

theorem tokens?_of_scan? {c : Char} {text after : List Char} {token : Token}
    (solid : isSpace c = false) (h : Token.scan? (c :: text) = some (token, after)) :
    tokens? (c :: text) = (tokens? after).map (token :: ·) := by
  rw [tokens?, solid, if_neg Bool.false_ne_true]
  split
  · rename_i none
    rw [h] at none
    cases none
  · rename_i found
    rw [h] at found
    cases found
    rfl

theorem tokens?_comma (rest : List Char) :
    tokens? (',' :: rest) = (tokens? rest).map (.comma :: ·) :=
  tokens?_of_scan? rfl rfl

theorem tokens?_opening (rest : List Char) :
    tokens? ('[' :: rest) = (tokens? rest).map (.opening :: ·) :=
  tokens?_of_scan? rfl rfl

theorem tokens?_closing (rest : List Char) :
    tokens? (']' :: rest) = (tokens? rest).map (.closing :: ·) :=
  tokens?_of_scan? rfl rfl

theorem tokens?_encode (text : String) (rest : List Char) :
    tokens? (encode text.toList ++ rest) = (tokens? rest).map (.str text :: ·) := by
  have scanned : Token.scan? ('"' :: (text.toList.flatMap encodeChar ++ '"' :: rest)) =
      some (.str text, rest) := by
    rw [Token.scan?, contents?_encode]
    simp
  have read := tokens?_of_scan? rfl scanned
  simpa [encode] using read

/-- No other token starts with a digit or a minus sign. -/
theorem scan?_of_starts {c : Char} (starts : Numeral.Starts c) (text : List Char) :
    Token.scan? (c :: text) =
      (scanNumber? (c :: text)).map fun (value, rest) => (.number value, rest) := by
  unfold Token.scan?
  split
  case h_8 => rfl
  all_goals
    rename_i found
    cases found
    simp [Numeral.Starts] at starts

theorem isSpace_of_starts {c : Char} (starts : Numeral.Starts c) : isSpace c = false := by
  rcases starts with rfl | digit
  · rfl
  · obtain ⟨low, high⟩ := Text.isDigit_iff.mp digit
    have other : ∀ d : Char, d.toNat < 48 → (c == d) = false := by
      rintro d below
      rw [beq_eq_false_iff_ne]
      rintro rfl
      omega
    simp [isSpace, other]

theorem tokens?_writeNumber {n : Number} (finite : n.IsFinite) {rest : List Char}
    (ends : EndsNumber rest) :
    tokens? (writeNumber n ++ rest) = (tokens? rest).map (.number n :: ·) := by
  have scanned := scanNumber?_writeNumber finite ends
  obtain ⟨c, others, written, starts⟩ := exists_writeNumber_eq_cons finite
  rw [written, List.cons_append] at scanned ⊢
  apply tokens?_of_scan? (isSpace_of_starts starts)
  rw [scan?_of_starts starts, scanned]
  rfl

/-! ## All tokens -/

theorem endsNumber_sign {c : Char} (sign : c = ',' ∨ c = ']') (rest : List Char) :
    EndsNumber (c :: rest) := by
  intro d first
  cases first
  rcases sign with rfl | rfl <;> decide

theorem endsNumber_nil : EndsNumber [] := by
  intro c first
  cases first

mutual
theorem tokens?_write (v : Value) {depth : Nat} (readable : Readable depth v) {rest : List Char}
    (ends : EndsNumber rest) : tokens? (write v ++ rest) = (tokens? rest).map (tokensOf v ++ ·) := by
  cases readable with
  | null => exact tokens?_of_scan? rfl rfl
  | bool b =>
      cases b
      · exact tokens?_of_scan? rfl rfl
      · exact tokens?_of_scan? rfl rfl
  | number finite => exact tokens?_writeNumber finite ends
  | str text => exact tokens?_encode text rest
  | @list _ items inside each =>
      have body := tokens?_writeEach items each rest
      simp only [write, tokensOf, List.cons_append, List.append_assoc, List.nil_append,
        tokens?_opening, body, Option.map_map]
      rfl
termination_by sizeOf v

/-- The items are taken with the bracket that closes their list. -/
theorem tokens?_writeEach (vs : List Value) {depth : Nat} (each : ∀ v ∈ vs, Readable depth v)
    (rest : List Char) : tokens? ([','].intercalate (writeEach vs) ++ ']' :: rest) =
      (tokens? rest).map ([.comma].intercalate (tokensOfEach vs) ++ .closing :: ·) := by
  cases vs with
  | nil => exact tokens?_closing rest
  | cons v vs =>
      obtain ⟨first, others⟩ := List.forall_mem_cons.mp each
      cases vs with
      | nil =>
          have item := tokens?_write v first (endsNumber_sign (.inr rfl) rest)
          simp [writeEach, tokensOfEach, item, tokens?_closing, Function.comp_def]
      | cons w ws =>
          have item := tokens?_write v first (endsNumber_sign (.inl rfl)
            ([','].intercalate (writeEach (w :: ws)) ++ ']' :: rest))
          have body := tokens?_writeEach (w :: ws) others rest
          simp only [writeEach, tokensOfEach] at item body ⊢
          simp [List.intercalate_cons_cons, item, body, tokens?_comma, Function.comp_def]
termination_by sizeOf vs
end

end Destructure.Json
