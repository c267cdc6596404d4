import Destructure.Proofs.Json.Number
import Destructure.Proofs.Json.Quoted

/-! # The keys of a written object

The keys are the strings with a colon right after them.  No value that is written holds an object, and
in a list a string is followed by a comma or by the closing bracket.  So no string in a value is taken
for a key, and the keys that are read are the names that were written, in the same order.
-/

namespace Destructure.Json

/-- The strings with a colon right after them.  What stands outside of strings is not looked at. -/
def keys? (text : List Char) : Option (List String) :=
  match text with
  | [] => some []
  | '"' :: rest =>
    match _h : contents? rest with
    | none => none
    | some (content, after) =>
      if after.head? = some ':' then
        (keys? after).map (String.ofList content :: ·)
      else
        keys? after
  | _ :: rest => keys? rest
termination_by text.length
decreasing_by
  · exact Nat.lt_succ_of_lt (length_lt_of_contents? _h)
  · exact Nat.lt_succ_of_lt (length_lt_of_contents? _h)
  · exact Nat.lt_succ_self _

theorem keys?_cons {c : Char} (notQuote : c ≠ '"') (rest : List Char) :
    keys? (c :: rest) = keys? rest := by
  rw [keys?]
  exact notQuote

theorem keys?_encode (name : List Char) (rest : List Char) :
    keys? (encode name ++ rest) =
      if rest.head? = some ':' then (keys? rest).map (String.ofList name :: ·) else keys? rest := by
  rw [encode, List.cons_append, List.cons_append, List.append_assoc, List.singleton_append, keys?]
  split
  · rename_i none
    rw [contents?_encode] at none
    cases none
  · rename_i found
    rw [contents?_encode] at found
    cases found
    rfl

/-- These are the keys of the text wherever it stands, unless a colon comes next. -/
def HasKeys (text : List Char) (names : List String) : Prop :=
  ∀ rest : List Char, rest.head? ≠ some ':' → keys? (text ++ rest) = (keys? rest).map (names ++ ·)

namespace HasKeys

variable {text more : List Char} {names others : List String}

theorem nil : HasKeys [] [] := by
  intro rest _
  simp

theorem cons {c : Char} (notQuote : c ≠ '"') (h : HasKeys text names) :
    HasKeys (c :: text) names := by
  intro rest noColon
  rw [List.cons_append, keys?_cons notQuote, h rest noColon]

theorem append (h : HasKeys text names) (next : HasKeys more others)
    (noColon : more.head? ≠ some ':') : HasKeys (text ++ more) (names ++ others) := by
  intro rest free
  have between : (more ++ rest).head? ≠ some ':' := by
    cases more with
    | nil => exact free
    | cons c more => exact noColon
  rw [List.append_assoc, h _ between, next rest free, Option.map_map]
  congr 1
  funext found
  exact (List.append_assoc _ _ _).symm

theorem of_plain (plain : '"' ∉ text) : HasKeys text [] := by
  induction text with
  | nil => exact nil
  | cons c text ih =>
      obtain ⟨notQuote, others⟩ := List.ne_and_not_mem_of_not_mem_cons plain
      exact cons notQuote.symm (ih others)

theorem encode (name : List Char) : HasKeys (encode name) [] := by
  intro rest noColon
  rw [keys?_encode, if_neg noColon]
  simp

/-- A string before a colon is a key. -/
theorem member (name : String) (h : HasKeys text names) :
    HasKeys (Json.encode name.toList ++ ':' :: text) (name :: names) := by
  intro rest noColon
  rw [List.append_assoc, keys?_encode, List.cons_append, List.head?_cons, if_pos rfl,
    keys?_cons (by decide), h rest noColon, Option.map_map, String.ofList_toList]
  rfl

/-- Commas keep keys apart. -/
theorem intercalate {α : Type} {items : List α} {written : α → List Char}
    {keys : α → List String} (each : ∀ item ∈ items, HasKeys (written item) (keys item)) :
    HasKeys ([','].intercalate (items.map written)) (items.flatMap keys) := by
  induction items with
  | nil => exact nil
  | cons item items ih =>
      obtain ⟨first, later⟩ := List.forall_mem_cons.mp each
      have others := ih later
      cases items with
      | nil => simpa using first
      | cons next items =>
          have joined := first.append (others.cons (by decide : ',' ≠ '"')) (by simp)
          simpa [List.intercalate_cons_cons] using joined

end HasKeys

theorem quote_notMem_text {k : Numeral} (proper : k.Proper) : '"' ∉ k.text := by
  intro quoted
  have allowed := proper.of_mem_text quoted
  revert allowed
  decide

theorem quote_notMem_powerText (e : Int) : '"' ∉ Decimal.powerText e := by
  intro quoted
  rcases List.mem_cons.mp quoted with mark | quoted
  · cases mark
  · rcases List.mem_cons.mp quoted with sign | digit
    · split at sign <;> cases sign
    · exact absurd (Decimal.isDigit_of_mem_digits digit) (by decide)

theorem quote_notMem_writeNumber (n : Number) : '"' ∉ writeNumber n := by
  have null : '"' ∉ ['n', 'u', 'l', 'l'] := by decide
  cases n with
  | int i =>
      rw [writeNumber, Decimal.integer_eq_text]
      exact quote_notMem_text (Decimal.integerNumeral_proper i.toInt)
  | float x =>
      cases x with
      | nan | infinite => exact null
      | finite negative rank =>
          rw [writeNumber, layout]
          split
          · rw [Decimal.positional_eq_text]
            exact quote_notMem_text (Decimal.positionalNumeral_proper _)
          · rw [Decimal.scientific_eq_text, List.mem_append]
            rintro (quoted | quoted)
            · exact quote_notMem_text (Decimal.mantissaNumeral_proper _) quoted
            · exact quote_notMem_powerText _ quoted

/-- No string in a value is a key. -/
theorem hasKeys_write (v : Value) : HasKeys (write v) [] := by
  cases v with
  | null => exact .of_plain (by decide)
  | bool b => cases b <;> exact .of_plain (by decide)
  | number n => exact .of_plain (quote_notMem_writeNumber n)
  | str text => exact .encode text.toList
  | list items =>
      have each : ∀ item ∈ items, HasKeys (write item) [] := fun item member => hasKeys_write item
      have body := HasKeys.intercalate each
      have bracket : HasKeys [']'] [] := .of_plain (by decide)
      have whole : HasKeys ('[' :: ([','].intercalate (items.map write) ++ [']']))
          (items.flatMap (fun _ => []) ++ []) := (body.append bracket (by decide)).cons (by decide)
      rw [List.append_nil, List.flatMap_eq_nil_iff.mpr fun _ _ => rfl] at whole
      rwa [write, writeEach_eq_map]
termination_by sizeOf v

/-- What is read as the keys of an object are the names of its members. -/
theorem keys?_writeObject (members : List (String × Value)) :
    keys? (writeObject (members.map fun (name, value) => (name, write value))) =
      some (members.map Prod.fst) := by
  have each : ∀ entry ∈ members,
      HasKeys (encode entry.1.toList ++ ':' :: write entry.2) [entry.1] :=
    fun entry _ => .member entry.1 (hasKeys_write entry.2)
  have body := HasKeys.intercalate each
  have brace : HasKeys ['\x7d'] [] := .of_plain (by decide)
  have whole := (body.append brace (by decide)).cons (by decide : '\x7b' ≠ '"') [] (by simp)
  rw [← List.map_eq_flatMap] at whole
  simpa [writeObject, keys?, Function.comp_def] using whole

/-- A colon inside a string makes no key. -/
example : keys? (writeObject [("x", write (.list [.str "a\":", .str ":"])), ("y", write .null)]) =
    some ["x", "y"] := by
  decide +kernel

end Destructure.Json
