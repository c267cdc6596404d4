import Destructure.Proofs.Dispatcher
import Destructure.Proofs.Json.Token
import Destructure.Proofs.Number.Position
import Destructure.Proofs.Pattern.Display

/-! # Numerals as patterns and as JSON

A numeral alone is a pattern, which fits the numbers that are equal to the one it denotes and nothing
else.  The display of a number is a numeral of just that number.

A numeral of JSON is a pattern as well.  The two readings of it may differ in kind: zero with a minus
sign is an integer as a pattern, and a floating point number in JSON, since no integer denotes it.  They
are equal all the same, so equality carries every match over from one reading to the other.
-/

namespace Destructure

namespace Value

theorem number_beq_number (m n : Number) : (number m == number n) = (m == n) := rfl

/-- Only numbers are equal to a number. -/
theorem beq_number_iff {w : Value} {n : Number} :
    (w == number n) = true ↔ ∃ m, w = number m ∧ (m == n) = true := by
  constructor
  · intro same
    cases w with
    | number m => exact ⟨m, rfl, same⟩
    | null | bool | str | list => cases same
  · rintro ⟨m, rfl, same⟩
    exact same

end Value

/-! ## Patterns -/

theorem Pattern.parse_numeral {k : Numeral} (proper : k.Proper) {text : String}
    (written : text.toList = k.text) : parse text = .ok (.number (.ofNumeral k)) := by
  rw [parse_eq_read, written]
  exact read_atom (.number proper)

/-- A numeral fits the numbers that are equal to its own. -/
theorem Limits.destructure_numeral {k : Numeral} (proper : k.Proper) {text : String}
    (written : text.toList = k.text) (w : Value) : unlimited.destructure text w =
      .ok (if w == .number (.ofNumeral k) then some .empty else none) := by
  have read : unlimited.compile text = .ok (.number (.ofNumeral k)) :=
    Pattern.parse_numeral proper written
  rw [destructure_eq_bind, read]
  rfl

namespace Number

theorem IsFinite.beq_self {n : Number} (finite : n.IsFinite) : (n == n) = true := by
  rw [beq_iff_position]
  cases n with
  | int i => exact ⟨_, rfl, rfl⟩
  | float x =>
      cases x with
      | nan | infinite => cases finite
      | finite negative rank => exact ⟨_, rfl, rfl⟩

theorem ofNumeral_eq_of_ofInt? {k : Numeral} {n : Number} (integral : k.isIntegral = true)
    (inRange : ofInt? k.integer = some n) : ofNumeral k = n := by
  simp only [ofNumeral, integral, if_true, inRange]

theorem ofNumeral_eq_float {k : Numeral} (h : k.isIntegral = false ∨ ofInt? k.integer = none) :
    ofNumeral k = float (.ofDecimal (k.toDecimal 0)) := by
  rcases h with fractional | outOfRange
  · simp [ofNumeral, fractional]
  · simp [ofNumeral, outOfRange]

/-- A finite number is displayed as a literal of that number: the display is the pattern of the same
number, of the same kind, and fits the numbers that are equal to it.  No other number fits it, however
close, and no value of another kind. -/
theorem destructure_display_number (n : Number) (finite : n.IsFinite) :
    Pattern.parse (toString n) = .ok (.number n) ∧
    (∀ m : Number, (m == n) = true →
      Limits.unlimited.destructure (toString n) (.number m) = .ok (some .empty)) ∧
    (∀ w : Value, (∀ m : Number, w = .number m → (m == n) = false) →
      Limits.unlimited.destructure (toString n) w = .ok none) := by
  obtain ⟨k, proper, shown, denotes⟩ := finite.exists_numeral
  have written : (toString n).toList = k.text := by
    rw [toString, instToString, String.toList_ofList, shown]
  have parsed := Pattern.parse_numeral proper written
  have matched := Limits.destructure_numeral proper written
  rw [denotes] at parsed matched
  refine ⟨parsed, ?_, ?_⟩
  · intro m same
    have equal : (Value.number m == .number n) = true := same
    rw [matched, equal]
    rfl
  · intro w other
    have different : (w == .number n) = false := by
      rw [Bool.eq_false_iff]
      intro equal
      obtain ⟨m, rfl, same⟩ := Value.beq_number_iff.mp equal
      rw [other m rfl] at same
      cases same
    rw [matched, different]
    rfl

/-- The floating point number before the integer `2 ^ 53 + 1` is displayed with a point, and does not
fit that integer. -/
theorem destructure_display_neighbour :
    (float (.ofInt 0x20000000000000)).IsFinite ∧
      Limits.unlimited.destructure (toString (float (.ofInt 0x20000000000000)))
        (.number (int 0x20000000000000)) = .ok (some .empty) ∧
      Limits.unlimited.destructure (toString (float (.ofInt 0x20000000000000)))
        (.number (int 0x20000000000001)) = .ok none := by
  have finite : (float (.ofInt 0x20000000000000)).IsFinite := by
    rw [IsFinite]
    decide +kernel
  have same : (int 0x20000000000000 == float (.ofInt 0x20000000000000)) = true := by
    decide +kernel
  have other : (int 0x20000000000001 == float (.ofInt 0x20000000000000)) = false := by
    decide +kernel
  obtain ⟨-, fits, differs⟩ := destructure_display_number _ finite
  refine ⟨finite, fits _ same, differs _ ?_⟩
  rintro m ⟨⟩
  exact other

end Number

/-! ## JSON -/

namespace Json

/-- A number of JSON without a power of ten: a numeral with no needless zero in front. -/
def IsNumeral (text : String) : Prop :=
  ∃ k : Numeral, k.Proper ∧ (k.whole.head? = some '0' → k.whole.length = 1) ∧ text.toList = k.text

theorem tokens?_of_scan?_eq_none {c : Char} {text : List Char} (solid : isSpace c = false)
    (h : Token.scan? (c :: text) = none) : tokens? (c :: text) = none := by
  rw [tokens?, solid, if_neg Bool.false_ne_true]
  split
  · rfl
  · rename_i found
    rw [h] at found
    cases found

/-- A numeral that stands alone is read as the number that JSON gives to it, if there is one. -/
theorem read?_numeral {k : Numeral} (proper : k.Proper)
    (canonical : k.whole.head? = some '0' → k.whole.length = 1) {text : String}
    (written : text.toList = k.text) : read? text = (number? k none).map .number := by
  have scanned : scanNumber? (k.text ++ []) = (number? k none).map (·, []) :=
    scanNumber?_text proper canonical (by simp) (power?_of_ends endsNumber_nil)
  obtain ⟨c, rest, front, starts⟩ := proper.exists_text_eq_cons
  have solid := isSpace_of_starts starts
  rw [List.append_nil, front] at scanned
  rw [read?, written, front]
  cases found : number? k none with
  | none =>
      rw [found] at scanned
      have stuck : Token.scan? (c :: rest) = none := by
        rw [scan?_of_starts starts, scanned]
        rfl
      rw [tokens?_of_scan?_eq_none solid stuck]
      rfl
  | some m =>
      rw [found] at scanned
      have one : Token.scan? (c :: rest) = some (.number m, []) := by
        rw [scan?_of_starts starts, scanned]
        rfl
      rw [tokens?_of_scan? solid one, tokens?]
      rfl

theorem ofDecimal_of_integer_eq_zero {k : Numeral} (whole : k.isIntegral = true)
    (zero : k.integer = 0) : Binary64.ofDecimal (k.toDecimal 0) = .finite k.negative 0 := by
  have digits : Decimal.ofDigits k.whole = 0 := by
    simp only [Numeral.integer] at zero
    split at zero <;> omega
  have coefficient : (k.toDecimal 0).coefficient = 0 := by
    rw [Numeral.toDecimal, List.isEmpty_iff.mp whole, List.append_nil, digits]
  rw [Binary64.ofDecimal, if_pos coefficient]
  rfl

/-- The number that JSON gives to a numeral is equal to the one that a pattern gives to it. -/
theorem beq_ofNumeral {k : Numeral} {m : Number} (h : number? k none = some m) :
    (m == .ofNumeral k) = true := by
  have same := (isFinite_of_number? h).beq_self
  have float : (if (Binary64.ofDecimal (k.toDecimal 0)).isFinite then
      some (Number.float (.ofDecimal (k.toDecimal 0))) else none) = some m →
      m = .float (.ofDecimal (k.toDecimal 0)) := by
    intro found
    split at found
    · cases found
      rfl
    · cases found
  simp only [number?, Option.getD_none, true_and] at h
  split at h
  · rename_i integer
    cases whole : Number.ofInt? k.integer with
    | some i =>
        rw [whole] at h
        cases h
        rwa [Number.ofNumeral_eq_of_ofInt? integer.1 whole]
    | none =>
        rw [whole] at h
        obtain rfl := float h
        rwa [Number.ofNumeral_eq_float (.inr whole)]
  · rename_i notInteger
    obtain rfl := float h
    cases integral : k.isIntegral with
    | false => rwa [Number.ofNumeral_eq_float (.inl integral)]
    | true =>
        -- what is left is a zero with a minus sign, of which only JSON keeps the sign
        obtain ⟨negative, zero⟩ : k.negative = true ∧ k.integer = 0 := by
          simpa [integral] using notInteger
        have inRange : Number.ofInt? k.integer = some (.int 0) := by
          rw [zero]
          rfl
        rw [Number.ofNumeral_eq_of_ofInt? integral inRange,
          ofDecimal_of_integer_eq_zero integral zero, negative]
        decide +kernel

/-- The two readings of a numeral agree.  A numeral that JSON text may consist of is a number as a
pattern and fits the value that JSON gives to it, and of two such numerals each fits the value of the
other or neither does. -/
theorem numeral_readings_agree {t : String} {v : Value} (numeral : IsNumeral t)
    (read : read? t = some v) :
    (∃ n, Pattern.parse t = .ok (.number n)) ∧
    Limits.unlimited.destructure t v = .ok (some .empty) ∧
    ∀ (u : String) (w : Value), IsNumeral u → read? u = some w →
      ((∃ b, Limits.unlimited.destructure t w = .ok (some b)) ↔
        ∃ b, Limits.unlimited.destructure u v = .ok (some b)) := by
  obtain ⟨k, proper, canonical, written⟩ := numeral
  rw [read?_numeral proper canonical written, Option.map_eq_some_iff] at read
  obtain ⟨m, found, rfl⟩ := read
  have own := beq_ofNumeral found
  have matched := Limits.destructure_numeral proper written
  refine ⟨⟨_, Pattern.parse_numeral proper written⟩, ?_, ?_⟩
  · rw [matched, Value.number_beq_number, if_pos own]
  · rintro u w ⟨k', proper', canonical', written'⟩ read'
    rw [read?_numeral proper' canonical' written', Option.map_eq_some_iff] at read'
    obtain ⟨m', found', rfl⟩ := read'
    have own' := beq_ofNumeral found'
    have crossed : (m' == .ofNumeral k) = (m == .ofNumeral k') := by
      rw [Bool.eq_iff_iff]
      constructor
      · intro fits
        exact BEq.trans (BEq.trans own (BEq.symm fits)) own'
      · intro fits
        exact BEq.trans (BEq.trans own' (BEq.symm fits)) own
    rw [matched, Limits.destructure_numeral proper' written', Value.number_beq_number,
      Value.number_beq_number, crossed]

/-- Zero with a minus sign is a floating point number in JSON and an integer as a pattern. -/
theorem numeral_readings_agree_negative_zero :
    IsNumeral "-0" ∧ IsNumeral "0.0" ∧
      read? "-0" = some (.number (.float (.finite true 0))) ∧
      read? "0.0" = some (.number (.float (.finite false 0))) ∧
      Pattern.parse "-0" = .ok (.number (.int 0)) ∧
      Limits.unlimited.destructure "-0" (.number (.float (.finite true 0))) =
        .ok (some .empty) ∧
      ∃ b, Limits.unlimited.destructure "-0" (.number (.float (.finite false 0))) =
        .ok (some b) := by
  have proper : Numeral.Proper ⟨true, ['0'], []⟩ := ⟨by simp, by simp, by simp⟩
  have proper' : Numeral.Proper ⟨false, ['0'], ['0']⟩ := ⟨by simp, by simp, by simp⟩
  have numeral : IsNumeral "-0" := ⟨_, proper, fun _ => rfl, rfl⟩
  have numeral' : IsNumeral "0.0" := ⟨_, proper', fun _ => rfl, rfl⟩
  have number : number? ⟨true, ['0'], []⟩ none = some (.float (.finite true 0)) := by
    decide +kernel
  have number' : number? ⟨false, ['0'], ['0']⟩ none = some (.float (.finite false 0)) := by
    decide +kernel
  have read : read? "-0" = some (.number (.float (.finite true 0))) := by
    rw [read?_numeral proper (fun _ => rfl) rfl, number]
    rfl
  have read' : read? "0.0" = some (.number (.float (.finite false 0))) := by
    rw [read?_numeral proper' (fun _ => rfl) rfl, number']
    rfl
  obtain ⟨-, fits, crossed⟩ := numeral_readings_agree numeral read
  have same : (Number.float (.finite true 0) == .ofNumeral ⟨false, ['0'], ['0']⟩) = true := by
    decide +kernel
  have fits' : Limits.unlimited.destructure "0.0" (.number (.float (.finite true 0))) =
      .ok (some .empty) := by
    rw [Limits.destructure_numeral proper' rfl, Value.number_beq_number, if_pos same]
  exact ⟨numeral, numeral', read, read', Pattern.parse_numeral proper rfl, fits,
    (crossed "0.0" _ numeral' read').mpr ⟨_, fits'⟩⟩

end Json

end Destructure
