import Destructure.Json.Writer
import Destructure.Json.Token
import Destructure.Proofs.Number

/-! # JSON numbers are read back

A number is written as a numeral with a power of ten that may follow it.  Reading takes the kind from
the form, and the form is chosen so that the kind comes back: an integer has neither point nor power,
and a floating point number has one of them.  The value comes back because the decimal that is written
rounds to the number.
-/

namespace Destructure

namespace Decimal

/-- The numeral before the power of ten in the scientific layout. -/
def mantissaNumeral (d : Decimal) : Numeral where
  negative := d.negative
  whole := (digits d.coefficient).take 1
  fraction := (digits d.coefficient).drop 1

/-- The power of ten in the scientific layout, with its mark and its sign. -/
def powerText (e : Int) : List Char :=
  'e' :: (if e < 0 then '-' else '+') :: digits e.natAbs

theorem scientific_eq_text (d : Decimal) :
    d.scientific = d.mantissaNumeral.text ++ powerText d.leadingExponent := by
  obtain ⟨first, others, found⟩ := List.exists_cons_of_ne_nil (digits_ne_nil d.coefficient)
  cases others with
  | nil => simp [scientific, mantissaNumeral, Numeral.text, powerText, found]
  | cons second others => simp [scientific, mantissaNumeral, Numeral.text, powerText, found]

theorem mantissaNumeral_proper (d : Decimal) : d.mantissaNumeral.Proper where
  whole_ne_nil := by simp [mantissaNumeral, digits_ne_nil]
  whole_digits _ member := isDigit_of_mem_digits (List.mem_of_mem_take member)
  fraction_digits _ member := isDigit_of_mem_digits (List.mem_of_mem_drop member)

/-- The point of the mantissa and the power of ten cancel out. -/
theorem mantissaNumeral_toDecimal (d : Decimal) :
    d.mantissaNumeral.toDecimal d.leadingExponent = d := by
  have positive := List.length_pos_iff.mpr (digits_ne_nil d.coefficient)
  have exponent : d.leadingExponent - (d.mantissaNumeral.fraction.length : Int) = d.exponent := by
    simp only [leadingExponent, mantissaNumeral, List.length_drop]
    omega
  have coefficient : ofDigits (d.mantissaNumeral.whole ++ d.mantissaNumeral.fraction) =
      d.coefficient := by
    rw [mantissaNumeral, List.take_append_drop, ofDigits_digits]
  rw [Numeral.toDecimal, exponent, coefficient]
  rfl

end Decimal

namespace Json

/-- Nothing at the start of the text belongs to a number before it. -/
def EndsNumber (rest : List Char) : Prop :=
  ∀ c ∈ rest.head?, c.isDigit = false ∧ c ≠ '.' ∧ c ≠ 'e' ∧ c ≠ 'E'

theorem EndsNumber.stop {rest : List Char} (ends : EndsNumber rest) :
    ∀ c ∈ rest.head?, c.isDigit = false ∧ c ≠ '.' :=
  fun c first => ⟨(ends c first).1, (ends c first).2.1⟩

theorem power?_of_ends {rest : List Char} (ends : EndsNumber rest) :
    power? rest = some (none, rest) := by
  cases rest with
  | nil => rfl
  | cons c rest =>
      obtain ⟨-, -, small, capital⟩ := ends c rfl
      simp [power?, small, capital]

theorem power?_powerText (e : Int) {rest : List Char} (ends : EndsNumber rest) :
    power? (Decimal.powerText e ++ rest) = some (some e, rest) := by
  have stop : ∀ c ∈ rest.head?, c.isDigit = false := fun c first => (ends c first).1
  obtain ⟨take, drop⟩ := Numeral.digits_append
    (fun c => Decimal.isDigit_of_mem_digits (n := e.natAbs)) rest stop
  have notEmpty : (Decimal.digits e.natAbs).isEmpty = false :=
    List.isEmpty_eq_false_iff.mpr (Decimal.digits_ne_nil _)
  by_cases below : e < 0
  · have value : -|e| = e := by rw [abs_of_neg below, Int.neg_neg]
    simp [power?, Decimal.powerText, below, take, drop, notEmpty, Decimal.ofDigits_digits, value]
  · have value : |e| = e := abs_of_nonneg (by omega)
    simp [power?, Decimal.powerText, below, take, drop, notEmpty, Decimal.ofDigits_digits, value]

/-- A numeral without needless zeros is scanned with the power of ten after it. -/
theorem scanNumber?_text {k : Numeral} (proper : k.Proper)
    (canonical : k.whole.head? = some '0' → k.whole.length = 1) {suffix rest : List Char}
    (stop : ∀ c ∈ suffix.head?, c.isDigit = false ∧ c ≠ '.') {power : Option Int}
    (found : power? suffix = some (power, rest)) :
    scanNumber? (k.text ++ suffix) = (number? k power).map (·, rest) := by
  have checked : ¬ (k.whole.head? = some '0' ∧ k.whole.length ≠ 1) :=
    fun given => given.2 (canonical given.1)
  rw [scanNumber?, Numeral.scan?_text proper stop]
  simp only [if_neg checked, found]

theorem canonical_digits {n : Nat} (zero : (Decimal.digits n).head? = some '0') :
    (Decimal.digits n).length = 1 := by
  rw [Decimal.eq_zero_of_head_digits zero]
  rfl

/-- A numeral with a point or a power of ten denotes the floating point number that it rounds to. -/
theorem number?_of_rounds {k : Numeral} {power : Option Int} {negative : Bool}
    {rank : Fin Binary64.magnitudes} (inexact : k.fraction ≠ [] ∨ power ≠ none)
    (rounds : Binary64.ofDecimal (k.toDecimal (power.getD 0)) = .finite negative rank) :
    number? k power = some (.float (.finite negative rank)) := by
  have float : ¬ (power = none ∧ k.isIntegral = true ∧ ¬ (k.negative = true ∧ k.integer = 0)) := by
    simp only [Numeral.isIntegral, List.isEmpty_iff]
    tauto
  simp only [number?, if_neg float, rounds, Binary64.isFinite, if_true]

theorem number?_integerNumeral (i : Int64) :
    number? (Decimal.integerNumeral i.toInt) none = some (.int i) := by
  have signed : ¬ ((Decimal.integerNumeral i.toInt).negative = true ∧ i.toInt = 0) := by
    simp only [Decimal.integerNumeral, decide_eq_true_eq]
    omega
  have integral : (Decimal.integerNumeral i.toInt).isIntegral = true := rfl
  simp only [number?, integral, Decimal.integer_integerNumeral, signed, Number.ofInt?_toInt,
    not_false_eq_true, and_self, if_true]
  rfl

/-- A decimal that rounds to a number is read as that number in either layout. -/
theorem scanNumber?_layout {d : Decimal} {negative : Bool} {rank : Fin Binary64.magnitudes}
    (rounds : Binary64.ofDecimal d = .finite negative rank) {rest : List Char}
    (ends : EndsNumber rest) :
    scanNumber? (layout d ++ rest) = some (.float (.finite negative rank), rest) := by
  unfold layout
  split
  · have canonical : d.positionalNumeral.whole.head? = some '0' →
        d.positionalNumeral.whole.length = 1 := by
      simp only [Decimal.positionalNumeral]
      split <;> exact canonical_digits
    have same : Binary64.ofDecimal (d.positionalNumeral.toDecimal 0) = .finite negative rank := by
      rw [← rounds]
      exact Binary64.ofDecimal_congr rfl d.positionalNumeral_value
    have read : number? d.positionalNumeral none = _ := number?_of_rounds (.inl d.fraction_ne_nil) same
    rw [Decimal.positional_eq_text, scanNumber?_text d.positionalNumeral_proper canonical ends.stop
      (power?_of_ends ends), read]
    rfl
  · have canonical : d.mantissaNumeral.whole.head? = some '0' →
        d.mantissaNumeral.whole.length = 1 := by
      have positive := List.length_pos_iff.mpr (Decimal.digits_ne_nil d.coefficient)
      simp only [Decimal.mantissaNumeral, List.length_take]
      omega
    have same : Binary64.ofDecimal (d.mantissaNumeral.toDecimal d.leadingExponent) =
        .finite negative rank := by
      rw [d.mantissaNumeral_toDecimal, rounds]
    have read : number? d.mantissaNumeral (some d.leadingExponent) = _ :=
      number?_of_rounds (.inr (by simp)) same
    have stop : ∀ c ∈ (Decimal.powerText d.leadingExponent ++ rest).head?,
        c.isDigit = false ∧ c ≠ '.' := by
      simp [Decimal.powerText]
    rw [Decimal.scientific_eq_text, List.append_assoc,
      scanNumber?_text d.mantissaNumeral_proper canonical stop (power?_powerText _ ends), read]
    rfl

/-- What a number is written as is read as the same number, of the same kind. -/
theorem scanNumber?_writeNumber {n : Number} (finite : n.IsFinite) {rest : List Char}
    (ends : EndsNumber rest) : scanNumber? (writeNumber n ++ rest) = some (n, rest) := by
  cases n with
  | int i =>
      have canonical := canonical_digits (n := i.toInt.natAbs)
      rw [writeNumber, Decimal.integer_eq_text, scanNumber?_text
        (Decimal.integerNumeral_proper i.toInt) canonical ends.stop (power?_of_ends ends),
        number?_integerNumeral]
      rfl
  | float x =>
      cases x with
      | nan | infinite => cases finite
      | finite negative rank =>
          exact scanNumber?_layout (Binary64.ofDecimal_shortest .even negative rank) ends

/-- What a number is written as starts with a digit or a minus sign. -/
theorem exists_writeNumber_eq_cons {n : Number} (finite : n.IsFinite) :
    ∃ c rest, writeNumber n = c :: rest ∧ Numeral.Starts c := by
  have first : ∀ {k : Numeral} (suffix : List Char), k.Proper →
      ∃ c rest, k.text ++ suffix = c :: rest ∧ Numeral.Starts c := by
    intro k suffix proper
    obtain ⟨c, rest, written, starts⟩ := proper.exists_text_eq_cons
    exact ⟨c, rest ++ suffix, by rw [written, List.cons_append], starts⟩
  cases n with
  | int i =>
      have integer := first [] (Decimal.integerNumeral_proper i.toInt)
      rwa [List.append_nil, ← Decimal.integer_eq_text] at integer
  | float x =>
      cases x with
      | nan | infinite => cases finite
      | finite negative rank =>
          rw [writeNumber, layout]
          split
          · have positional := first [] (Binary64.shortest .even negative rank).positionalNumeral_proper
            rwa [List.append_nil, ← Decimal.positional_eq_text] at positional
          · rw [Decimal.scientific_eq_text]
            exact first _ (Binary64.shortest .even negative rank).mantissaNumeral_proper

theorem isFinite_of_number? {k : Numeral} {power : Option Int} {n : Number}
    (h : number? k power = some n) : n.IsFinite := by
  have float : ∀ x : Binary64, (if x.isFinite then some (Number.float x) else none) = some n →
      n.IsFinite := by
    intro x found
    split at found
    · rename_i finite
      cases found
      exact finite
    · cases found
  simp only [number?] at h
  split at h
  · cases whole : Number.ofInt? k.integer with
    | none =>
        rw [whole] at h
        exact float _ h
    | some m =>
        rw [whole] at h
        cases h
        rw [Number.ofInt?] at whole
        split at whole
        · cases whole
          trivial
        · cases whole
  · exact float _ h

/-- Only finite numbers are read. -/
theorem isFinite_of_scanNumber? {text rest : List Char} {n : Number}
    (h : scanNumber? text = some (n, rest)) : n.IsFinite := by
  unfold scanNumber? at h
  split at h
  · cases h
  · split at h
    · cases h
    · split at h
      · cases h
      · obtain ⟨m, found, same⟩ := Option.map_eq_some_iff.mp h
        cases same
        exact isFinite_of_number? found

end Json

end Destructure
