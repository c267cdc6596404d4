import Destructure.Text.Hexadecimal

/-! # Strings in JSON

A string is written between double quotes.  The quote, the backslash and the control characters
below U+0020 are escaped, and all other characters stand for themselves.  Reading also knows the
escapes that writing does not use, and joins the two halves of a surrogate pair; half a pair alone
is refused.
-/

namespace Destructure.Json

def encodeChar (c : Char) : List Char :=
  match c with
  | '"' => ['\\', '"']
  | '\\' => ['\\', '\\']
  | '\x08' => ['\\', 'b']
  | '\x0c' => ['\\', 'f']
  | '\n' => ['\\', 'n']
  | '\r' => ['\\', 'r']
  | '\t' => ['\\', 't']
  | c => if c.toNat < 0x20 then '\\' :: 'u' :: (Text.hexDigits c.toNat).leftpad 4 '0' else [c]

/-- A string in its quotes. -/
def encode (text : List Char) : List Char :=
  '"' :: text.flatMap encodeChar ++ ['"']

/-- Four hexadecimal digits, and what follows them. -/
def codeUnit? : List Char → Option (Nat × List Char)
  | a :: b :: c :: d :: rest => do
    let a ← Text.hexValue? a
    let b ← Text.hexValue? b
    let c ← Text.hexValue? c
    let d ← Text.hexValue? d
    some (((a * 16 + b) * 16 + c) * 16 + d, rest)
  | _ => none

/-- The character of a code point that is no surrogate. -/
def scalar? (n : Nat) : Option Char :=
  if n.isValidChar then some (Char.ofNat n) else none

/-- The character that one or two code units denote, and what follows them.  A unit from U+D800 to
U+DBFF carries the upper ten bits of a character past U+FFFF, and the lower ten must follow. -/
def codePoint? (text : List Char) : Option (Char × List Char) :=
  match codeUnit? text with
  | none => none
  | some (unit, rest) =>
    if 0xD800 ≤ unit ∧ unit < 0xDC00 then
      match rest with
      | '\\' :: 'u' :: tail =>
        match codeUnit? tail with
        | none => none
        | some (low, after) =>
          if 0xDC00 ≤ low ∧ low < 0xE000 then
            (scalar? (0x10000 + (unit - 0xD800) * 0x400 + (low - 0xDC00))).map (·, after)
          else
            none
      | _ => none
    else
      (scalar? unit).map (·, rest)

/-- The character of the escape whose backslash has just been read, and what follows it. -/
def escape? : List Char → Option (Char × List Char)
  | '"' :: rest => some ('"', rest)
  | '\\' :: rest => some ('\\', rest)
  | '/' :: rest => some ('/', rest)
  | 'b' :: rest => some ('\x08', rest)
  | 'f' :: rest => some ('\x0c', rest)
  | 'n' :: rest => some ('\n', rest)
  | 'r' :: rest => some ('\r', rest)
  | 't' :: rest => some ('\t', rest)
  | 'u' :: rest => codePoint? rest
  | _ => none

theorem length_lt_of_codeUnit? {text rest : List Char} {n : Nat}
    (h : codeUnit? text = some (n, rest)) : rest.length < text.length := by
  unfold codeUnit? at h
  split at h
  · simp only [Option.bind_eq_bind, Option.bind_eq_some_iff, Option.some.injEq,
      Prod.mk.injEq] at h
    obtain ⟨_, _, _, _, _, _, _, _, _, rfl⟩ := h
    simp only [List.length_cons]
    omega
  · cases h

theorem length_lt_of_codePoint? {text rest : List Char} {c : Char}
    (h : codePoint? text = some (c, rest)) : rest.length < text.length := by
  unfold codePoint? at h
  split at h
  · cases h
  · next unit middle hu =>
    have first := length_lt_of_codeUnit? hu
    split at h
    · split at h
      · next tail =>
        split at h
        · cases h
        · next low after hl =>
          have second := length_lt_of_codeUnit? hl
          split at h
          · obtain ⟨_, _, he⟩ := Option.map_eq_some_iff.1 h
            cases he
            simp only [List.length_cons] at first
            omega
          · cases h
      · cases h
    · obtain ⟨_, _, he⟩ := Option.map_eq_some_iff.1 h
      cases he
      exact first

theorem length_lt_of_escape? {text rest : List Char} {c : Char}
    (h : escape? text = some (c, rest)) : rest.length < text.length := by
  unfold escape? at h
  split at h
  case h_9 => exact Nat.lt_succ_of_lt (length_lt_of_codePoint? h)
  case h_10 => cases h
  all_goals
    cases h
    simp

/-- The string whose opening quote has just been read, and what follows its closing quote. -/
def contents? (text : List Char) : Option (List Char × List Char) :=
  match text with
  | [] => none
  | '"' :: rest => some ([], rest)
  | '\\' :: rest =>
    match _h : escape? rest with
    | none => none
    | some (c, after) => (contents? after).map fun (content, rest) => (c :: content, rest)
  | c :: rest =>
    if c.toNat < 0x20 then
      none
    else
      (contents? rest).map fun (content, rest) => (c :: content, rest)
termination_by text.length
decreasing_by
  · exact Nat.lt_succ_of_lt (length_lt_of_escape? _h)
  · exact Nat.lt_succ_self _

theorem length_lt_of_contents? {text content rest : List Char}
    (h : contents? text = some (content, rest)) : rest.length < text.length := by
  fun_induction contents? text generalizing content rest with
  | case1 => cases h
  | case2 => cases h; simp
  | case3 => cases h
  | case4 tail c after he ih =>
    obtain ⟨⟨_, _⟩, hc, hp⟩ := Option.map_eq_some_iff.1 h
    cases hp
    have := ih hc
    have := length_lt_of_escape? he
    simp only [List.length_cons]
    omega
  | case5 => cases h
  | case6 c tail _ _ _ ih =>
    obtain ⟨⟨_, _⟩, hc, hp⟩ := Option.map_eq_some_iff.1 h
    cases hp
    exact Nat.lt_succ_of_lt (ih hc)

end Destructure.Json
