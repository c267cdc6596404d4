import Destructure.Json.Quoted

/-! # JSON strings are read back

What one character is written as is read as that character, whatever comes after it, so a string is
read back character by character up to its closing quote.
-/

namespace Destructure.Json

def prependChar (c : Char) (read : List Char × List Char) : List Char × List Char :=
  (c :: read.1, read.2)

theorem contents?_escape {text after : List Char} {c : Char} (h : escape? text = some (c, after)) :
    contents? ('\\' :: text) = (contents? after).map (prependChar c) := by
  rw [contents?]
  split
  · simp_all
  · rename_i found
    rw [h] at found
    cases found
    rfl

theorem contents?_plain {c : Char} (quote : c ≠ '"') (backslash : c ≠ '\\')
    (visible : ¬ c.toNat < 0x20) (rest : List Char) :
    contents? (c :: rest) = (contents? rest).map (prependChar c) := by
  rw [contents?, if_neg visible]
  · rfl
  · exact quote
  · exact backslash

theorem codeUnit?_control : ∀ n < 0x20,
    codeUnit? ((Text.hexDigits n).leftpad 4 '0') = some (n, []) := by
  decide

/-- Four digits are read whatever comes after them. -/
theorem codeUnit?_append {digits : List Char} {n : Nat} (h : codeUnit? digits = some (n, []))
    (rest : List Char) : codeUnit? (digits ++ rest) = some (n, rest) := by
  unfold codeUnit? at h
  split at h
  · rename_i a b c d tail
    simp only [Option.bind_eq_bind, Option.bind_eq_some_iff, Option.some.injEq,
      Prod.mk.injEq] at h
    obtain ⟨x, hx, y, hy, z, hz, w, hw, value, rfl⟩ := h
    simp [codeUnit?, hx, hy, hz, hw, value]
  · cases h

theorem scalar?_toNat (c : Char) : scalar? c.toNat = some c := by
  have valid : c.toNat.isValidChar := c.valid
  rw [scalar?, if_pos valid, Char.ofNat_toNat]

theorem escape?_control {c : Char} (control : c.toNat < 0x20) (rest : List Char) :
    escape? ('u' :: (Text.hexDigits c.toNat).leftpad 4 '0' ++ rest) = some (c, rest) := by
  have unit := codeUnit?_append (codeUnit?_control c.toNat control) rest
  have single : ¬ (0xD800 ≤ c.toNat ∧ c.toNat < 0xDC00) := by omega
  simp only [List.cons_append, escape?, codePoint?, unit, if_neg single, scalar?_toNat,
    Option.map_some]

theorem contents?_encodeChar (c : Char) (rest : List Char) :
    contents? (encodeChar c ++ rest) = (contents? rest).map (prependChar c) := by
  unfold encodeChar
  split
  case h_8 _ quote backslash _ _ _ _ _ =>
    split
    · rename_i control
      exact contents?_escape (escape?_control control rest)
    · rename_i visible
      exact contents?_plain quote backslash visible rest
  all_goals exact contents?_escape rfl

theorem contents?_encode (text rest : List Char) :
    contents? (text.flatMap encodeChar ++ '"' :: rest) = some (text, rest) := by
  induction text with
  | nil => simp [contents?]
  | cons c text ih =>
      rw [List.flatMap_cons, List.append_assoc, contents?_encodeChar, ih]
      rfl

end Destructure.Json
