import Destructure.Text.Quoted
import Mathlib.Data.List.TakeWhile

/-! # Displayed strings are unambiguous

A character is displayed as it is, by a backslash and a letter of its own, or by a backslash and its
code between braces.  Each display tells by itself where it ends, and none starts like the quote that
ends a string.  So the display of a string tells the string, whatever comes after it.
-/

namespace Destructure.Text

/-! ## Digits -/

theorem hexDigits_eq (n : Nat) : hexDigits n =
    if n < 16 then [Nat.digitChar n] else hexDigits (n / 16) ++ [Nat.digitChar (n % 16)] :=
  Nat.toDigits_eq_if (by decide)

theorem hexDigits_injective {m n : Nat} (same : hexDigits m = hexDigits n) : m = n := by
  induction m using Nat.strongRecOn generalizing n with
  | ind m ih =>
      have single : ∀ a < 16, ∀ b < 16, Nat.digitChar a = Nat.digitChar b → a = b := by decide
      have nonempty : ∀ k, hexDigits k ≠ [] := fun k => Nat.toDigits_ne_nil
      rw [hexDigits_eq m, hexDigits_eq n] at same
      split at same
      · rename_i small
        split at same
        · rename_i small'
          exact single m small n small' (List.singleton_inj.mp same)
        · exact absurd (List.singleton_eq_append_iff.mp same) (by simp [nonempty])
      · split at same
        · exact absurd (List.append_eq_singleton_iff.mp same) (by simp [nonempty])
        · obtain ⟨front, final⟩ := List.append_inj' same rfl
          have quotient := ih (m / 16) (by omega) front
          have remainder := single (m % 16) (Nat.mod_lt m (by decide)) (n % 16)
            (Nat.mod_lt n (by decide)) (List.singleton_inj.mp final)
          omega

theorem exists_of_mem_hexDigits {n : Nat} {c : Char} (member : c ∈ hexDigits n) :
    ∃ k < 16, c = Nat.digitChar k := by
  induction n using Nat.strongRecOn with
  | ind n ih =>
      rw [hexDigits_eq] at member
      split at member
      · rename_i small
        exact ⟨n, small, List.mem_singleton.mp member⟩
      · rcases List.mem_append.mp member with front | final
        · exact ih (n / 16) (by omega) front
        · exact ⟨n % 16, Nat.mod_lt n (by decide), List.mem_singleton.mp final⟩

theorem hexDigits_brace_inj {m n : Nat} {s t : List Char}
    (same : hexDigits m ++ '\x7d' :: s = hexDigits n ++ '\x7d' :: t) : m = n ∧ s = t := by
  have noBrace : ∀ k, ∀ c ∈ hexDigits k, (c != '\x7d') = true := by
    intro k c member
    have other : ∀ d < 16, (Nat.digitChar d != '\x7d') = true := by decide
    obtain ⟨d, small, rfl⟩ := exists_of_mem_hexDigits member
    exact other d small
  have digits := congrArg (List.takeWhile (· != '\x7d')) same
  have rest := congrArg (List.dropWhile (· != '\x7d')) same
  simp only [List.takeWhile_append_of_pos (noBrace _), List.dropWhile_append_of_pos (noBrace _),
    List.takeWhile_cons, List.dropWhile_cons, bne_self_eq_false, Bool.false_eq_true, if_false,
    List.append_nil] at digits rest
  exact ⟨hexDigits_injective digits, (List.cons.inj rest).2⟩

/-! ## Characters -/

/-- The characters that have a letter for their escape, with that letter. -/
def escapes : List (Char × Char) :=
  [('\x00', '0'), ('\t', 't'), ('\n', 'n'), ('\r', 'r'), ('"', '"'), ('\\', '\\')]

/-- The three ways to display a character. -/
inductive Shows : List Char → Char → Prop where
  | plain {c} (quote : c ≠ '"') (backslash : c ≠ '\\') : Shows [c] c
  | letter {c sign} (listed : (c, sign) ∈ escapes) : Shows ['\\', sign] c
  | code {c} (backslash : c ≠ '\\') :
      Shows (['\\', 'u', '\x7b'] ++ hexDigits c.toNat ++ ['\x7d']) c

theorem shows_displayChar (c : Char) : Shows (displayChar c) c := by
  unfold displayChar
  split
  case h_7 _ _ _ _ quote backslash =>
    split
    · exact .code backslash
    · exact .plain quote backslash
  all_goals exact .letter (by decide)

namespace Shows

variable {x y s t : List Char} {c d : Char}

/-- A displayed character is told from what it is displayed as, and so is what comes after it. -/
theorem append_inj (left : Shows x c) (right : Shows y d) (same : x ++ s = y ++ t) :
    c = d ∧ s = t := by
  have determined : ∀ p ∈ escapes, ∀ q ∈ escapes, p.2 = q.2 → p.1 = q.1 := by decide
  have noCode : ∀ p ∈ escapes, p.2 ≠ 'u' := by decide
  cases left with
  | plain quote backslash =>
      cases right with
      | plain => exact List.cons.inj same
      | letter | code => exact absurd (List.cons.inj same).1 backslash
  | letter listed =>
      cases right with
      | plain quote backslash => exact absurd (List.cons.inj same).1.symm backslash
      | letter listed' =>
          obtain ⟨letters, rest⟩ := List.cons.inj (List.cons.inj same).2
          exact ⟨determined _ listed _ listed' letters, rest⟩
      | code => exact absurd (List.cons.inj (List.cons.inj same).2).1 (noCode _ listed)
  | code =>
      cases right with
      | plain quote backslash => exact absurd (List.cons.inj same).1.symm backslash
      | letter listed => exact absurd (List.cons.inj (List.cons.inj same).2).1.symm (noCode _ listed)
      | code =>
          simp only [List.cons_append, List.append_assoc, List.nil_append, List.cons.injEq,
            true_and] at same
          obtain ⟨codes, rest⟩ := hexDigits_brace_inj same
          exact ⟨Char.toNat_inj.mp codes, rest⟩

theorem ne_quote (shows : Shows x c) : x ++ s ≠ '"' :: t := by
  intro same
  cases shows with
  | plain quote backslash => exact quote (List.cons.inj same).1
  | letter | code => cases (List.cons.inj same).1

end Shows

/-! ## Strings -/

theorem contents_append_inj {a b s t : List Char}
    (same : a.flatMap displayChar ++ '"' :: s = b.flatMap displayChar ++ '"' :: t) :
    a = b ∧ s = t := by
  induction a generalizing b with
  | nil =>
      cases b with
      | nil => exact ⟨rfl, (List.cons.inj same).2⟩
      | cons d b =>
          rw [List.flatMap_cons, List.append_assoc] at same
          exact absurd same.symm (shows_displayChar d).ne_quote
  | cons c a ih =>
      rw [List.flatMap_cons, List.append_assoc] at same
      cases b with
      | nil => exact absurd same (shows_displayChar c).ne_quote
      | cons d b =>
          rw [List.flatMap_cons, List.append_assoc] at same
          obtain ⟨rfl, others⟩ := (shows_displayChar c).append_inj (shows_displayChar d) same
          obtain ⟨rfl, rest⟩ := ih others
          exact ⟨rfl, rest⟩

theorem displayString_append_inj {a b s t : List Char}
    (same : displayString a ++ s = displayString b ++ t) : a = b ∧ s = t := by
  simp only [displayString, List.cons_append, List.append_assoc, List.nil_append, List.cons.injEq,
    true_and] at same
  exact contents_append_inj same

end Destructure.Text
