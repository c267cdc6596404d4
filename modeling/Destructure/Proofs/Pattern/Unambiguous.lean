import Destructure.Proofs.Pattern.Reading

/-! # The grammar is unambiguous

Reading from left to right, a quote outside a string always opens one, which ends at the next quote
of its kind.  So the strings of a derivation and what is left of the text without their contents
are both functions of the text.  A text with empty strings is read by the parser, in one way only,
and together with the strings this settles the derivation.
-/

namespace Destructure.Pattern

/-- The characters outside the strings of a text, and the contents of its strings.  The state is the
quote of the string that the text starts inside of, with the content of it so far. -/
def lex : Option (Char × List Char) → List Char → List (Char ⊕ List Char)
  | _, [] => []
  | none, c :: rest =>
    if IsQuote c then lex (some (c, [])) rest else .inl c :: lex none rest
  | some (quote, content), c :: rest =>
    if c = quote then .inr content :: lex none rest
    else lex (some (quote, content ++ [c])) rest

def emptied (text : List Char) : List Char :=
  (lex none text).flatMap (Sum.elim (fun c => [c]) fun _ => ['"', '"'])

def quoted (text : List Char) : List (List Char) :=
  (lex none text).filterMap Sum.getRight?

/-- No string is open at the end of the text. -/
def Closed (text : List Char) : Prop :=
  ∀ rest, lex none (text ++ rest) = lex none text ++ lex none rest

namespace Closed

theorem nil : Closed [] :=
  fun _ => rfl

theorem append {s t} (hs : Closed s) (ht : Closed t) : Closed (s ++ t) := by
  intro rest
  rw [List.append_assoc, hs, ht, hs, List.append_assoc]

theorem emptied_append {s} (h : Closed s) (t : List Char) :
    emptied (s ++ t) = emptied s ++ emptied t := by
  simp [emptied, h t]

theorem quoted_append {s} (h : Closed s) (t : List Char) :
    quoted (s ++ t) = quoted s ++ quoted t := by
  simp [quoted, h t]

end Closed

/-! ## Texts without quotes -/

theorem lex_of_no_quote {text} (h : ∀ c ∈ text, ¬ IsQuote c) (rest : List Char) :
    lex none (text ++ rest) = text.map .inl ++ lex none rest := by
  induction text with
  | nil => rfl
  | cons c text ih =>
      rw [List.cons_append, lex, if_neg (h c List.mem_cons_self),
        ih fun d member => h d (List.mem_cons_of_mem _ member)]
      rfl

theorem lex_eq_map {text} (h : ∀ c ∈ text, ¬ IsQuote c) : lex none text = text.map .inl := by
  have alone := lex_of_no_quote h []
  rwa [List.append_nil, lex, List.append_nil] at alone

theorem closed_of_no_quote {text} (h : ∀ c ∈ text, ¬ IsQuote c) : Closed text := by
  intro rest
  rw [lex_of_no_quote h rest, lex_eq_map h]

theorem emptied_of_no_quote {text} (h : ∀ c ∈ text, ¬ IsQuote c) : emptied text = text := by
  simp [emptied, lex_eq_map h, List.flatMap_map]

theorem quoted_of_no_quote {text} (h : ∀ c ∈ text, ¬ IsQuote c) : quoted text = [] := by
  simp [quoted, lex_eq_map h, List.filterMap_map]

/-! ## Strings -/

theorem lex_inside {quote} (content acc rest : List Char) (h : ∀ c ∈ content, c ≠ quote) :
    lex (some (quote, acc)) (content ++ quote :: rest) = .inr (acc ++ content) :: lex none rest := by
  induction content generalizing acc with
  | nil => rw [List.nil_append, lex, if_pos rfl, List.append_nil]
  | cons c content ih =>
      have others : ∀ d ∈ content, d ≠ quote := fun d member => h d (List.mem_cons_of_mem _ member)
      rw [List.cons_append, lex, if_neg (h c List.mem_cons_self), ih _ others, List.append_assoc]
      rfl

theorem lex_string {quote} (kind : IsQuote quote) {content} (h : ∀ c ∈ content, c ≠ quote)
    (rest : List Char) :
    lex none (quote :: content ++ [quote] ++ rest) = .inr content :: lex none rest := by
  rw [List.append_assoc, List.cons_append, lex, if_pos kind]
  exact lex_inside content [] rest h

theorem lex_string_alone {quote} (kind : IsQuote quote) {content} (h : ∀ c ∈ content, c ≠ quote) :
    lex none (quote :: content ++ [quote]) = [.inr content] := by
  have alone := lex_string kind h []
  rwa [List.append_nil, lex] at alone

/-! ## Groups -/

theorem closed_char {c} (h : ¬ IsQuote c) : Closed [c] :=
  closed_of_no_quote fun d member => by rwa [List.mem_singleton.mp member]

theorem emptied_cons {c} (h : ¬ IsQuote c) (text : List Char) :
    emptied (c :: text) = c :: emptied text := by
  simp [emptied, lex, h]

theorem quoted_cons {c} (h : ¬ IsQuote c) (text : List Char) : quoted (c :: text) = quoted text := by
  rw [quoted, lex, if_neg h, List.filterMap_cons_none rfl, quoted]

theorem closed_intercalate {sep} (plain : ¬ IsQuote sep) {texts : List (List Char)}
    (closed : ∀ text ∈ texts, Closed text) :
    Closed ([sep].intercalate texts) ∧
      emptied ([sep].intercalate texts) = [sep].intercalate (texts.map emptied) ∧
      quoted ([sep].intercalate texts) = (texts.map quoted).flatten := by
  induction texts with
  | nil => exact ⟨Closed.nil, rfl, rfl⟩
  | cons first texts ih =>
      have closedFirst := closed first List.mem_cons_self
      cases texts with
      | nil => simp [closedFirst]
      | cons next rest =>
          obtain ⟨closedRest, emptiedRest, quotedRest⟩ := ih fun text member =>
            closed text (List.mem_cons_of_mem _ member)
          simp only [List.map_cons, List.intercalate_cons_cons, List.append_assoc,
            List.singleton_append] at emptiedRest quotedRest ⊢
          refine ⟨closedFirst.append ((closed_char plain).append closedRest), ?_, ?_⟩
          · rw [closedFirst.emptied_append, emptied_cons plain, emptiedRest]
          · rw [closedFirst.quoted_append, quoted_cons plain, quotedRest]
            rfl

theorem closed_group (sep first last : Char) (plain : ¬ IsQuote sep) (opening : ¬ IsQuote first)
    (closing : ¬ IsQuote last) {texts : List (List Char)} (closed : ∀ text ∈ texts, Closed text) :
    Closed (first :: [sep].intercalate texts ++ [last]) ∧
      emptied (first :: [sep].intercalate texts ++ [last]) =
        first :: [sep].intercalate (texts.map emptied) ++ [last] ∧
      quoted (first :: [sep].intercalate texts ++ [last]) = (texts.map quoted).flatten := by
  obtain ⟨inside, emptiedInside, quotedInside⟩ := closed_intercalate plain closed
  have start := (closed_char opening).append inside
  refine ⟨start.append (closed_char closing), ?_, ?_⟩
  · rw [List.cons_append, emptied_cons opening, inside.emptied_append, emptied_cons closing,
      emptiedInside]
    rfl
  · rw [List.cons_append, quoted_cons opening, inside.quoted_append, quoted_cons closing,
      quotedInside]
    exact List.append_nil _

/-! ## Derivations of an emptied text -/

mutual
/-- The pattern with its strings empty. -/
def hollow : Pattern → Pattern
  | wildcard => wildcard
  | ident name => ident name
  | bool value => bool value
  | number n => number n
  | str _ => str ""
  | array items => array (hollowEach items)
  | cons heads tail => cons (hollowEach heads) (hollow tail)
  | named name inner => named name (hollow inner)

def hollowEach : List Pattern → List Pattern
  | [] => []
  | p :: ps => hollow p :: hollowEach ps
end

/-- The text is closed, its emptied text is written as the hollow pattern, and its strings are those
of the pattern. -/
structure Empties (written : List Char → Pattern → Prop) (text : List Char) (p : Pattern) :
    Prop where
  closed : Closed text
  emptied : written (emptied text) p.hollow
  quoted : quoted text = p.strings.map String.toList

theorem not_quote_of_blank {text} (h : Text.Blank text) : ∀ c ∈ text, ¬ IsQuote c := by
  intro c member kind
  have := h c member
  rw [kind.not_blank] at this
  cases this

theorem not_quote_of_alpha {text : List Char} (h : ∀ c ∈ text, c.isAlpha = true) :
    ∀ c ∈ text, ¬ IsQuote c := by
  intro c member kind
  have := h c member
  rw [kind.not_alpha] at this
  cases this

theorem not_quote_of_numeral {n : Numeral} (proper : n.Proper) : ∀ c ∈ n.text, ¬ IsQuote c := by
  intro c member kind
  rcases proper.of_mem_text member with rfl | rfl | digit
  · rcases kind with h | h <;> cases h
  · rcases kind with h | h <;> cases h
  · exact kind.not_numeral (.inr digit)

theorem Empties.of_no_quote {written text p} (h : ∀ c ∈ text, ¬ IsQuote c) (same : p.hollow = p)
    (none : p.strings = []) (whole : written text p) : Empties written text p where
  closed := closed_of_no_quote h
  emptied := by rwa [emptied_of_no_quote h, same]
  quoted := by rw [quoted_of_no_quote h, none, List.map_nil]

theorem empties_atomic {text p} (h : Atomic text p) :
    Empties (Bare fun _ _ => True) text p := by
  cases h with
  | number proper =>
      exact .of_no_quote (not_quote_of_numeral proper) rfl rfl (.atom (.number proper))
  | bool h =>
      have alpha := (isWord_iff.mp h.isWord).2
      exact .of_no_quote (not_quote_of_alpha alpha) rfl rfl (.atom (.bool h))
  | ident h =>
      exact .of_no_quote (not_quote_of_alpha h.letters) rfl rfl (.atom (.ident h))
  | @str quote content kind plain =>
      have alone := lex_string_alone kind fun c member => (plain c member).1
      have empty : Bare (fun _ _ => True) ['"', '"'] (.str "") :=
        .atom (@Atomic.str '"' [] (.inl rfl) fun c member => absurd member List.not_mem_nil)
      refine ⟨?_, ?_, ?_⟩
      · intro rest
        rw [lex_string kind fun c member => (plain c member).1, alone]
        rfl
      · rw [emptied, alone]
        exact empty
      · rw [quoted, alone]
        simp [strings]
  | wildcard =>
      have plain : ∀ c ∈ ['_'], ¬ IsQuote c := by
        intro c member
        rw [List.mem_singleton.mp member]
        decide
      exact .of_no_quote plain rfl rfl (.atom .wildcard)

mutual
theorem empties_of_written {parted text p} : Written parted text p → Empties Derives text p
  | @Written.surrounded _ before body after p hb ha bare => by
      obtain ⟨closed, derives, strings⟩ := empties_of_bare bare
      have blankBefore := not_quote_of_blank hb
      have blankAfter := not_quote_of_blank ha
      have start := (closed_of_no_quote blankBefore).append closed
      refine ⟨start.append (closed_of_no_quote blankAfter), ?_, ?_⟩
      · rw [start.emptied_append, (closed_of_no_quote blankBefore).emptied_append,
          emptied_of_no_quote blankBefore, emptied_of_no_quote blankAfter]
        exact .surrounded hb ha derives
      · rw [start.quoted_append, (closed_of_no_quote blankBefore).quoted_append,
          quoted_of_no_quote blankBefore, quoted_of_no_quote blankAfter, strings]
        exact List.append_nil _

theorem empties_of_bare {parted text p} : Bare parted text p →
    Empties (Bare fun _ _ => True) text p
  | .atom h => empties_atomic h
  | .emptyArray blank => by
      refine .of_no_quote (fun c member => ?_) rfl rfl (.emptyArray blank)
      rcases List.mem_append.mp member with member | member
      · rcases List.mem_cons.mp member with rfl | member
        · decide
        · exact not_quote_of_blank blank c member
      · rw [List.mem_singleton.mp member]
        decide
  | .array nonempty _ each => by
      obtain ⟨closed, derives, strings⟩ := empties_of_writtenEach each
      obtain ⟨whole, emptiedWhole, quotedWhole⟩ :=
        closed_group ',' '[' ']' (by decide) (by decide) (by decide) closed
      refine ⟨whole, ?_, quotedWhole.trans strings⟩
      rw [emptiedWhole]
      exact .array (by simpa using nonempty) trivial derives
  | .cons nonempty _ each final => by
      obtain ⟨closed, derives, strings⟩ := empties_of_writtenEach each
      obtain ⟨closedLast, derivesLast, stringsLast⟩ := empties_of_written final
      have closedAll := List.forall_mem_append.mpr ⟨closed, List.forall_mem_singleton.mpr closedLast⟩
      obtain ⟨whole, emptiedWhole, quotedWhole⟩ :=
        closed_group ':' '(' ')' (by decide) (by decide) (by decide) closedAll
      refine ⟨whole, ?_, ?_⟩
      · rw [emptiedWhole, List.map_append, List.map_singleton]
        exact .cons (by simpa using nonempty) trivial derives derivesLast
      · rw [quotedWhole, List.map_append, List.flatten_append, strings, List.map_singleton,
          List.flatten_singleton, stringsLast, Pattern.strings, List.map_append]
  | @Bare.named _ name text p identifier body => by
      obtain ⟨closed, derives, strings⟩ := empties_of_written body
      have plain := not_quote_of_alpha identifier.letters
      have closedName := closed_of_no_quote plain
      have sign : ¬ IsQuote '@' := by decide
      refine ⟨closedName.append ((closed_char sign).append closed), ?_, ?_⟩
      · rw [closedName.emptied_append, emptied_of_no_quote plain, emptied_cons sign]
        exact .named identifier derives
      · rw [closedName.quoted_append, quoted_of_no_quote plain, quoted_cons sign, strings]
        rfl

theorem empties_of_writtenEach {parted texts ps} : WrittenEach parted texts ps →
    (∀ text ∈ texts, Closed text) ∧
      WrittenEach (fun _ _ => True) (texts.map emptied) (hollowEach ps) ∧
      (texts.map quoted).flatten = (stringsEach ps).map String.toList
  | .nil => ⟨fun text member => absurd member List.not_mem_nil, .nil, rfl⟩
  | .cons first others => by
      obtain ⟨closed, derives, strings⟩ := empties_of_written first
      obtain ⟨closedOthers, derivesOthers, stringsOthers⟩ := empties_of_writtenEach others
      refine ⟨List.forall_mem_cons.mpr ⟨closed, closedOthers⟩, .cons derives derivesOthers, ?_⟩
      rw [List.map_cons, List.flatten_cons, strings, stringsOthers, stringsEach, List.map_append]
end

/-! ## Uniqueness -/

mutual
theorem strings_hollow (p : Pattern) : ∀ s ∈ p.hollow.strings, s = "" := by
  cases p with
  | wildcard | ident | bool | number => exact fun s member => absurd member List.not_mem_nil
  | str text => exact fun s member => List.mem_singleton.mp member
  | array items => exact strings_hollowEach items
  | cons heads tail =>
      exact List.forall_mem_append.mpr ⟨strings_hollowEach heads, strings_hollow tail⟩
  | named name inner => exact strings_hollow inner

theorem strings_hollowEach (ps : List Pattern) : ∀ s ∈ stringsEach (hollowEach ps), s = "" := by
  cases ps with
  | nil => exact fun s member => absurd member List.not_mem_nil
  | cons p ps => exact List.forall_mem_append.mpr ⟨strings_hollow p, strings_hollowEach ps⟩
end

theorem plain_hollow (p : Pattern) : Plain p.hollow.strings := by
  intro s member c inside
  rw [strings_hollow p s member] at inside
  cases inside

mutual
/-- A pattern is made of its hollow pattern and its strings. -/
theorem eq_of_hollow {p q : Pattern} {s t : List String} (same : p.hollow = q.hollow)
    (strings : p.strings ++ s = q.strings ++ t) : p = q ∧ s = t := by
  cases p with
  | str text =>
      cases q with
      | str text' =>
          obtain ⟨rfl, rfl⟩ := List.cons.inj strings
          exact ⟨rfl, rfl⟩
      | _ => simp [hollow] at same
  | array items =>
      cases q with
      | array items' =>
          simp only [hollow, array.injEq] at same
          obtain ⟨rfl, rfl⟩ := eqEach_of_hollow same strings
          exact ⟨rfl, rfl⟩
      | _ => simp [hollow] at same
  | cons heads tail =>
      cases q with
      | cons heads' tail' =>
          simp only [hollow, cons.injEq] at same
          simp only [Pattern.strings, List.append_assoc] at strings
          obtain ⟨rfl, rest⟩ := eqEach_of_hollow same.1 strings
          obtain ⟨rfl, rfl⟩ := eq_of_hollow same.2 rest
          exact ⟨rfl, rfl⟩
      | _ => simp [hollow] at same
  | named name inner =>
      cases q with
      | named name' inner' =>
          simp only [hollow, named.injEq] at same
          obtain ⟨rfl, rfl⟩ := eq_of_hollow same.2 strings
          exact ⟨by rw [same.1], rfl⟩
      | _ => simp [hollow] at same
  | wildcard | ident | bool | number =>
      cases q <;> simp_all [hollow, Pattern.strings]

theorem eqEach_of_hollow {ps qs : List Pattern} {s t : List String}
    (same : hollowEach ps = hollowEach qs) (strings : stringsEach ps ++ s = stringsEach qs ++ t) :
    ps = qs ∧ s = t := by
  cases ps with
  | nil =>
      cases qs with
      | nil => exact ⟨rfl, strings⟩
      | cons q qs => simp [hollowEach] at same
  | cons p ps =>
      cases qs with
      | nil => simp [hollowEach] at same
      | cons q qs =>
          simp only [hollowEach, List.cons.injEq] at same
          simp only [stringsEach, List.append_assoc] at strings
          obtain ⟨rfl, rest⟩ := eq_of_hollow same.1 strings
          obtain ⟨rfl, rfl⟩ := eqEach_of_hollow same.2 rest
          exact ⟨rfl, rfl⟩
end

/-- The grammar derives a text in one way at most, whatever its strings hold. -/
theorem derives_unique {text p q} (hp : Derives text p) (hq : Derives text q) : p = q := by
  obtain ⟨-, derivesP, stringsP⟩ := empties_of_written hp
  obtain ⟨-, derivesQ, stringsQ⟩ := empties_of_written hq
  have readP := read_iff.mpr ⟨derivesP, divided_of_plain _ (plain_hollow p)⟩
  have readQ := read_iff.mpr ⟨derivesQ, divided_of_plain _ (plain_hollow q)⟩
  have same : p.hollow = q.hollow := Except.ok.inj (readP.symm.trans readQ)
  have strings : p.strings = q.strings := by
    rw [stringsP] at stringsQ
    exact List.map_injective_iff.mpr (fun s t h => String.toList_inj.mp h) stringsQ
  exact (eq_of_hollow (s := []) (t := []) same (by rw [strings])).1

end Destructure.Pattern
