import Destructure.Proofs.Pattern.Levels
import Destructure.Proofs.Pattern.Skeleton

/-! # Reading is legibility

Without a limit on the depth, a text reads as a pattern exactly if it is `Legible` as that pattern.
One level of reading is the outline of the trimmed text with its parts read in turn; the theorem
follows by induction on the text in one direction, and on the derivation in the other.
-/

namespace Destructure.Pattern

def read (text : List Char) : Except MatchError Pattern :=
  parseAt none 0 text

theorem parse_eq_read (text : String) : parse text = read text.toList := rfl

/-- The parts of the shape read as the parts of the pattern. -/
inductive Denotes : Shape → Pattern → Prop where
  | atom (a : Atom) : Denotes (.atom a) a.toPattern
  | array {texts items} (each : List.Forall₂ (read · = .ok ·) texts items) :
      Denotes (.array texts) (.array items)
  | cons {texts heads last tail} (each : List.Forall₂ (read · = .ok ·) texts heads)
      (final : read last = .ok tail) : Denotes (.cons texts last) (.cons heads tail)
  | named {name text inner} (body : read text = .ok inner) :
      Denotes (.named name text) (.named (String.ofList name) inner)

theorem exceeded?_none (depth : Nat) : exceeded? none depth = none := rfl

/-- Without a limit the depth makes no difference. -/
theorem parseAt_none (depth : Nat) (text : List Char) : parseAt none depth text = read text := by
  induction text using partsInduction generalizing depth with
  | level text same =>
      rw [read, parseAt_eq none depth, parseAt_eq none 0]
      cases found : Shape.ofText? (Text.trim text) with
      | none => rfl
      | some s =>
          cases s with
          | atom a => rfl
          | array items =>
              have each : ∀ d, items.mapM (parseAt none d) = items.mapM read := by
                intro d
                exact mapM_congr fun part member => same _ part found member d
              simp only [exceeded?_none, each]
          | cons heads tail =>
              have each : ∀ d, heads.mapM (parseAt none d) = heads.mapM read := by
                intro d
                exact mapM_congr fun part member =>
                  same _ part found (List.mem_append_left _ member) d
              have final : ∀ d, parseAt none d tail = read tail :=
                same _ tail found (List.mem_append_right _ List.mem_cons_self)
              simp only [exceeded?_none, each, final]
          | named name inner =>
              have body : ∀ d, parseAt none d inner = read inner :=
                same _ inner found List.mem_cons_self
              simp only [exceeded?_none, body]

theorem read_eq_ok_iff {text p} :
    read text = .ok p ↔ ∃ s, Shape.Outlines (Text.trim text) s ∧ Denotes s p := by
  have each : ∀ d, parseAt none d = read := fun d => funext (parseAt_none d)
  rw [read, parseAt_eq, exceeded?_none]
  simp only [each, ← Shape.ofText?_eq_some_iff]
  cases found : Shape.ofText? (Text.trim text) with
  | none => simp
  | some s =>
      simp only [Option.some.injEq, exists_eq_left']
      cases s with
      | atom a =>
          constructor
          · intro given
            cases given
            exact .atom a
          · intro given
            cases given
            rfl
      | array texts =>
          simp only [bind_eq_ok_iff, mapM_eq_ok_iff]
          constructor
          · rintro ⟨items, each, ⟨⟩⟩
            exact .array each
          · intro given
            cases given
            exact ⟨_, ‹_›, rfl⟩
      | cons texts last =>
          simp only [bind_eq_ok_iff, mapM_eq_ok_iff]
          constructor
          · rintro ⟨tail, final, heads, each, ⟨⟩⟩
            exact .cons each final
          · intro given
            cases given
            exact ⟨_, ‹_›, _, ‹_›, rfl⟩
      | named name text =>
          simp only [bind_eq_ok_iff]
          constructor
          · rintro ⟨inner, body, ⟨⟩⟩
            exact .named body
          · intro given
            cases given
            exact ⟨_, ‹_›, rfl⟩

theorem read_of_no_shape {text} (h : Shape.ofText? (Text.trim text) = none) :
    read text = .error (.invalidPattern (String.ofList (Text.trim text))) := by
  rw [read, parseAt_eq, exceeded?_none, h]

theorem read_of_array {text items} (h : Shape.ofText? (Text.trim text) = some (.array items)) :
    read text = (do return .array (← items.mapM read)) := by
  have each : parseAt none (0 + 1) = read := funext (parseAt_none 1)
  rw [read, parseAt_eq, exceeded?_none, h]
  simp only [each]

/-! ## What is read is written -/

theorem Written.of_trim {parted text p} (bare : Bare parted (Text.trim text) p) :
    Written parted text p := by
  obtain ⟨before, after, hb, ha, split⟩ := Text.exists_surrounded_trim text
  rw [split]
  exact .surrounded hb ha bare

theorem WrittenEach.of_forall₂ {parted texts ps}
    (each : List.Forall₂ (Written parted) texts ps) : WrittenEach parted texts ps := by
  induction each with
  | nil => exact .nil
  | cons first _ ih => exact .cons first ih

theorem Written.of_written_trim {parted text p} (h : Written parted (Text.trim text) p) :
    Written parted text p := by
  obtain ⟨before, after, hb, ha, split⟩ := Text.exists_surrounded_trim text
  generalize Text.trim text = inner at h split
  cases h with
  | surrounded hb' ha' bare =>
      rw [split]
      have := Written.surrounded (hb.append hb') (ha'.append ha) bare
      simpa only [List.append_assoc] using this

theorem WrittenEach.of_map_trim {parted parts} {R : List Char → Pattern → Prop} {ps}
    (written : ∀ part ∈ parts.map Text.trim, ∀ q, R part q → Written parted part q)
    (each : List.Forall₂ R (parts.map Text.trim) ps) : WrittenEach parted parts ps := by
  have both := (List.forall₂_and_left (p := fun part => ∀ q, R part q → Written parted part q)
    _ _).mpr ⟨written, each⟩
  rw [List.forall₂_map_left_iff] at both
  refine .of_forall₂ (both.imp ?_)
  rintro part q ⟨sound, result⟩
  exact .of_written_trim (sound q result)

theorem legible_of_read {text p} (h : read text = .ok p) : Legible text p := by
  induction text using partsInduction generalizing p with
  | level text ih =>
      obtain ⟨s, outlines, denotes⟩ := read_eq_ok_iff.mp h
      have shorter : ∀ {part}, part ∈ s.parts → ∀ {q}, read part = .ok q → Legible part q :=
        fun member _ => ih s _ (Shape.ofText?_eq_some_iff.mpr outlines) member
      refine .of_trim ?_
      generalize Text.trim text = body at outlines
      cases outlines with
      | atom spells =>
          cases denotes
          exact .atom (atomic_iff.mpr ⟨_, spells, rfl⟩)
      | @array body texts fields =>
          cases denotes with
          | array each =>
              rcases (Enclosure.fields?_eq_some_iff Enclosure.array_solid).mp fields with
                ⟨blank, rfl⟩ | ⟨-, -, rfl⟩
              · cases each
                exact .emptyArray blank
              · have written := WrittenEach.of_map_trim (fun part member q => shorter member) each
                have bare := Bare.array (Enclosure.pieces_ne_nil _ 0 body)
                  (Enclosure.array.divides_pieces body) written
                have joined : [','].intercalate (Enclosure.array.pieces 0 body) = body :=
                  Enclosure.array.join_pieces 0 body
                rwa [joined] at bare
      | @cons body texts last nonempty fields =>
          cases denotes with
          | cons each final =>
              rcases (Enclosure.fields?_eq_some_iff Enclosure.cons_solid).mp fields with
                ⟨-, absurd⟩ | ⟨-, -, pieces⟩
              · simp at absurd
              · obtain ⟨front, rest, cut, rfl, restLast⟩ := List.map_eq_append_iff.mp pieces.symm
                obtain ⟨piece, rfl, rfl⟩ := List.map_eq_singleton_iff.mp restLast
                have written := WrittenEach.of_map_trim
                  (fun part member q => shorter (List.mem_append_left _ member)) each
                have writtenLast := shorter (List.mem_append_right _ List.mem_cons_self) final
                have divides := Enclosure.cons.divides_pieces body
                rw [cut] at divides
                have bare := Bare.cons (fun empty => nonempty (by rw [empty]; rfl)) divides written
                  (.of_written_trim writtenLast)
                have joined : [':'].intercalate (front ++ [piece]) = body := by
                  rw [← cut]
                  exact Enclosure.cons.join_pieces 0 body
                rwa [joined] at bare
      | named isName visible =>
          cases denotes with
          | named body =>
              exact .named (identifier_iff.mpr isName) (shorter List.mem_cons_self body)

/-! ## What is legible is read -/

theorem read_congr {s t} (same : Text.trim s = Text.trim t) : read s = read t := by
  rw [read, read, parseAt_eq, parseAt_eq, same]

theorem read_trim (text : List Char) : read (Text.trim text) = read text :=
  read_congr (Text.trim_trim text)

theorem read_of_outlines {text s p} (h : Shape.Outlines (Text.trim text) s) :
    read text = .ok p ↔ Denotes s p := by
  rw [read_eq_ok_iff]
  constructor
  · intro given
    obtain ⟨s', h', denotes⟩ := given
    rw [← Shape.ofText?_eq_some_iff] at h h'
    cases h.symm.trans h'
    exact denotes
  · exact fun denotes => ⟨s, h, denotes⟩

theorem visible_of_read {text p} (h : read text = .ok p) : ¬ Text.Blank text := by
  intro blank
  obtain ⟨s, outlines, -⟩ := read_eq_ok_iff.mp h
  rw [Text.trim_eq_nil_iff.mpr blank, ← Shape.ofText?_eq_some_iff] at outlines
  cases outlines

theorem visible_of_readEach {texts ps} (each : List.Forall₂ (read · = .ok ·) texts ps) :
    ∀ text ∈ texts, ¬ Text.Blank text := by
  induction each with
  | nil => exact fun text member => absurd member List.not_mem_nil
  | cons first _ ih =>
      intro text member
      rcases List.mem_cons.mp member with rfl | member
      · exact visible_of_read first
      · exact ih text member

theorem readEach_map_trim {texts ps} : List.Forall₂ (read · = .ok ·) (texts.map Text.trim) ps ↔
    List.Forall₂ (read · = .ok ·) texts ps := by
  simp only [List.forall₂_map_left_iff, read_trim]

theorem read_atom {text a} (h : Atom.Spells text a) : read text = .ok a.toPattern :=
  (read_of_outlines (by rw [h.trim_eq]; exact .atom h)).mpr (.atom a)

theorem read_emptyArray {blank} (h : Text.Blank blank) :
    read ('[' :: blank ++ [']']) = .ok (.array []) := by
  have fields : Enclosure.array.fields? blank = some [] :=
    (Enclosure.fields?_eq_some_iff Enclosure.array_solid).mpr (.inl ⟨h, rfl⟩)
  refine (read_of_outlines ?_).mpr (.array .nil)
  rw [Text.trim_enclosed (by decide) (by decide)]
  exact .array fields

theorem read_array_iff {parts p} (nonempty : parts ≠ []) (divides : Enclosure.array.Divides parts)
    (visible : ∀ part ∈ parts, ¬ Text.Blank part) :
    read ('[' :: Enclosure.array.join parts ++ [']']) = .ok p ↔
      ∃ items, p = .array items ∧ List.Forall₂ (read · = .ok ·) parts items := by
  have fields := Enclosure.fields?_join Enclosure.array_solid nonempty divides visible
  rw [read_of_outlines (s := .array (parts.map Text.trim))]
  · constructor
    · intro given
      cases given
      exact ⟨_, rfl, readEach_map_trim.mp ‹_›⟩
    · rintro ⟨items, rfl, each⟩
      exact .array (readEach_map_trim.mpr each)
  · rw [Text.trim_enclosed (by decide) (by decide)]
    exact .array fields

theorem read_cons_iff {parts last p} (nonempty : parts ≠ [])
    (divides : Enclosure.cons.Divides (parts ++ [last]))
    (visible : ∀ part ∈ parts ++ [last], ¬ Text.Blank part) :
    read ('(' :: Enclosure.cons.join (parts ++ [last]) ++ [')']) = .ok p ↔
      ∃ heads tail, p = .cons heads tail ∧ List.Forall₂ (read · = .ok ·) parts heads ∧
        read last = .ok tail := by
  have fields := Enclosure.fields?_join Enclosure.cons_solid (by simp) divides visible
  rw [List.map_append] at fields
  rw [read_of_outlines (s := .cons (parts.map Text.trim) (Text.trim last))]
  · constructor
    · intro given
      cases given
      exact ⟨_, _, rfl, readEach_map_trim.mp ‹_›, read_trim last ▸ ‹_›⟩
    · rintro ⟨heads, tail, rfl, each, final⟩
      exact .cons (readEach_map_trim.mpr each) ((read_trim last).trans final)
  · rw [Text.trim_enclosed (by decide) (by decide)]
    exact .cons (by simpa using nonempty) fields

theorem read_named_iff {name text p} (isName : isName name = true) (visible : ¬ Text.Blank text) :
    read (name ++ '@' :: text) = .ok p ↔
      ∃ inner, p = .named (String.ofList name) inner ∧ read text = .ok inner := by
  have trimmed : Text.trim (name ++ '@' :: text) = name ++ '@' :: Text.trimEnd text := by
    obtain ⟨c, rest, rfl, alpha⟩ := exists_cons_of_isWord (isWord_of_isName isName)
    rw [List.cons_append, Text.trim_cons (Text.isBlank_of_isAlpha alpha),
      Text.trimEnd_append_cons (by decide)]
    rfl
  have visibleEnd : ¬ Text.Blank (Text.trimEnd text) := by
    rwa [← Text.trim_eq_nil_iff, Text.trim_trimEnd, Text.trim_eq_nil_iff]
  rw [read_of_outlines (s := .named name (Text.trimEnd text)),
    ← read_congr (Text.trim_trimEnd text)]
  · constructor
    · intro given
      cases given
      exact ⟨_, rfl, ‹_›⟩
    · rintro ⟨inner, rfl, body⟩
      exact .named body
  · rw [trimmed]
    exact .named isName visibleEnd

mutual
theorem read_of_written {text p} : Legible text p → read text = .ok p
  | .surrounded hb ha bare => by
      rw [read_congr (Text.trim_surrounded hb ha _)]
      exact read_of_bare bare

theorem read_of_bare {text p} : Bare Enclosure.Divides text p → read text = .ok p
  | .atom h => by
      obtain ⟨a, spells, rfl⟩ := atomic_iff.mp h
      exact read_atom spells
  | .emptyArray blank => read_emptyArray blank
  | .array nonempty divides each => by
      have read := readEach_of_written each
      exact (read_array_iff nonempty divides (visible_of_readEach read)).mpr ⟨_, rfl, read⟩
  | .cons nonempty divides each final => by
      have read := readEach_of_written each
      have readLast := read_of_written final
      have visible := visible_of_readEach (List.rel_append read (.cons readLast .nil))
      exact (read_cons_iff nonempty divides visible).mpr ⟨_, _, rfl, read, readLast⟩
  | .named identifier body => by
      have isName := identifier_iff.mp identifier
      have read := read_of_written body
      exact (read_named_iff isName (visible_of_read read)).mpr ⟨_, rfl, read⟩

theorem readEach_of_written {texts ps} : WrittenEach Enclosure.Divides texts ps →
    List.Forall₂ (read · = .ok ·) texts ps
  | .nil => .nil
  | .cons first others => .cons (read_of_written first) (readEach_of_written others)
end

theorem read_iff_legible {text p} : read text = .ok p ↔ Legible text p :=
  ⟨legible_of_read, read_of_written⟩

/-- What is read is what the grammar derives, as far as its groups fall apart at their own
delimiters. -/
theorem read_iff {text p} : read text = .ok p ↔ Derives text p ∧ p.Divided := by
  rw [read_iff_legible, legible_iff]

/-- The parser accepts the documented grammar: all it accepts is derived, and all that is derived
is accepted unless a string has a bracket or a delimiter in it. -/
theorem parse_accepts_grammar (text : String) (p : Pattern) :
    (parse text = .ok p → Derives text.toList p) ∧
      (Derives text.toList p → Plain p.strings → parse text = .ok p) := by
  rw [parse_eq_read, read_iff]
  constructor
  · intro accepted
    exact accepted.1
  · intro derived plain
    exact ⟨derived, divided_of_plain p plain⟩

end Destructure.Pattern
