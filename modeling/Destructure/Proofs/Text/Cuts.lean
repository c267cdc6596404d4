import Destructure.Proofs.Text.Joining

/-! # Fields as the stretches between cuts

Where a text is cut can be told from the whole text at once: at each delimiter that has as many
opening as closing brackets before it.  The scan, which knows the depth alone, finds the same places,
so its fields are the stretches of the text between them without the blanks at their ends.
-/

namespace Destructure.Enclosure

/-- A delimiter stands at the place, and as many opening as closing brackets before it. -/
def IsCut (e : Enclosure) (text : List Char) (place : Nat) : Prop :=
  text[place]? = some e.delimiter ∧
    (text.take place).count e.opening = (text.take place).count e.closing

instance decidableIsCut (e : Enclosure) (text : List Char) (place : Nat) :
    Decidable (e.IsCut text place) :=
  inferInstanceAs (Decidable (_ ∧ _))

def cuts (e : Enclosure) (text : List Char) : List Nat :=
  (List.range text.length).filter (e.IsCut text ·)

/-- What a text holds between the given places, and before the first and after the last of them, its
characters before `start` left out. -/
def between (text : List Char) (start : Nat) : List Nat → List (List Char)
  | [] => [text.drop start]
  | place :: places => (text.take place).drop start :: between text (place + 1) places

def stretches (e : Enclosure) (text : List Char) : List (List Char) :=
  between text 0 (e.cuts text)

variable {e : Enclosure}

theorem length_between (text : List Char) (start : Nat) (places : List Nat) :
    (between text start places).length = places.length + 1 := by
  induction places generalizing start with
  | nil => rfl
  | cons place places ih => rw [between, List.length_cons, ih, List.length_cons]

theorem between_cons (c : Char) (text : List Char) (start : Nat) (places : List Nat) :
    between (c :: text) (start + 1) (places.map (· + 1)) = between text start places := by
  induction places generalizing start with
  | nil => rfl
  | cons place places ih =>
      rw [List.map_cons, between, between, ih, List.take_succ_cons, List.drop_succ_cons]

theorem between_zero_cons (c : Char) (text : List Char) (places : List Nat) :
    between (c :: text) 0 (places.map (· + 1)) = (between text 0 places).modifyHead (c :: ·) := by
  cases places with
  | nil => rfl
  | cons place places =>
      rw [List.map_cons, between, between, between_cons, List.modifyHead_cons, List.take_succ_cons]
      rfl

/-! ## The places where the scan cuts -/

/-- The places at which the scan cuts when it enters the text at the given depth. -/
def cutsFrom (e : Enclosure) (depth : Int) (text : List Char) : List Nat :=
  (List.range text.length).filter fun place =>
    text[place]? = some e.delimiter ∧ e.depthOver depth (text.take place) = 0

theorem cutsFrom_cons (depth : Int) (c : Char) (text : List Char) :
    e.cutsFrom depth (c :: text) =
      (if c = e.delimiter ∧ depth = 0 then [0] else []) ++
        (e.cutsFrom (e.depthAfter depth c) text).map (· + 1) := by
  have first : ((c :: text)[0]? = some e.delimiter ∧ e.depthOver depth ((c :: text).take 0) = 0) ↔
      c = e.delimiter ∧ depth = 0 := by
    simp [depthOver]
  rw [cutsFrom, List.length_cons, List.range_succ_eq_map, List.filter_cons, List.filter_map]
  simp only [first, decide_eq_true_eq]
  split
  · rfl
  · rfl

theorem pieces_eq_between (distinct : e.Distinct) (depth : Int) (text : List Char) :
    e.pieces depth text = between text 0 (e.cutsFrom depth text) := by
  induction text generalizing depth with
  | nil => rfl
  | cons c text ih =>
      rw [pieces, cutsFrom_cons]
      split
      · rename_i cut
        obtain ⟨rfl, level⟩ := cut
        -- the places count the delimiter as a character like any other, the scan skips it
        rw [distinct.depthAfter_delimiter, List.singleton_append, between, between_cons, ih]
        rfl
      · rw [List.nil_append, between_zero_cons, ih]

theorem cuts_eq_cutsFrom (distinct : e.Distinct) (text : List Char) :
    e.cuts text = e.cutsFrom 0 text := by
  have even : ∀ place, e.depthOver 0 (text.take place) = 0 ↔
      (text.take place).count e.opening = (text.take place).count e.closing := by
    intro place
    rw [depthOver_eq_count distinct.brackets]
    omega
  apply List.filter_congr
  intro place _
  rw [decide_eq_decide, IsCut, even]

theorem pieces_eq_stretches (distinct : e.Distinct) (text : List Char) :
    e.pieces 0 text = e.stretches text := by
  rw [pieces_eq_between distinct, stretches, cuts_eq_cutsFrom distinct]

/-! ## Fields -/

theorem padded_trim (text : List Char) : Padded text (Text.trim text) :=
  Text.exists_surrounded_trim text

/-- A text in which nothing is cut is its own field. -/
theorem fields_of_uncut (solid : e.Solid) {text : List Char} (uncut : e.Uncut 0 text)
    (visible : ¬ Text.Blank text) :
    e.fields (String.ofList text) = .ok [String.ofList (Text.trim text)] := by
  have found : e.fields? text = some [Text.trim text] := by
    refine (fields?_eq_some_iff solid).mpr (.inr ⟨visible, ?_, ?_⟩)
    · rw [pieces_of_uncut uncut]
      exact fun part member => List.mem_singleton.mp member ▸ visible
    · rw [pieces_of_uncut uncut, List.map_singleton]
  simp only [fields, String.toList_ofList, found, List.map_singleton]

theorem fields_trim_piece (solid : e.Solid) {text piece : List Char} (member : piece ∈ e.pieces 0 text)
    (visible : ¬ Text.Blank piece) :
    e.fields (String.ofList (Text.trim piece)) = .ok [String.ofList (Text.trim piece)] := by
  have uncut : e.Uncut 0 (Text.trim piece) :=
    ((padded_trim piece).scan solid 0).1.mp ((e.divides_pieces text).uncut piece member)
  have visibleTrimmed : ¬ Text.Blank (Text.trim piece) := by
    rwa [← Text.trim_eq_nil_iff, Text.trim_trim, Text.trim_eq_nil_iff]
  have found := fields_of_uncut solid uncut visibleTrimmed
  rwa [Text.trim_trim] at found

theorem fields_of_blank (solid : e.Solid) {text : String} (blank : Text.Blank text.toList) :
    e.fields text = .ok [] := by
  simp only [fields, (fields?_eq_some_iff solid).mpr (.inl ⟨blank, rfl⟩), List.map_nil]

theorem fields_of_visible_stretches (solid : e.Solid) (distinct : e.Distinct) {text : String}
    (visible : ¬ Text.Blank text.toList)
    (each : ∀ piece ∈ e.stretches text.toList, ¬ Text.Blank piece) : e.fields text =
      .ok ((e.stretches text.toList).map fun piece => String.ofList (Text.trim piece)) := by
  rw [← pieces_eq_stretches distinct] at each ⊢
  simp only [fields, (fields?_eq_some_iff solid).mpr (.inr ⟨visible, each, rfl⟩), List.map_map]
  rfl

theorem fields_of_blank_stretch (solid : e.Solid) (distinct : e.Distinct) {text : String}
    (visible : ¬ Text.Blank text.toList) {piece : List Char}
    (member : piece ∈ e.stretches text.toList) (blank : Text.Blank piece) : e.fields text =
      .error (.emptyField (String.ofList (Text.trim text.toList))) := by
  rw [← pieces_eq_stretches distinct] at member
  have refused : e.fields? text.toList = none := by
    apply Option.eq_none_iff_forall_ne_some.mpr
    intro fields found
    obtain ⟨whole, -⟩ | ⟨-, each, -⟩ := (fields?_eq_some_iff solid).mp found
    · exact visible whole
    · exact each piece member blank
  simp only [fields, refused]

/-- A blank text has no fields.  The fields of any other text are its trimmed stretches between cuts,
in order, and it is refused as a whole if one of them is blank.  So the fields are one more than the
cuts, joining them gives the text back but for blanks beside the cuts and at the ends, and each field
is the only field of itself. -/
theorem fields_between_cuts (e : Enclosure) (solid : e.Solid) (distinct : e.Distinct) (text : String) :
    (Text.Blank text.toList → e.fields text = .ok []) ∧
    (¬ Text.Blank text.toList →
      ((∀ piece ∈ e.stretches text.toList, ¬ Text.Blank piece) → e.fields text =
        .ok ((e.stretches text.toList).map fun piece => String.ofList (Text.trim piece))) ∧
      ((∃ piece ∈ e.stretches text.toList, Text.Blank piece) → e.fields text =
        .error (.emptyField (String.ofList (Text.trim text.toList))))) ∧
    ∀ fields, e.fields text = .ok fields →
      (Text.Blank text.toList ∧ fields = [] ∨
        fields.length = (e.cuts text.toList).length + 1 ∧
        e.join (e.stretches text.toList) = text.toList ∧
        List.Forall₂ (fun piece field => Padded piece field.toList)
          (e.stretches text.toList) fields) ∧
      ∀ field ∈ fields, e.fields field = .ok [field] := by
  refine ⟨fields_of_blank solid, fun visible => ⟨?_, ?_⟩, ?_⟩
  · exact fields_of_visible_stretches solid distinct visible
  · rintro ⟨piece, member, blank⟩
    exact fields_of_blank_stretch solid distinct visible member blank
  intro fields found
  by_cases whole : Text.Blank text.toList
  · obtain rfl : [] = fields := Except.ok.inj ((fields_of_blank solid whole).symm.trans found)
    exact ⟨.inl ⟨whole, rfl⟩, fun field member => absurd member List.not_mem_nil⟩
  · have each : ∀ piece ∈ e.stretches text.toList, ¬ Text.Blank piece := by
      intro piece member blank
      rw [fields_of_blank_stretch solid distinct whole member blank] at found
      cases found
    have split := fields_of_visible_stretches solid distinct whole each
    obtain rfl := Except.ok.inj (split.symm.trans found)
    refine ⟨.inr ⟨?_, ?_, ?_⟩, ?_⟩
    · rw [List.length_map, stretches, length_between]
    · rw [← pieces_eq_stretches distinct, join_pieces]
    · rw [List.forall₂_map_right_iff, List.forall₂_same]
      intro piece _
      rw [String.toList_ofList]
      exact padded_trim piece
    · intro field member
      obtain ⟨piece, inStretches, rfl⟩ := List.mem_map.mp member
      have visible := each piece inStretches
      rw [← pieces_eq_stretches distinct] at inStretches
      exact fields_trim_piece solid inStretches visible

/-- The first comma comes after a stray closing bracket, the second one is a cut again, and the third
is hidden by a bracket that is never closed. -/
theorem fields_between_cuts_stray_brackets :
    Enclosure.Solid ⟨',', '[', ']'⟩ ∧ Enclosure.Distinct ⟨',', '[', ']'⟩ ∧
      Enclosure.fields ⟨',', '[', ']'⟩ " x] , [y ,[z,\t" = .ok ["x] , [y", "[z,"] := by
  have solid : Solid ⟨',', '[', ']'⟩ := by
    simp [Solid, signs, Text.isBlank]
  have distinct : Distinct ⟨',', '[', ']'⟩ := ⟨by decide, by decide, by decide⟩
  have stretches : Enclosure.stretches ⟨',', '[', ']'⟩ " x] , [y ,[z,\t".toList =
      [" x] , [y ".toList, "[z,\t".toList] := by
    decide +kernel
  have whole : ¬ Text.Blank " x] , [y ,[z,\t".toList := by
    simp [Text.Blank, Text.isBlank]
  have each : ∀ piece ∈ [" x] , [y ".toList, "[z,\t".toList], ¬ Text.Blank piece := by
    simp [Text.Blank, Text.isBlank]
  obtain ⟨-, visible, -⟩ := fields_between_cuts _ solid distinct " x] , [y ,[z,\t"
  have found := (visible whole).1
  rw [stretches] at found
  exact ⟨solid, distinct, (found each).trans (by decide +kernel)⟩

end Destructure.Enclosure
