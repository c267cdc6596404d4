import Destructure.Proofs.Bindings
import Destructure.Proofs.Dispatcher
import Destructure.Proofs.Json.Keys

/-! # The views of bindings agree

Looking a name up finds the first value of the name, the map keeps the last, and the object has a
member for each.  These are the same where no name is bound twice, and so they are for every match:
bindings are put together by merging, which lets no name in twice.
-/

namespace Destructure

namespace Bindings

variable {b : Bindings}

/-- The views give the same values for the same names, and none leaves a name out or repeats it. -/
structure Agree (b : Bindings) : Prop where
  distinct : b.names.Nodup
  each : ∀ i < b.size, ∃ name value, b.entries[i]? = some (name, value) ∧
    b.names[i]? = some name ∧ b.values[i]? = some value ∧
    b.get? name = some value ∧ b.toMap[name]? = some value
  size_names : b.names.length = b.size
  size_values : b.values.length = b.size
  size_toMap : b.toMap.size = b.size
  keys : Json.keys? b.toJson = some b.names
  contains : ∀ name, b.contains name = true ↔ name ∈ b.names
  getElem?_toMap : ∀ name, b.toMap[name]? = b.get? name

/-- Distinct names are told apart by the order that the map goes by. -/
theorem pairwise_compare (distinct : b.names.Nodup) :
    b.entries.Pairwise fun entry other => ¬ compare entry.1 other.1 = .eq := by
  apply (List.pairwise_map.mp distinct).imp
  intro entry other differ same
  exact differ (Std.LawfulEqCmp.compare_eq_iff_eq.mp same)

theorem toMap_of_mem (distinct : b.names.Nodup) {name : String} {value : Value}
    (member : (name, value) ∈ b.entries) : b.toMap[name]? = some value :=
  Std.TreeMap.getElem?_ofList_of_mem Std.ReflCmp.compare_self (pairwise_compare distinct) member

/-- The map finds what looking the name up finds. -/
theorem toMap_eq_get? (distinct : b.names.Nodup) (name : String) : b.toMap[name]? = b.get? name := by
  by_cases bound : name ∈ b.names
  · obtain ⟨⟨_, value⟩, member, rfl⟩ := List.mem_map.mp bound
    rw [toMap_of_mem distinct member, get?_of_mem distinct member]
  · have missing : b.get? name = none := by
      rwa [← contains_iff, contains, Option.isSome_iff_ne_none, not_not] at bound
    rw [missing]
    apply Std.TreeMap.getElem?_ofList_of_contains_eq_false
    simpa [names] using bound

theorem keys?_toJson (b : Bindings) : Json.keys? b.toJson = some b.names :=
  Json.keys?_writeObject b.entries

theorem agree_of_nodup (distinct : b.names.Nodup) : b.Agree where
  distinct := distinct
  each i inside := by
    obtain ⟨⟨name, value⟩, found⟩ : ∃ entry, b.entries[i]? = some entry :=
      ⟨_, List.getElem?_eq_getElem inside⟩
    have member : (name, value) ∈ b.entries := List.mem_of_getElem? found
    refine ⟨name, value, found, ?_, ?_, get?_of_mem distinct member, toMap_of_mem distinct member⟩
    · rw [names, List.getElem?_map, found, Option.map_some]
    · rw [values, List.getElem?_map, found, Option.map_some]
  size_names := List.length_map _
  size_values := List.length_map _
  size_toMap := Std.TreeMap.size_ofList (pairwise_compare distinct)
  keys := b.keys?_toJson
  contains _ := contains_iff
  getElem?_toMap := toMap_eq_get? distinct

end Bindings

/-- What a match binds has distinct names. -/
theorem Limits.nodup_of_destructure {limits : Limits} {text : String} {value : Value} {b : Bindings}
    (matched : limits.destructure text value = .ok (some b)) : b.names.Nodup := by
  rw [destructure_eq_bind] at matched
  obtain ⟨p, -, matched⟩ := bind_eq_ok_iff.mp matched
  exact (Pattern.fits_of_destructure matched).2

/-- All views of a match agree, and matching by name gives the map of the match.  A mismatch and an
error are the same with names as without. -/
theorem match_views_agree (text : String) (value : Value) :
    (∀ b, Limits.unlimited.destructure text value = .ok (some b) →
      b.Agree ∧ extract text value = .ok (some b.toMap)) ∧
    (Limits.unlimited.destructure text value = .ok none → extract text value = .ok none) ∧
    ∀ e, Limits.unlimited.destructure text value = .error e → extract text value = .error e := by
  refine ⟨?_, ?_, ?_⟩
  · intro b matched
    refine ⟨Bindings.agree_of_nodup (Limits.nodup_of_destructure matched), ?_⟩
    rw [extract, matched]
    rfl
  · intro mismatched
    rw [extract, mismatched]
    rfl
  · intro e refused
    rw [extract, refused]
    rfl

/-- The names come from an item of an array, from a named group and from both parts of that group. -/
theorem match_views_agree_nested :
    (∃ b, Limits.unlimited.destructure "[b, all@(x:xs)]"
          (.list [.bool true, .list [.null, .str "b"]]) = .ok (some b) ∧
        b.names = ["b", "all", "x", "xs"] ∧ b.Agree ∧
        extract "[b, all@(x:xs)]" (.list [.bool true, .list [.null, .str "b"]]) =
          .ok (some b.toMap)) ∧
      extract "[b, all@(x:xs)]" (.list [.bool true, .list []]) = .ok none ∧
      extract "[b, all@(b:xs)]" (.list [.bool true, .list [.null, .str "b"]]) =
        .error (.duplicateBinding ["b"]) := by
  obtain ⟨b, matched, names⟩ := exists_of_map_eq_some
    (x := Limits.unlimited.destructure "[b, all@(x:xs)]"
      (.list [.bool true, .list [.null, .str "b"]]))
    Bindings.names (y := ["b", "all", "x", "xs"]) (by decide +kernel)
  obtain ⟨agree, byName⟩ := (match_views_agree _ _).1 b matched
  refine ⟨⟨b, matched, names, agree, byName⟩, ?_, ?_⟩
  · exact (match_views_agree _ _).2.1 (eq_none_of_map_eq_none Bindings.names (by decide +kernel))
  · exact (match_views_agree _ _).2.2 _
      (eq_error_of_map_eq_error (Option.map Bindings.names) (by decide +kernel))

end Destructure
