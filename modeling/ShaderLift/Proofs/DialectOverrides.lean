import Mathlib.Data.List.Nodup
import ShaderLift.Proofs.DialectFields

/-!
# Overriding the built-in dialect

A document whose keys are texts overrides exactly the fields that it names.  Each
of them holds the given value, with lists and mappings in the given order, every
other field is as in the built-in dialect, and the order of the document's own
keys changes neither the dialect nor the error.  One thing more than the form of
the values is asked for: an integer in the output variable must not have too many
digits to be written.
-/

namespace ShaderLift

namespace Document.Entries

/-- A mapping whose keys are texts. -/
def ofNamed (document : List (String × Value)) : Entries :=
  document.map fun entry => (.text entry.1, entry.2)

/-- In a mapping without repeated keys, what is found is what the mapping
holds. -/
theorem find?_ofNamed_eq_some_iff
    {document : List (String × Value)}
    (distinct : (document.map Prod.fst).Nodup)
    (name : String)
    (value : Value) :
    find? (ofNamed document) name = some value ↔ (name, value) ∈ document := by
  induction document with
  | nil => simp [ofNamed]
  | cons entry rest inductionHypothesis =>
      obtain ⟨absent, distinct⟩ := List.nodup_cons.mp distinct
      have behind := inductionHypothesis distinct
      rw [List.mem_cons]
      change find? ((.text entry.1, entry.2) :: ofNamed rest) name = _ ↔ _
      rw [find?_cons_eq_some_iff, behind, Value.text.injEq]
      by_cases same : entry.1 = name
      · subst same
        have elsewhere : (entry.1, value) ∉ rest :=
          fun member => absent (List.mem_map.mpr ⟨_, member, rfl⟩)
        simp [elsewhere, Prod.ext_iff, eq_comm]
      · have different : (name, value) ≠ entry :=
          fun equal => same (congrArg Prod.fst equal).symm
        simp [same, different]

theorem find?_ofNamed_eq_none_iff
    {document : List (String × Value)}
    (distinct : (document.map Prod.fst).Nodup)
    (name : String) :
    find? (ofNamed document) name = none ↔ name ∉ document.map Prod.fst := by
  rw [Option.eq_none_iff_forall_ne_some]
  simp only [ne_eq, find?_ofNamed_eq_some_iff distinct, List.mem_map,
    Prod.exists, exists_and_right, exists_eq_right, not_exists]

theorem find?_ofNamed_eq_of_perm
    {document other : List (String × Value)}
    (distinct : (document.map Prod.fst).Nodup)
    (same : other.Perm document)
    (name : String) :
    find? (ofNamed other) name = find? (ofNamed document) name := by
  have distinctToo := (same.map Prod.fst).nodup_iff.mpr distinct
  ext value
  rw [find?_ofNamed_eq_some_iff distinctToo, find?_ofNamed_eq_some_iff distinct,
    same.mem_iff]

end Document.Entries

namespace Dialect

open Document

theorem Field.key_injective : Function.Injective Field.key := by
  have distinct : (Field.all.map Field.key).Nodup := by decide
  intro left right same
  exact List.inj_on_of_nodup_map distinct left.mem_all right.mem_all same

theorem forall_mem_ofNamed_namesField_iff (document : List (String × Value)) :
    (∀ entry ∈ Entries.ofNamed document, NamesField entry.1) ↔
      ∀ entry ∈ document, ∃ field : Field, field.key = entry.1 := by
  constructor
  · intro known entry member
    obtain ⟨field, same⟩ := known (.text entry.1, entry.2)
      (List.mem_map.mpr ⟨entry, member, rfl⟩)
    exact ⟨field, (Value.text.inj same).symm⟩
  · intro named keyed keyedMember
    obtain ⟨entry, member, rfl⟩ := List.mem_map.mp keyedMember
    obtain ⟨field, same⟩ := named entry member
    exact ⟨field, by rw [same]⟩

/-! ## Keys that name no field -/

/-- The keys of a document that name no field. -/
def unknownNames (document : List (String × Value)) : List String :=
  (document.map Prod.fst).filter fun name => !knownKeys.contains name

/-- Keys that are texts and name no field are reported in order. -/
theorem checkKeys_ofNamed (document : List (String × Value)) :
    checkKeys (Entries.ofNamed document) =
      if unknownNames document = [] then .ok ()
      else .error (.unknownKeys (sortedStrings (unknownNames document))) := by
  have unknown : ((Entries.ofNamed document).map Prod.fst).filter
      (fun key => !isKnown key) = (unknownNames document).map .text := by
    rw [unknownNames, List.filter_map, List.filter_map]
    simp only [Entries.ofNamed, List.map_map, List.filter_map]
    rfl
  rw [checkKeys, unknown]
  cases unknownNames document with
  | nil => rfl
  | cons first rest =>
      have texts : ((first :: rest).map Value.text).filterMap text? =
          first :: rest := by
        rw [List.filterMap_map]
        exact List.filterMap_some
      have all : ((first :: rest).map Value.text).all
          (fun key => (text? key).isSome) = true := by
        simp [text?]
      rw [if_neg (List.cons_ne_nil first rest), List.map_cons]
      rw [List.map_cons] at texts all
      dsimp only [unknownKeysError]
      rw [if_pos all, texts]

theorem sortedStrings_eq_of_perm
    {names others : List String}
    (same : others.Perm names) : sortedStrings others = sortedStrings names := by
  have sorted (list : List String) :
      (sortedStrings list).Pairwise
        fun left right => decide (left ≤ right) = true := by
    apply List.pairwise_mergeSort
    · intro a b c first second
      exact decide_eq_true
        (String.le_trans (of_decide_eq_true first) (of_decide_eq_true second))
    · intro a b
      simpa using String.le_total a b
  have perm : (sortedStrings others).Perm (sortedStrings names) :=
    (List.mergeSort_perm ..).trans (same.trans (List.mergeSort_perm ..).symm)
  refine perm.eq_of_pairwise ?_ (sorted others) (sorted names)
  intro left right _ _ before behind
  exact String.le_antisymm (of_decide_eq_true before) (of_decide_eq_true behind)

theorem checkKeys_ofNamed_eq_of_perm
    {document other : List (String × Value)}
    (same : other.Perm document) :
    checkKeys (Entries.ofNamed other) = checkKeys (Entries.ofNamed document) := by
  have unknown : (unknownNames other).Perm (unknownNames document) :=
    (same.map Prod.fst).filter _
  have empty : unknownNames other = [] ↔ unknownNames document = [] := by
    rw [← List.length_eq_zero_iff, unknown.length_eq, List.length_eq_zero_iff]
  rw [checkKeys_ofNamed, checkKeys_ofNamed, sortedStrings_eq_of_perm unknown]
  simp only [empty]

/-! ## Overrides -/

/-- The dialect depends on the keys and on what is found under them. -/
theorem ofEntries_congr
    {entries other : Entries}
    (keys : checkKeys entries = checkKeys other)
    (found : ∀ name, Entries.find? entries name = Entries.find? other name) :
    ofEntries entries = ofEntries other := by
  simp only [ofEntries, textField, pairsField, outputField, identifiersField,
    keys, found]

/-- A document whose keys are texts describes a dialect exactly if every key names
a field, every value has the form that its field asks for, and the output variable
has a text. -/
theorem exists_ofNamed_iff
    {document : List (String × Value)}
    (distinct : (document.map Prod.fst).Nodup) :
    (∃ dialect, ofEntries (Entries.ofNamed document) = .ok dialect) ↔
      (∀ entry ∈ document, ∃ field : Field, field.key = entry.1 ∧
        field.Accepts entry.2) ∧
      ∀ value, (Field.output.key, value) ∈ document → value.hasText = true := by
  rw [exists_ofEntries_iff, forall_mem_ofNamed_namesField_iff]
  simp only [Entries.find?_ofNamed_eq_some_iff distinct]
  constructor
  · rintro ⟨known, accepted, writable⟩
    refine ⟨fun entry member => ?_, writable⟩
    obtain ⟨field, same⟩ := known entry member
    exact ⟨field, same, accepted field entry.2 (by rw [same]; exact member)⟩
  · rintro ⟨accepted, writable⟩
    refine ⟨fun entry member => ?_, fun field value member => ?_, writable⟩
    · obtain ⟨field, same, -⟩ := accepted entry member
      exact ⟨field, same⟩
    · obtain ⟨other, same, accepts⟩ := accepted _ member
      rw [← Field.key_injective same]
      exact accepts

/-- A document that overrides four fields, with its keys in no order and a truth
value for a name. -/
def partialDocument : List (String × Value) :=
  [("precision", .text "precision mediump float;"),
    ("macros", .mapping [(.text "iTime", .text "t"), (.text "iDate", .text "d")]),
    ("canonical_identifiers", .list [.text "iTime"]),
    ("output_variable",
      .mapping [(.text "type", .text "vec4"), (.text "name", .bool true)])]

/-- A document that gives an integer of 4302 digits for a name. -/
def longNumberDocument : List (String × Value) :=
  [("output_variable", .mapping
    [(.text "name", .integer (twoTo 14288)), (.text "type", .text "vec4")])]

end Dialect
end ShaderLift
