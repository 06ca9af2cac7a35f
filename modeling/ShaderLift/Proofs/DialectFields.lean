import Mathlib.Data.List.Basic
import ShaderLift.Dialect.Document
import ShaderLift.Proofs.Attempt

/-!
# Dialects field by field

A document names fields of a dialect by its keys.  It describes a dialect exactly
if every key names a field, every value has the form that its field asks for, and
the name and the type of the output variable have a text.  Each field that is
named then holds the given value, and every other field is kept from the built-in
dialect.
-/

namespace ShaderLift

namespace Document

/-! ## Keys that are texts -/

theorem Value.isSameKey_text_iff
    (key : Value)
    (name : String) : key.isSameKey (.text name) = true ↔ key = .text name := by
  cases key <;> simp [Value.isSameKey, Value.integer?]

/-- The value is a text. -/
def Value.IsText (value : Value) : Prop :=
  ∃ text, value = .text text

/-- The value has a text, and this is it. -/
structure Value.IsWritten (value : Value) (text : String) : Prop where
  hasText : value.hasText = true
  display : value.display = text

namespace Entries

@[simp] theorem find?_nil (name : String) : find? [] name = none :=
  rfl

/-- What is found is what stands first under the key. -/
theorem find?_cons_eq_some_iff
    (key value found : Value)
    (rest : Entries)
    (name : String) :
    find? ((key, value) :: rest) name = some found ↔
      key = .text name ∧ value = found ∨
        key ≠ .text name ∧ find? rest name = some found := by
  rw [ne_eq, ← Value.isSameKey_text_iff, find?, List.find?_cons]
  cases key.isSameKey (.text name) <;> simp [find?]

end Entries
end Document

namespace Dialect

open Document

/-! ## Fields -/

/-- The fields of a dialect, in the order in which they are checked. -/
inductive Field
  | versionDirective
  | precision
  | fragColor
  | fragCoord
  | fragCoordBuiltin
  | uniforms
  | macros
  | output
  | identifiers
deriving DecidableEq

/-- The value is a mapping with a name and a type and nothing else. -/
def IsOutput (value name type : Value) : Prop :=
  value = .mapping [(.text "name", name), (.text "type", type)] ∨
    value = .mapping [(.text "type", type), (.text "name", name)]

namespace Field

/-- All fields, in the order in which they are checked. -/
def all : List Field :=
  [.versionDirective, .precision, .fragColor, .fragCoord, .fragCoordBuiltin,
    .uniforms, .macros, .output, .identifiers]

/-- The key that names a field. -/
def key : Field → String
  | .versionDirective => "version_directive"
  | .precision => "precision"
  | .fragColor => "frag_color"
  | .fragCoord => "frag_coord"
  | .fragCoordBuiltin => "frag_coord_builtin"
  | .uniforms => "uniforms"
  | .macros => "macros"
  | .output => "output_variable"
  | .identifiers => "canonical_identifiers"

/-- The value has the form that the field asks for. -/
def Accepts : Field → Value → Prop
  | .uniforms, value | .macros, value =>
      ∃ pairs, value = .mapping pairs ∧
        ∀ pair ∈ pairs, pair.1.IsText ∧ pair.2.IsText
  | .output, value => ∃ name type, IsOutput value name type
  | .identifiers, value =>
      ∃ items, value = .list items ∧ ∀ item ∈ items, item.IsText
  | _, value => value.IsText

/-- The field of a dialect holds the value, in the same order. -/
def Holds (dialect : Dialect) : Field → Value → Prop
  | .versionDirective, value => value = .text dialect.versionDirective
  | .precision, value => value = .text dialect.precision
  | .fragColor, value => value = .text dialect.fragColor
  | .fragCoord, value => value = .text dialect.fragCoord
  | .fragCoordBuiltin, value => value = .text dialect.fragCoordBuiltin
  | .uniforms, value =>
      value = .mapping (dialect.uniforms.map fun uniform =>
        (.text uniform.name, .text uniform.type))
  | .macros, value =>
      value = .mapping (dialect.macros.map fun shorthand =>
        (.text shorthand.name, .text shorthand.target))
  | .output, value =>
      ∃ name type, IsOutput value name type ∧
        name.IsWritten dialect.output.name ∧ type.IsWritten dialect.output.type
  | .identifiers, value =>
      value = .list (dialect.canonicalIdentifiers.map .text)

/-- The field is the same in both dialects. -/
def IsSame (left right : Dialect) : Field → Prop
  | .versionDirective => left.versionDirective = right.versionDirective
  | .precision => left.precision = right.precision
  | .fragColor => left.fragColor = right.fragColor
  | .fragCoord => left.fragCoord = right.fragCoord
  | .fragCoordBuiltin => left.fragCoordBuiltin = right.fragCoordBuiltin
  | .uniforms => left.uniforms = right.uniforms
  | .macros => left.macros = right.macros
  | .output => left.output = right.output
  | .identifiers => left.canonicalIdentifiers = right.canonicalIdentifiers

theorem mem_all (field : Field) : field ∈ all := by
  cases field <;> decide

end Field

/-- The key names a field. -/
def NamesField (key : Value) : Prop :=
  ∃ field : Field, key = .text field.key

theorem mem_knownKeys_iff (name : String) :
    name ∈ knownKeys ↔ ∃ field : Field, field.key = name := by
  constructor
  · have listed : ∀ name ∈ knownKeys, name ∈ Field.all.map Field.key := by decide
    intro known
    obtain ⟨field, -, same⟩ := List.mem_map.mp (listed name known)
    exact ⟨field, same⟩
  · rintro ⟨field, rfl⟩
    cases field <;> decide

theorem isKnown_iff (key : Value) : isKnown key = true ↔ NamesField key := by
  cases key with
  | text name => simp [isKnown, text?, NamesField, mem_knownKeys_iff, eq_comm]
  | _ => simp [isKnown, text?, NamesField]

theorem checkKeys_eq_ok_iff (entries : Entries) :
    checkKeys entries = .ok () ↔ ∀ entry ∈ entries, NamesField entry.1 := by
  have all : (entries.map Prod.fst).filter (fun key => !isKnown key) = [] ↔
      ∀ entry ∈ entries, NamesField entry.1 := by
    simp [List.filter_eq_nil_iff, isKnown_iff]
  rw [← all, checkKeys]
  cases (entries.map Prod.fst).filter (fun key => !isKnown key) <;> simp

/-! ## What settles a field -/

/-- What is found under the key of a field settles it: a value that the field
holds, or nothing, and then the field is kept. -/
def Settles (found : Option Value) (holds : Value → Prop) (kept : Prop) : Prop :=
  (∀ value, found = some value → holds value) ∧ (found = none → kept)

@[simp] theorem settles_none
    (holds : Value → Prop)
    (kept : Prop) : Settles none holds kept ↔ kept := by
  simp [Settles]

@[simp] theorem settles_some
    (value : Value)
    (holds : Value → Prop)
    (kept : Prop) : Settles (some value) holds kept ↔ holds value := by
  simp [Settles]

/-- A field can be settled exactly if the value that is found can. -/
theorem exists_settles_iff
    (found : Option Value)
    (holds : α → Value → Prop)
    (default : α) :
    (∃ content, Settles found (holds content) (content = default)) ↔
      ∀ value, found = some value → ∃ content, holds content value := by
  cases found with
  | none => simp
  | some value => simp

theorem textField_eq_ok_iff
    (entries : Entries)
    (key default text : String) :
    textField entries key default = .ok text ↔
      Settles (Entries.find? entries key) (· = .text text)
        (text = default) := by
  rw [textField]
  cases Entries.find? entries key with
  | none => simp [eq_comm]
  | some value => cases value <;> simp

theorem textPairs?_eq_some_iff
    (entries : Entries)
    (pairs : List (String × String)) :
    textPairs? entries = some pairs ↔
      entries = pairs.map fun pair => (.text pair.1, .text pair.2) := by
  constructor
  · intro read
    fun_induction textPairs? entries generalizing pairs with
    | case1 =>
        obtain rfl := Option.some.inj read
        rfl
    | case2 key value rest inductionHypothesis =>
        obtain ⟨more, readRest, rfl⟩ := Option.map_eq_some_iff.mp read
        rw [inductionHypothesis more readRest]
        rfl
    | case3 => contradiction
  · rintro rfl
    induction pairs with
    | nil => rfl
    | cons pair pairs inductionHypothesis =>
        rw [List.map_cons, textPairs?, inductionHypothesis]
        rfl

theorem texts?_eq_some_iff
    (items : List Value)
    (texts : List String) : texts? items = some texts ↔ items = texts.map .text := by
  constructor
  · intro read
    fun_induction texts? items generalizing texts with
    | case1 =>
        obtain rfl := Option.some.inj read
        rfl
    | case2 text rest inductionHypothesis =>
        obtain ⟨more, readRest, rfl⟩ := Option.map_eq_some_iff.mp read
        rw [inductionHypothesis more readRest]
        rfl
    | case3 => contradiction
  · rintro rfl
    induction texts with
    | nil => rfl
    | cons text texts inductionHypothesis =>
        rw [List.map_cons, texts?, inductionHypothesis]
        rfl

/-- A field of pairs holds them in order; `names` takes an item apart as `build`
put it together. -/
theorem pairsField_eq_ok_iff
    {build : String → String → α}
    (names : α → String × String)
    (apart : ∀ key value, names (build key value) = (key, value))
    (together : ∀ item, build (names item).1 (names item).2 = item)
    (entries : Entries)
    (key : String)
    (default items : List α) :
    pairsField entries key build default = .ok items ↔
      Settles (Entries.find? entries key)
        (· = .mapping (items.map fun item =>
          (.text (names item).1, .text (names item).2)))
        (items = default) := by
  rw [pairsField]
  cases Entries.find? entries key with
  | none => simp [eq_comm]
  | some value =>
      rw [settles_some]
      cases value with
      | mapping stored =>
          have same : Value.mapping stored = .mapping (items.map fun item =>
                (.text (names item).1, .text (names item).2)) ↔
              textPairs? stored = some (items.map names) := by
            rw [textPairs?_eq_some_iff, List.map_map, Value.mapping.injEq]
            rfl
          rw [same]
          dsimp only
          cases textPairs? stored with
          | none => simp
          | some pairs =>
              rw [Except.ok.injEq, Option.some_inj]
              constructor
              · rintro rfl
                simp [Function.comp_def, apart]
              · rintro rfl
                simp [Function.comp_def, together]
      | enclosing isMapping => cases isMapping <;> simp
      | _ => simp

theorem uniformsField_eq_ok_iff
    (entries : Entries)
    (default uniforms : List Variable) :
    pairsField entries "uniforms" Variable.mk default = .ok uniforms ↔
      Settles (Entries.find? entries "uniforms")
        (· = .mapping (uniforms.map fun uniform =>
          (.text uniform.name, .text uniform.type)))
        (uniforms = default) :=
  pairsField_eq_ok_iff (fun uniform : Variable => (uniform.name, uniform.type))
    (fun _ _ => rfl) (fun _ => rfl) ..

theorem macrosField_eq_ok_iff
    (entries : Entries)
    (default macros : List Macro) :
    pairsField entries "macros" Macro.mk default = .ok macros ↔
      Settles (Entries.find? entries "macros")
        (· = .mapping (macros.map fun shorthand =>
          (.text shorthand.name, .text shorthand.target)))
        (macros = default) :=
  pairsField_eq_ok_iff
    (fun shorthand : Macro => (shorthand.name, shorthand.target))
    (fun _ _ => rfl) (fun _ => rfl) ..

theorem isOutput_mapping_iff
    (pairs : Entries)
    (name type : Value) :
    IsOutput (.mapping pairs) name type ↔
      pairs.length = 2 ∧ Entries.find? pairs "name" = some name ∧
        Entries.find? pairs "type" = some type := by
  constructor
  · rintro (same | same) <;> obtain rfl := Value.mapping.inj same
    · exact ⟨rfl, rfl, rfl⟩
    · exact ⟨rfl, rfl, rfl⟩
  · rintro ⟨two, foundName, foundType⟩
    obtain ⟨⟨firstKey, firstValue⟩, ⟨secondKey, secondValue⟩, rfl⟩ :=
      List.length_eq_two.mp two
    simp only [Entries.find?_cons_eq_some_iff, Entries.find?_nil]
      at foundName foundType
    rcases foundName with ⟨rfl, rfl⟩ | ⟨-, foundName⟩
    · rcases foundType with ⟨other, -⟩ | ⟨-, foundType⟩
      · simp at other
      · rcases foundType with ⟨rfl, rfl⟩ | ⟨-, nothing⟩
        · exact Or.inl rfl
        · contradiction
    · rcases foundName with ⟨rfl, rfl⟩ | ⟨-, nothing⟩
      · rcases foundType with ⟨rfl, rfl⟩ | ⟨-, foundType⟩
        · exact Or.inr rfl
        · simp at foundType
      · contradiction

theorem outputField_eq_ok_iff
    (entries : Entries)
    (default output : Variable) :
    outputField entries default = .ok output ↔
      Settles (Entries.find? entries "output_variable")
        (fun value => ∃ name type, IsOutput value name type ∧
          name.IsWritten output.name ∧ type.IsWritten output.type)
        (output = default) := by
  rw [outputField]
  cases Entries.find? entries "output_variable" with
  | none => simp [eq_comm]
  | some value =>
      rw [settles_some]
      cases value with
      | mapping pairs =>
          simp only [isOutput_mapping_iff]
          split
          next name type two foundName foundType =>
            simp only [two, foundName, foundType, true_and, Option.some_inj,
              existsAndEq]
            constructor
            · intro made
              split at made
              next texts =>
                obtain ⟨nameText, typeText⟩ := Bool.and_eq_true_iff.mp texts
                obtain rfl := Except.ok.inj made
                exact ⟨⟨nameText, rfl⟩, ⟨typeText, rfl⟩⟩
              next => contradiction
            · rintro ⟨⟨nameText, sameName⟩, ⟨typeText, sameType⟩⟩
              rw [if_pos (by simp [nameText, typeText]), sameName, sameType]
          next other =>
            refine iff_of_false (by simp) ?_
            rintro ⟨name, type, ⟨two, foundName, foundType⟩, -⟩
            exact other name type two foundName foundType
      | _ => simp [IsOutput]

theorem identifiersField_eq_ok_iff
    (entries : Entries)
    (default identifiers : List String) :
    identifiersField entries default = .ok identifiers ↔
      Settles (Entries.find? entries "canonical_identifiers")
        (· = .list (identifiers.map .text)) (identifiers = default) := by
  rw [identifiersField]
  cases Entries.find? entries "canonical_identifiers" with
  | none => simp [eq_comm]
  | some value =>
      rw [settles_some]
      cases value with
      | list items =>
          dsimp only
          rw [Value.list.injEq, ← texts?_eq_some_iff]
          cases texts? items <;> simp
      | _ => simp

/-! ## The dialect of a document -/

/-- A document describes a dialect exactly if its keys name fields and what it
gives for each field, or leaves out, settles that field. -/
theorem ofEntries_eq_ok_iff
    (entries : Entries)
    (dialect : Dialect) :
    ofEntries entries = .ok dialect ↔
      (∀ entry ∈ entries, NamesField entry.1) ∧
        ∀ field : Field, Settles (Entries.find? entries field.key)
          (field.Holds dialect) (field.IsSame dialect builtin) := by
  rw [← checkKeys_eq_ok_iff]
  constructor
  · intro made
    simp only [ofEntries, bind_eq_ok_iff] at made
    obtain ⟨_, known, version, readVersion, precision, readPrecision, colour,
      readColour, coordinate, readCoordinate, replacement, readReplacement,
      uniforms, readUniforms, macros, readMacros, output, readOutput, identifiers,
      readIdentifiers, made⟩ := made
    obtain rfl := Except.ok.inj made
    refine ⟨known, fun field => ?_⟩
    cases field with
    | versionDirective => exact (textField_eq_ok_iff ..).mp readVersion
    | precision => exact (textField_eq_ok_iff ..).mp readPrecision
    | fragColor => exact (textField_eq_ok_iff ..).mp readColour
    | fragCoord => exact (textField_eq_ok_iff ..).mp readCoordinate
    | fragCoordBuiltin => exact (textField_eq_ok_iff ..).mp readReplacement
    | uniforms => exact (uniformsField_eq_ok_iff ..).mp readUniforms
    | macros => exact (macrosField_eq_ok_iff ..).mp readMacros
    | output => exact (outputField_eq_ok_iff ..).mp readOutput
    | identifiers => exact (identifiersField_eq_ok_iff ..).mp readIdentifiers
  · rintro ⟨known, settled⟩
    have version := (textField_eq_ok_iff ..).mpr (settled .versionDirective)
    have precision := (textField_eq_ok_iff ..).mpr (settled .precision)
    have colour := (textField_eq_ok_iff ..).mpr (settled .fragColor)
    have coordinate := (textField_eq_ok_iff ..).mpr (settled .fragCoord)
    have replacement := (textField_eq_ok_iff ..).mpr (settled .fragCoordBuiltin)
    have uniforms := (uniformsField_eq_ok_iff ..).mpr (settled .uniforms)
    have macros := (macrosField_eq_ok_iff ..).mpr (settled .macros)
    have output := (outputField_eq_ok_iff ..).mpr (settled .output)
    have identifiers :=
      (identifiersField_eq_ok_iff ..).mpr (settled .identifiers)
    simp only [ofEntries, bind_eq_ok_iff]
    exact ⟨_, known, _, version, _, precision, _, colour, _, coordinate, _,
      replacement, _, uniforms, _, macros, _, output, _, identifiers, rfl⟩

/-! ## The first problem -/

/-- What an attempt fails with. -/
def problem? : Except ε α → Option ε
  | .ok _ => none
  | .error problem => some problem

theorem problem?_eq_none_iff (attempt : Except ε α) :
    problem? attempt = none ↔ ∃ value, attempt = .ok value := by
  cases attempt <;> simp [problem?]

theorem problem?_eq_some_iff
    (attempt : Except ε α)
    (problem : ε) : problem? attempt = some problem ↔ attempt = .error problem := by
  cases attempt <;> simp [problem?]

/-- The first problem counts. -/
theorem problem?_bind
    {first : Except ε α}
    {next : α → Except ε β}
    {later : Option ε}
    (same : ∀ value, problem? (next value) = later) :
    problem? (first >>= next) = (problem? first).or later := by
  cases first with
  | error problem => rfl
  | ok value => exact same value

/-- What is wrong with the field of a document. -/
def Field.problem? (entries : Entries) : Field → Option DocumentError
  | .versionDirective => Dialect.problem?
      (textField entries "version_directive" builtin.versionDirective)
  | .precision => Dialect.problem?
      (textField entries "precision" builtin.precision)
  | .fragColor => Dialect.problem?
      (textField entries "frag_color" builtin.fragColor)
  | .fragCoord => Dialect.problem?
      (textField entries "frag_coord" builtin.fragCoord)
  | .fragCoordBuiltin => Dialect.problem?
      (textField entries "frag_coord_builtin" builtin.fragCoordBuiltin)
  | .uniforms => Dialect.problem?
      (pairsField entries "uniforms" Variable.mk builtin.uniforms)
  | .macros => Dialect.problem?
      (pairsField entries "macros" Macro.mk builtin.macros)
  | .output => Dialect.problem? (outputField entries builtin.output)
  | .identifiers => Dialect.problem?
      (identifiersField entries builtin.canonicalIdentifiers)

/-- The keys are checked first, then the fields in their order. -/
theorem problem?_ofEntries (entries : Entries) :
    problem? (ofEntries entries) = (problem? (checkKeys entries)).or
      (Field.all.findSome? (Field.problem? entries)) := by
  have findSome?_cons (field : Field) (rest : List Field) :
      (field :: rest).findSome? (Field.problem? entries) =
        (field.problem? entries).or
          (rest.findSome? (Field.problem? entries)) := by
    rw [List.findSome?_cons]
    cases field.problem? entries <;> rfl
  simp only [Field.all, findSome?_cons, List.findSome?_nil]
  unfold ofEntries
  iterate 10 refine problem?_bind fun _ => ?_
  rfl

/-- An output variable has a text if its name and its type have one. -/
theorem IsOutput.hasText_iff
    {value name type : Value}
    (isOutput : IsOutput value name type) :
    value.hasText = true ↔ name.hasText = true ∧ type.hasText = true := by
  rcases isOutput with rfl | rfl
  · simp [Value.hasText, Value.entriesHaveTexts, Value.entryHasText]
  · simp [Value.hasText, Value.entriesHaveTexts, Value.entryHasText, and_comm]

theorem textField_problem?_eq_none_iff
    (entries : Entries)
    (key default : String) :
    problem? (textField entries key default) = none ↔
      ∀ value, Entries.find? entries key = some value → value.IsText := by
  simp only [problem?_eq_none_iff, textField_eq_ok_iff]
  exact exists_settles_iff _ (fun text value => value = .text text) default

theorem forall_isText_iff (items : List Value) :
    (∀ item ∈ items, item.IsText) ↔
      ∃ texts : List String, items = texts.map .text := by
  constructor
  · intro texts
    induction items with
    | nil => exact ⟨[], rfl⟩
    | cons item items inductionHypothesis =>
        obtain ⟨⟨text, rfl⟩, rest⟩ := List.forall_mem_cons.mp texts
        obtain ⟨more, rfl⟩ := inductionHypothesis rest
        exact ⟨text :: more, rfl⟩
  · rintro ⟨texts, rfl⟩ item member
    obtain ⟨text, -, rfl⟩ := List.mem_map.mp member
    exact ⟨text, rfl⟩

theorem isSome_textPairs?_iff (pairs : Entries) :
    (textPairs? pairs).isSome ↔
      ∀ pair ∈ pairs, pair.1.IsText ∧ pair.2.IsText := by
  rw [Option.isSome_iff_exists]
  simp only [textPairs?_eq_some_iff]
  constructor
  · rintro ⟨texts, rfl⟩ pair member
    obtain ⟨text, -, rfl⟩ := List.mem_map.mp member
    exact ⟨⟨_, rfl⟩, ⟨_, rfl⟩⟩
  · intro texts
    induction pairs with
    | nil => exact ⟨[], rfl⟩
    | cons pair pairs inductionHypothesis =>
        obtain ⟨⟨⟨key, isKey⟩, ⟨value, isValue⟩⟩, rest⟩ :=
          List.forall_mem_cons.mp texts
        obtain ⟨more, rfl⟩ := inductionHypothesis rest
        exact ⟨(key, value) :: more, by rw [List.map_cons, ← isKey, ← isValue]⟩

theorem pairsField_problem?_eq_none_iff
    (entries : Entries)
    (key : String)
    (build : String → String → α)
    (default : List α) :
    problem? (pairsField entries key build default) = none ↔
      ∀ value, Entries.find? entries key = some value →
        ∃ pairs, value = .mapping pairs ∧
          ∀ pair ∈ pairs, pair.1.IsText ∧ pair.2.IsText := by
  rw [pairsField]
  cases Entries.find? entries key with
  | none => simp [problem?]
  | some value =>
      cases value with
      | mapping pairs =>
          simp only [Option.some_inj, forall_eq', Value.mapping.injEq,
            existsAndEq, ← isSome_textPairs?_iff, true_and]
          cases textPairs? pairs <;> simp [problem?]
      | enclosing isMapping => cases isMapping <;> simp [problem?]
      | _ => simp [problem?]

theorem outputField_problem?_eq_none_iff
    (entries : Entries)
    (default : Variable) :
    problem? (outputField entries default) = none ↔
      ∀ value, Entries.find? entries "output_variable" = some value →
        (∃ name type, IsOutput value name type) ∧ value.hasText = true := by
  simp only [problem?_eq_none_iff, outputField_eq_ok_iff]
  rw [exists_settles_iff _ (fun (output : Variable) value => ∃ name type,
    IsOutput value name type ∧ name.IsWritten output.name ∧
      type.IsWritten output.type)]
  refine forall₂_congr fun value found => ⟨?_, ?_⟩
  · rintro ⟨output, name, type, isOutput, written, writtenType⟩
    exact ⟨⟨name, type, isOutput⟩,
      isOutput.hasText_iff.mpr ⟨written.hasText, writtenType.hasText⟩⟩
  · rintro ⟨⟨name, type, isOutput⟩, writable⟩
    obtain ⟨nameText, typeText⟩ := isOutput.hasText_iff.mp writable
    exact ⟨⟨name.display, type.display⟩, name, type, isOutput,
      ⟨nameText, rfl⟩, ⟨typeText, rfl⟩⟩

theorem identifiersField_problem?_eq_none_iff
    (entries : Entries)
    (default : List String) :
    problem? (identifiersField entries default) = none ↔
      ∀ value, Entries.find? entries "canonical_identifiers" = some value →
        ∃ items, value = .list items ∧ ∀ item ∈ items, item.IsText := by
  simp only [problem?_eq_none_iff, identifiersField_eq_ok_iff]
  rw [exists_settles_iff _ (fun (identifiers : List String) value =>
    value = .list (identifiers.map .text))]
  refine forall₂_congr fun value found => ⟨?_, ?_⟩
  · rintro ⟨identifiers, rfl⟩
    exact ⟨_, rfl, (forall_isText_iff _).mpr ⟨identifiers, rfl⟩⟩
  · rintro ⟨items, rfl, texts⟩
    obtain ⟨identifiers, rfl⟩ := (forall_isText_iff _).mp texts
    exact ⟨identifiers, rfl⟩

/-- Nothing is wrong with a field exactly if what is given for it has the form that
it asks for and, for the output variable, a text. -/
theorem Field.problem?_eq_none_iff
    (entries : Entries)
    (field : Field) :
    field.problem? entries = none ↔
      ∀ value, Entries.find? entries field.key = some value →
        field.Accepts value ∧ (field = .output → value.hasText = true) := by
  cases field <;>
    simp only [reduceCtorEq, false_implies, true_implies, and_true]
  case output => exact outputField_problem?_eq_none_iff ..
  case uniforms | macros => exact pairsField_problem?_eq_none_iff ..
  case identifiers => exact identifiersField_problem?_eq_none_iff ..
  all_goals exact textField_problem?_eq_none_iff ..

/-- A document describes a dialect exactly if its keys name fields, its values have
the forms that the fields ask for, and its output variable has a text. -/
theorem exists_ofEntries_iff (entries : Entries) :
    (∃ dialect, ofEntries entries = .ok dialect) ↔
      (∀ entry ∈ entries, NamesField entry.1) ∧
      (∀ field : Field, ∀ value, Entries.find? entries field.key = some value →
        field.Accepts value) ∧
      ∀ value, Entries.find? entries Field.output.key = some value →
        value.hasText = true := by
  have keys : problem? (checkKeys entries) = none ↔
      ∀ entry ∈ entries, NamesField entry.1 := by
    rw [← checkKeys_eq_ok_iff, problem?_eq_none_iff]
    exact ⟨fun ⟨_, passed⟩ => passed, fun passed => ⟨(), passed⟩⟩
  rw [← problem?_eq_none_iff, problem?_ofEntries, Option.or_eq_none_iff, keys,
    List.findSome?_eq_none_iff]
  refine and_congr_right fun _ => ?_
  simp only [Field.problem?_eq_none_iff]
  constructor
  · intro fine
    exact ⟨fun field value found => (fine field field.mem_all value found).1,
      fun value found => (fine .output (Field.mem_all _) value found).2 rfl⟩
  · rintro ⟨accepted, writable⟩ field - value found
    refine ⟨accepted field value found, ?_⟩
    rintro rfl
    exact writable value found

end Dialect
end ShaderLift
