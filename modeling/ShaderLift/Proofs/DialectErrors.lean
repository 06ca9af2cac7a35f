import ShaderLift.CommandLine.Shader
import ShaderLift.Proofs.DialectFields

/-!
# How a document is refused

A document that describes no dialect should be refused with a report of what is
wrong with it.  Two kinds of documents are not: one with a key that is no text,
since such keys are neither sorted nor joined with others, and one whose output
variable holds an integer with too many digits to be written.  Every other
document describes a dialect or is reported.
-/

namespace ShaderLift
namespace Dialect

open Document

/-- The error reports what is wrong with a document.  Every other error is a
failure to check it. -/
inductive DocumentError.IsReport : DocumentError → Prop
  | unknownKeys (names : List String) : IsReport (.unknownKeys names)
  | notText (field : String) : IsReport (.notText field)
  | notMapping (field : String) : IsReport (.notMapping field)
  | notTextMapping (field : String) : IsReport (.notTextMapping field)
  | badOutput : IsReport .badOutput
  | badIdentifiers : IsReport .badIdentifiers

/-- Nothing is wrong with the document up to its output variable, which has the
right form and no text. -/
structure HasLongNumber (entries : Entries) : Prop where
  known : ∀ entry ∈ entries, NamesField entry.1
  accepted : ∀ field : Field, field ≠ .identifiers → ∀ value,
    Entries.find? entries field.key = some value → field.Accepts value
  tooLong : ∃ value, Entries.find? entries Field.output.key = some value ∧
    value.hasText = false

/-- The errors that commands catch are the reports. -/
theorem isExpected_document_iff (error : DocumentError) :
    CommandLine.isExpected (.document error) = true ↔ error.IsReport := by
  constructor
  · intro expected
    cases error with
    | unknownKeys names => exact .unknownKeys names
    | notText field => exact .notText field
    | notMapping field => exact .notMapping field
    | notTextMapping field => exact .notTextMapping field
    | badOutput => exact .badOutput
    | badIdentifiers => exact .badIdentifiers
    | _ => contradiction
  · intro report
    cases report <;> rfl

/-! ## Keys -/

theorem NamesField.isText
    {key : Value}
    (named : NamesField key) : key.IsText := by
  obtain ⟨field, rfl⟩ := named
  exact ⟨field.key, rfl⟩

theorem isSome_text?_iff (value : Value) :
    (text? value).isSome = true ↔ value.IsText := by
  cases value <;> simp [text?, Value.IsText]

/-- Keys that name no field are reported exactly if all of them are texts. -/
theorem isReport_unknownKeysError_iff
    (first : Value)
    (rest : List Value) :
    (unknownKeysError first rest).IsReport ↔
      ∀ key ∈ first :: rest, key.IsText := by
  simp only [← isSome_text?_iff]
  rw [← List.all_eq_true, unknownKeysError]
  split
  next texts => exact iff_of_true (.unknownKeys _) texts
  next others =>
    refine iff_of_false (fun report => ?_) others
    split at report
    · cases report
    · split at report
      · split at report <;> cases report
      · cases report

/-- A key that names no field makes an error, which is a report exactly if all keys
of the document are texts. -/
theorem exists_checkKeys_error
    {entries : Entries}
    (unknown : ∃ entry ∈ entries, ¬ NamesField entry.1) :
    ∃ error, checkKeys entries = .error error ∧
      (error.IsReport ↔ ∀ entry ∈ entries, entry.1.IsText) := by
  have listed (entry : Value × Value) (member : entry ∈ entries)
      (unnamed : ¬ NamesField entry.1) :
      entry.1 ∈ (entries.map Prod.fst).filter (fun key => !isKnown key) := by
    refine List.mem_filter.mpr ⟨List.mem_map_of_mem member, ?_⟩
    rw [← isKnown_iff] at unnamed
    simpa using unnamed
  rw [checkKeys]
  cases found : (entries.map Prod.fst).filter (fun key => !isKnown key) with
  | nil =>
      obtain ⟨entry, member, unnamed⟩ := unknown
      have inside := listed entry member unnamed
      rw [found] at inside
      exact absurd inside List.not_mem_nil
  | cons first rest =>
      refine ⟨_, rfl, ?_⟩
      rw [isReport_unknownKeysError_iff, ← found]
      constructor
      · intro texts entry member
        by_cases named : NamesField entry.1
        · exact named.isText
        · exact texts entry.1 (listed entry member named)
      · intro texts key member
        obtain ⟨entry, inside, rfl⟩ :=
          List.mem_map.mp (List.mem_filter.mp member).1
        exact texts entry inside

/-! ## Fields -/

theorem isReport_of_textField
    {entries : Entries}
    {key default : String}
    {error : DocumentError}
    (failed : textField entries key default = .error error) :
    error.IsReport := by
  rw [textField] at failed
  split at failed <;> cases failed
  exact .notText key

theorem isReport_of_pairsField
    {entries : Entries}
    {key : String}
    {build : String → String → α}
    {default : List α}
    {error : DocumentError}
    (failed : pairsField entries key build default = .error error) :
    error.IsReport := by
  rw [pairsField] at failed
  split at failed
  · cases failed
  · split at failed <;> cases failed
    exact .notTextMapping key
  · cases failed
    exact .notTextMapping key
  · cases failed
    exact .notMapping key

theorem isReport_of_identifiersField
    {entries : Entries}
    {default : List String}
    {error : DocumentError}
    (failed : identifiersField entries default = .error error) :
    error.IsReport := by
  rw [identifiersField] at failed
  split at failed
  · cases failed
  · split at failed <;> cases failed
    exact .badIdentifiers
  · cases failed
    exact .badIdentifiers

/-- An output variable is refused for its form or for want of a text. -/
theorem outputField_eq_error_iff
    (entries : Entries)
    (default : Variable)
    (error : DocumentError) :
    outputField entries default = .error error ↔
      ∃ value, Entries.find? entries Field.output.key = some value ∧
        (¬ Field.output.Accepts value ∧ error = .badOutput ∨
          Field.output.Accepts value ∧ value.hasText = false ∧
            error = .numberTooLong) := by
  change outputField entries default = _ ↔
    ∃ value, Entries.find? entries "output_variable" = _ ∧ _
  rw [outputField]
  cases Entries.find? entries "output_variable" with
  | none => simp
  | some value =>
      simp only [Option.some_inj, existsAndEq, true_and]
      by_cases accepted : Field.output.Accepts value
      · obtain ⟨name, type, isOutput⟩ := id accepted
        have writable := isOutput.hasText_iff
        obtain ⟨pairs, rfl⟩ : ∃ pairs, value = .mapping pairs :=
          isOutput.elim (⟨_, ·⟩) (⟨_, ·⟩)
        obtain ⟨two, foundName, foundType⟩ :=
          (isOutput_mapping_iff ..).mp isOutput
        simp only [two, foundName, foundType, accepted, not_true_eq_false,
          false_and, false_or, true_and, Bool.and_eq_true, ← writable]
        by_cases hasText : (Value.mapping pairs).hasText = true
        · simp [hasText]
        · simp [hasText, eq_comm]
      · have refused : (.error .badOutput : Except DocumentError Variable) =
            .error error ↔ error = .badOutput := by
          rw [Except.error.injEq, eq_comm]
        rw [or_iff_left fun other => accepted other.1, and_iff_right accepted]
        cases value with
        | mapping pairs =>
            dsimp only
            split
            next name type two foundName foundType =>
              have isOutput := (isOutput_mapping_iff pairs name type).mpr
                ⟨two, foundName, foundType⟩
              exact absurd ⟨name, type, isOutput⟩ accepted
            next => exact refused
        | _ => exact refused

/-- Only an output variable of the right form has a problem that is no report. -/
theorem Field.isReport_of_problem?
    {entries : Entries}
    {field : Field}
    {error : DocumentError}
    (wrong : field.problem? entries = some error) :
    error.IsReport ∨ field = .output ∧ ∃ value,
      Entries.find? entries Field.output.key = some value ∧
        Field.output.Accepts value ∧ value.hasText = false := by
  cases field <;> replace wrong := (problem?_eq_some_iff _ _).mp wrong
  case output =>
    obtain ⟨value, found, ⟨-, rfl⟩ | ⟨accepted, noText, -⟩⟩ :=
      (outputField_eq_error_iff ..).mp wrong
    · exact Or.inl .badOutput
    · exact Or.inr ⟨rfl, value, found, accepted, noText⟩
  case uniforms | macros => exact Or.inl (isReport_of_pairsField wrong)
  case identifiers => exact Or.inl (isReport_of_identifiersField wrong)
  all_goals exact Or.inl (isReport_of_textField wrong)

/-- The fields that are checked before the output variable. -/
def Field.beforeOutput : List Field :=
  [.versionDirective, .precision, .fragColor, .fragCoord, .fragCoordBuiltin,
    .uniforms, .macros]

theorem Field.mem_beforeOutput_iff (field : Field) :
    field ∈ beforeOutput ↔ field ≠ .output ∧ field ≠ .identifiers := by
  cases field <;> decide

/-- Where all keys name fields, an error that is no report comes from an output
variable without a text, after all that is checked before it. -/
theorem hasLongNumber_iff
    {entries : Entries}
    (known : ∀ entry ∈ entries, NamesField entry.1) :
    HasLongNumber entries ↔
      ∃ error, ofEntries entries = .error error ∧ ¬ error.IsReport := by
  have passed : problem? (checkKeys entries) = none := by
    rw [(checkKeys_eq_ok_iff entries).mpr known]
    rfl
  simp only [← problem?_eq_some_iff, problem?_ofEntries, passed, Option.none_or,
    List.findSome?_eq_some_iff]
  constructor
  · intro long
    obtain ⟨value, found, noText⟩ := long.tooLong
    have wrong : Field.output.problem? entries = some .numberTooLong := by
      refine (problem?_eq_some_iff _ _).mpr ((outputField_eq_error_iff ..).mpr ?_)
      exact ⟨value, found, Or.inr
        ⟨long.accepted .output (by decide) value found, noText, rfl⟩⟩
    refine ⟨.numberTooLong, ⟨Field.beforeOutput, .output, [.identifiers], rfl,
      wrong, fun field member => ?_⟩, by rintro ⟨⟩⟩
    obtain ⟨notOutput, notIdentifiers⟩ := field.mem_beforeOutput_iff.mp member
    refine (Field.problem?_eq_none_iff ..).mpr fun value found => ?_
    exact ⟨long.accepted field notIdentifiers value found,
      fun isOutput => absurd isOutput notOutput⟩
  · rintro ⟨error, ⟨before, field, behind, divided, wrong, fine⟩, noReport⟩
    obtain ⟨rfl, long⟩ := (Field.isReport_of_problem? wrong).resolve_left noReport
    obtain ⟨value, found, accepted, noText⟩ := long
    have same : Field.beforeOutput = before := by
      change Field.beforeOutput ++ .output :: [.identifiers] = _ at divided
      exact ((List.append_cons_inj_of_notMem (by decide) (by decide)).mp divided).1
    refine ⟨known, fun field notIdentifiers value' found' => ?_, value, found,
      noText⟩
    by_cases isOutput : field = .output
    · subst isOutput
      obtain rfl := Option.some.inj (found.symm.trans found')
      exact accepted
    · have inside := field.mem_beforeOutput_iff.mpr ⟨isOutput, notIdentifiers⟩
      rw [same] at inside
      exact ((Field.problem?_eq_none_iff ..).mp (fine field inside) value' found').1

/-- A document describes a dialect or is reported exactly if its keys are texts and
its output variable has no integer that fails to be written.  With a key that names
no field it is refused, and reported exactly if all of its keys are texts.  The
reports are the errors that the commands log; all others end them. -/
theorem ofEntries_reports_iff (entries : Entries) :
    (((∃ dialect, ofEntries entries = .ok dialect) ∨
        ∃ error, ofEntries entries = .error error ∧ error.IsReport) ↔
      (∀ entry ∈ entries, entry.1.IsText) ∧ ¬ HasLongNumber entries) ∧
    ((∃ entry ∈ entries, ¬ NamesField entry.1) →
      ∃ error, ofEntries entries = .error error ∧
        (error.IsReport ↔ ∀ entry ∈ entries, entry.1.IsText)) ∧
    ∀ error : DocumentError,
      CommandLine.isExpected (.document error) = true ↔ error.IsReport := by
  have refused (unknown : ∃ entry ∈ entries, ¬ NamesField entry.1) :
      ∃ error, ofEntries entries = .error error ∧
        (error.IsReport ↔ ∀ entry ∈ entries, entry.1.IsText) := by
    obtain ⟨error, failed, report⟩ := exists_checkKeys_error unknown
    exact ⟨error, by rw [ofEntries, failed]; rfl, report⟩
  refine ⟨?_, refused, isExpected_document_iff⟩
  by_cases known : ∀ entry ∈ entries, NamesField entry.1
  · have texts : ∀ entry ∈ entries, entry.1.IsText :=
      fun entry member => (known entry member).isText
    rw [hasLongNumber_iff known, and_iff_right texts]
    cases ofEntries entries <;> simp
  · have unknown : ∃ entry ∈ entries, ¬ NamesField entry.1 := by simpa using known
    have short : ¬ HasLongNumber entries := fun long => known long.known
    obtain ⟨error, failed, report⟩ := refused unknown
    rw [and_iff_left short, ← report, failed]
    simp

/-- A key that is a number is not reported. -/
theorem not_reported_numberKey :
    let entries : Entries := [(.integer 1, .text "a")]
    ofEntries entries = .error (.keyNotText "int") ∧
    ¬ ((∃ dialect, ofEntries entries = .ok dialect) ∨
      ∃ error, ofEntries entries = .error error ∧ error.IsReport) := by
  intro entries
  have failed : ofEntries entries = .error (.keyNotText "int") := by decide
  refine ⟨failed, ?_⟩
  rw [failed]
  rintro (⟨dialect, made⟩ | ⟨error, same, report⟩)
  · cases made
  · cases same
    cases report

end Dialect
end ShaderLift
