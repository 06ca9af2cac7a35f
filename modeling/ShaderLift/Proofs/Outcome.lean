import ShaderLift.Conversion.Convert
import ShaderLift.Dialect.Document
import ShaderLift.Proofs.Attempt
import ShaderLift.Proofs.Signature

/-!
# The outcome of a conversion

Whether a conversion succeeds is decided by three questions in order: is there a
source at all, does it hold an entry point outside its directives, and can the
two templates of the dialect be read.  The last question is one about the
dialect alone, so a dialect fails on every source with an entry point, with one
message, or on none.
-/

namespace ShaderLift
namespace Shader

/-- The text cannot be read as a template. -/
def Template.IsMalformed (template : List Char) : Prop :=
  ∃ error, Template.parse template = .error error

end Shader

namespace Conversion

open Shader

/-- The text holds the entry point of the dialect outside its directives. -/
def HasEntryPoint (dialect : Dialect) (text : String) : Prop :=
  EntryPoint.Occurs
    (EntryPoint.signature dialect.fragColor.toList dialect.fragCoord.toList)
    (Define.strip text.toList)

/-! ## The stages as one equation -/

/-- The two templates of a dialect, the one for assignments to the output
first. -/
def readTemplates (dialect : Dialect) :
    Except Template.Error (List Template.Part × List Template.Part) := do
  let output ← Template.parse (outputTemplate dialect)
  let coordinate ← Template.parse dialect.fragCoordBuiltin.toList
  pure (output, coordinate)

/-- A source with its parameters renamed and its aliases resolved, given the
templates of the dialect. -/
def rename
    (dialect : Dialect)
    (templates : List Template.Part × List Template.Part)
    (table : Define.Table)
    (source : List Char) : List Char :=
  let assigned := Text.replaceAll
    (assignmentTo dialect.fragColor.toList templates.1) source
  let used := Text.replaceAll
    (useOf dialect.fragCoord.toList templates.2) assigned
  (substituteDefines dialect table used).value

theorem outcome_substituteIdentifiers
    (dialect : Dialect)
    (table : Define.Table)
    (source : List Char) :
    (substituteIdentifiers dialect table source).outcome =
      (readTemplates dialect).map fun templates =>
        rename dialect templates table source := by
  simp only [substituteIdentifiers, Attempt.outcome_bind,
    Attempt.outcome_ofExcept, Attempt.outcome_ofLogged, renameOutput,
    renameFragCoord, readTemplates]
  cases Template.parse (outputTemplate dialect) with
  | error error => rfl
  | ok output =>
      cases Template.parse dialect.fragCoordBuiltin.toList with
      | error error => rfl
      | ok coordinate => rfl

/-- A body is converted unless it lacks an entry point or the dialect has a
template that cannot be read. -/
theorem outcome_convertText
    (dialect : Dialect)
    (source : List Char) :
    (convertText dialect source).outcome =
      match EntryPoint.replace? dialect.fragColor.toList
          dialect.fragCoord.toList (Define.strip source) with
      | none => .error .missingEntryPoint
      | some replaced =>
          match readTemplates dialect with
          | .error error => .error (.badTemplate error)
          | .ok templates =>
              .ok (format (rename dialect templates
                (Define.extract source).value.1 replaced)) := by
  have stripped : (Define.extract source).value.2 = Define.strip source := rfl
  simp only [convertText, replaceEntryPoint, Attempt.outcome_bind,
    Attempt.outcome_ofLogged, Attempt.outcome_note, Attempt.outcome_mapError,
    Except.bind, stripped]
  cases EntryPoint.replace? dialect.fragColor.toList
      dialect.fragCoord.toList (Define.strip source) with
  | none => rfl
  | some replaced =>
      simp only [Attempt.outcome_bind, Attempt.outcome_note,
        Attempt.outcome_pure, Except.bind, outcome_substituteIdentifiers]
      cases readTemplates dialect <;> rfl

/-- A text with an entry point is not empty. -/
theorem HasEntryPoint.ne_empty
    {dialect : Dialect}
    {text : String}
    (present : HasEntryPoint dialect text) : text ≠ "" := by
  rintro rfl
  obtain ⟨before, found, after, equal, spelled⟩ := present
  have nothing : found = [] := by
    have stripped : Define.strip "".toList = [] := rfl
    rw [stripped, eq_comm, List.append_eq_nil_iff, List.append_eq_nil_iff]
      at equal
    exact equal.1.2
  rw [nothing] at spelled
  have word := EntryPoint.isSome_matchParts_of_spells spelled []
  contradiction

/-! ## The four cases -/

theorem value_convert
    (dialect : Dialect)
    (source sourceName : Option String) :
    (convert source dialect sourceName).value =
      match (convertBody dialect source).outcome with
      | .ok body => .success (dialect.header ++ body)
      | .error fault => (report fault sourceName).value := by
  have bound : (convert source dialect sourceName).value =
      (match (convertBody dialect source).outcome with
        | .ok body => (pure (.success (dialect.header ++ body)) : Logged Result)
        | .error fault => report fault sourceName).value := rfl
  rw [bound]
  cases (convertBody dialect source).outcome <;> rfl

/-- Nothing is no source. -/
theorem error_convert_of_empty
    {source : Option String}
    (empty : source = none ∨ source = some "")
    (dialect : Dialect)
    (sourceName : Option String) :
    ∃ message, (convert source dialect sourceName).value =
      .failure .emptyInput message := by
  have stopped : (convertBody dialect source).outcome = .error .emptyInput := by
    rcases empty with rfl | rfl <;> rfl
  rw [value_convert, stopped]
  exact ⟨_, rfl⟩

theorem exists_text_of_not_empty
    {source : Option String}
    (given : ¬ (source = none ∨ source = some "")) :
    ∃ text, source = some text ∧ text ≠ "" := by
  cases source with
  | none => simp at given
  | some text => exact ⟨text, rfl, by simpa using given⟩

theorem outcome_convertBody_of_ne_empty
    {text : String}
    (present : text ≠ "")
    (dialect : Dialect) :
    (convertBody dialect (some text)).outcome =
      (convertText dialect text.toList).outcome.map String.ofList := by
  have nonempty : ¬ text.isEmpty = true := by
    rw [String.isEmpty_iff]
    exact present
  simp only [convertBody, if_neg nonempty, Attempt.outcome_bind,
    Attempt.outcome_pure]
  cases (convertText dialect text.toList).outcome <;> rfl

/-- A source without an entry point is rejected whatever the dialect names. -/
theorem error_convert_of_not_hasEntryPoint
    {dialect : Dialect}
    {text : String}
    (present : text ≠ "")
    (absent : ¬ HasEntryPoint dialect text)
    (sourceName : Option String) :
    ∃ message, (convert (some text) dialect sourceName).value =
      .failure .missingEntryPoint message := by
  have missing : EntryPoint.replace? dialect.fragColor.toList
      dialect.fragCoord.toList (Define.strip text.toList) = none := by
    rw [← Option.not_isSome_iff_eq_none,
      EntryPoint.isSome_replace?_iff_occurs]
    exact absent
  rw [value_convert, outcome_convertBody_of_ne_empty present,
    outcome_convertText, missing]
  exact ⟨_, rfl⟩

/-- Code comes from a source with an entry point only. -/
theorem exists_hasEntryPoint_of_code
    {dialect : Dialect}
    {source sourceName : Option String}
    {code : String}
    (converted : (convert source dialect sourceName).value.code = some code) :
    ∃ text, source = some text ∧ HasEntryPoint dialect text := by
  by_cases empty : source = none ∨ source = some ""
  · obtain ⟨message, failed⟩ := error_convert_of_empty empty dialect sourceName
    rw [failed] at converted
    contradiction
  · obtain ⟨text, rfl, nonempty⟩ := exists_text_of_not_empty empty
    by_cases present : HasEntryPoint dialect text
    · exact ⟨text, rfl, present⟩
    · obtain ⟨message, failed⟩ :=
        error_convert_of_not_hasEntryPoint nonempty present sourceName
      rw [failed] at converted
      contradiction

/-- With an entry point in the source only the templates are left to fail. -/
theorem outcome_convertBody_of_hasEntryPoint
    {dialect : Dialect}
    {text : String}
    (present : HasEntryPoint dialect text) :
    ∃ replaced, EntryPoint.replace? dialect.fragColor.toList
        dialect.fragCoord.toList (Define.strip text.toList) = some replaced ∧
      (convertBody dialect (some text)).outcome =
        match readTemplates dialect with
        | .error error => .error (.badTemplate error)
        | .ok templates =>
            .ok (String.ofList (format (rename dialect templates
              (Define.extract text.toList).value.1 replaced))) := by
  have found := present
  rw [HasEntryPoint, ← EntryPoint.isSome_replace?_iff_occurs,
    Option.isSome_iff_exists] at found
  obtain ⟨replaced, found⟩ := found
  refine ⟨replaced, found, ?_⟩
  rw [outcome_convertBody_of_ne_empty present.ne_empty, outcome_convertText,
    found]
  cases readTemplates dialect <;> rfl

/-- The message for a template that cannot be read. -/
def templateMessage (error : Template.Error) : String :=
  "Failed to convert shader: " ++ error.message

theorem value_convert_of_template_error
    {dialect : Dialect}
    {text : String}
    (present : HasEntryPoint dialect text)
    {error : Template.Error}
    (unreadable : readTemplates dialect = .error error)
    (sourceName : Option String) :
    (convert (some text) dialect sourceName).value =
      .failure .internalFault (templateMessage error) := by
  obtain ⟨replaced, -, outcome⟩ := outcome_convertBody_of_hasEntryPoint present
  rw [value_convert, outcome, unreadable]
  rfl

theorem value_convert_of_templates
    {dialect : Dialect}
    {text : String}
    (present : HasEntryPoint dialect text)
    {templates : List Template.Part × List Template.Part}
    (readable : readTemplates dialect = .ok templates)
    (sourceName : Option String) :
    ∃ body, (convertBody dialect (some text)).outcome = .ok body ∧
      (convert (some text) dialect sourceName).value =
        .success (dialect.header ++ body) := by
  obtain ⟨replaced, -, outcome⟩ := outcome_convertBody_of_hasEntryPoint present
  rw [readable] at outcome
  refine ⟨_, outcome, ?_⟩
  rw [value_convert, outcome]

/-! ## Classification -/

theorem readTemplates_eq_error_iff
    (dialect : Dialect)
    (error : Template.Error) :
    readTemplates dialect = .error error ↔
      Template.parse (outputTemplate dialect) = .error error ∨
        (∃ parts, Template.parse (outputTemplate dialect) = .ok parts) ∧
          Template.parse dialect.fragCoordBuiltin.toList = .error error := by
  simp only [readTemplates]
  cases Template.parse (outputTemplate dialect) with
  | error other => simp [bind, Except.bind]
  | ok output =>
      cases Template.parse dialect.fragCoordBuiltin.toList <;>
        simp [bind, Except.bind, pure, Except.pure]

/-- Some template of the dialect cannot be read. -/
def HasMalformedTemplate (dialect : Dialect) : Prop :=
  Template.IsMalformed (outputTemplate dialect) ∨
    Template.IsMalformed dialect.fragCoordBuiltin.toList

theorem hasMalformedTemplate_iff (dialect : Dialect) :
    HasMalformedTemplate dialect ↔
      ∃ error, readTemplates dialect = .error error := by
  simp only [HasMalformedTemplate, Template.IsMalformed,
    readTemplates_eq_error_iff]
  constructor
  · rintro (⟨error, unreadable⟩ | ⟨error, unreadable⟩)
    · exact ⟨error, Or.inl unreadable⟩
    · cases outputRead : Template.parse (outputTemplate dialect) with
      | error first => exact ⟨first, Or.inl rfl⟩
      | ok parts => exact ⟨error, Or.inr ⟨⟨parts, rfl⟩, unreadable⟩⟩
  · rintro ⟨error, unreadable | ⟨-, unreadable⟩⟩
    · exact Or.inl ⟨error, unreadable⟩
    · exact Or.inr ⟨error, unreadable⟩

/-- A result is the right one for a source and a dialect: its kind, its message
where a template is at fault, and its code. -/
structure Classified
    (dialect : Dialect)
    (source : Option String)
    (result : Result) : Prop where
  /-- Exactly a missing or empty source is empty input. -/
  emptyInput_iff : result.error = some .emptyInput ↔
    source = none ∨ source = some ""
  /-- Exactly a source without an entry point lacks it. -/
  missingEntryPoint_iff : result.error = some .missingEntryPoint ↔
    ∃ text, source = some text ∧ text ≠ "" ∧ ¬ HasEntryPoint dialect text
  /-- Exactly a template that cannot be read is an internal fault. -/
  internalFault_iff : result.error = some .internalFault ↔
    ∃ text, source = some text ∧ HasEntryPoint dialect text ∧
      HasMalformedTemplate dialect
  /-- All else succeeds. -/
  success_iff : result.error = none ↔
    ∃ text, source = some text ∧ HasEntryPoint dialect text ∧
      ¬ HasMalformedTemplate dialect
  /-- A fault of the output template is reported before any other. -/
  outputMessage : ∀ error,
    Template.parse (outputTemplate dialect) = .error error →
    result.error = some .internalFault →
    result.message = templateMessage error
  /-- A fault of the coordinate template is reported if it is the only one. -/
  coordinateMessage : ∀ parts error,
    Template.parse (outputTemplate dialect) = .ok parts →
    Template.parse dialect.fragCoordBuiltin.toList = .error error →
    result.error = some .internalFault →
    result.message = templateMessage error
  /-- The code is the header and the converted body. -/
  success : result.error = none →
    ∃ body, (convertBody dialect source).outcome = .ok body ∧
      result.code = some (dialect.header ++ body) ∧ result.message = ""
  /-- There is either code or an error. -/
  code_or_error : result.code.isSome ↔ result.error = none

/-- A missing or empty source is classified. -/
theorem classified_of_empty
    {source : Option String}
    (empty : source = none ∨ source = some "")
    (dialect : Dialect)
    (sourceName : Option String) :
    Classified dialect source (convert source dialect sourceName).value := by
  obtain ⟨message, value⟩ := error_convert_of_empty empty dialect sourceName
  have noText : ∀ text, source = some text → text = "" := by
    rintro text rfl
    simpa using empty
  have noEntry : ∀ text, source = some text → ¬ HasEntryPoint dialect text :=
    fun text equal present => present.ne_empty (noText text equal)
  rw [value]
  refine
    { emptyInput_iff := by simp [Result.failure, empty]
      missingEntryPoint_iff := iff_of_false (by simp [Result.failure]) ?missing
      internalFault_iff := iff_of_false (by simp [Result.failure]) ?fault
      success_iff := iff_of_false (by simp [Result.failure]) ?success
      outputMessage := by simp [Result.failure]
      coordinateMessage := by simp [Result.failure]
      success := by simp [Result.failure]
      code_or_error := by simp [Result.failure] }
  case missing =>
    rintro ⟨text, equal, present, -⟩
    exact present (noText text equal)
  case fault =>
    rintro ⟨text, equal, present, -⟩
    exact noEntry text equal present
  case success =>
    rintro ⟨text, equal, present, -⟩
    exact noEntry text equal present

/-- A source without an entry point is classified. -/
theorem classified_of_not_hasEntryPoint
    {dialect : Dialect}
    {text : String}
    (present : text ≠ "")
    (absent : ¬ HasEntryPoint dialect text)
    (sourceName : Option String) :
    Classified dialect (some text)
      (convert (some text) dialect sourceName).value := by
  obtain ⟨message, value⟩ :=
    error_convert_of_not_hasEntryPoint present absent sourceName
  rw [value]
  constructor <;> simp [Result.failure, present, absent]

/-- A source with an entry point is classified by the templates alone. -/
theorem classified_of_hasEntryPoint
    {dialect : Dialect}
    {text : String}
    (present : HasEntryPoint dialect text)
    (sourceName : Option String) :
    Classified dialect (some text)
      (convert (some text) dialect sourceName).value := by
  have nonempty := present.ne_empty
  cases templates : readTemplates dialect with
  | error error =>
      have malformed : HasMalformedTemplate dialect :=
        (hasMalformedTemplate_iff dialect).mpr ⟨error, templates⟩
      have reported := (readTemplates_eq_error_iff dialect error).mp templates
      rw [value_convert_of_template_error present templates sourceName]
      refine
        { emptyInput_iff := by simp [Result.failure, nonempty]
          missingEntryPoint_iff := by simp [Result.failure, present]
          internalFault_iff := by simp [Result.failure, present, malformed]
          success_iff := by simp [Result.failure, malformed]
          outputMessage := ?output
          coordinateMessage := ?coordinate
          success := by simp [Result.failure]
          code_or_error := by simp [Result.failure] }
      case output =>
        intro first unreadable _
        have same : first = error := by simpa [unreadable] using reported
        rw [same, Result.failure]
      case coordinate =>
        intro parts second readable unreadable _
        have same : second = error := by
          simpa [readable, unreadable] using reported
        rw [same, Result.failure]
  | ok read =>
      have wellFormed : ¬ HasMalformedTemplate dialect := by
        rw [hasMalformedTemplate_iff, templates]
        simp
      obtain ⟨body, outcome, value⟩ :=
        value_convert_of_templates present templates sourceName
      rw [value]
      constructor <;>
        simp [Result.success, nonempty, present, wellFormed, outcome]

/-- Every conversion is classified, and a dialect fails either on every source
with an entry point, with one message, or on none. -/
theorem convert_classified (dialect : Dialect) :
    (∀ source sourceName,
      Classified dialect source (convert source dialect sourceName).value) ∧
    ((∃ message, ∀ text sourceName, HasEntryPoint dialect text →
        (convert (some text) dialect sourceName).value =
          .failure .internalFault message) ∨
      ∀ text sourceName, HasEntryPoint dialect text →
        (convert (some text) dialect sourceName).value.error = none) := by
  constructor
  · intro source sourceName
    by_cases empty : source = none ∨ source = some ""
    · exact classified_of_empty empty dialect sourceName
    · obtain ⟨text, rfl, present⟩ := exists_text_of_not_empty empty
      by_cases entered : HasEntryPoint dialect text
      · exact classified_of_hasEntryPoint entered sourceName
      · exact classified_of_not_hasEntryPoint present entered sourceName
  · cases templates : readTemplates dialect with
    | error error =>
        refine Or.inl ⟨templateMessage error, fun text sourceName present => ?_⟩
        exact value_convert_of_template_error present templates sourceName
    | ok read =>
        refine Or.inr fun text sourceName present => ?_
        obtain ⟨body, -, value⟩ :=
          value_convert_of_templates present templates sourceName
        rw [value]
        rfl

/-- The built-in dialect with a lone backslash for the output variable. -/
def backslashOutput : Dialect :=
  { Dialect.builtin with output := ⟨"\\", "vec4"⟩ }

/-- A lone backslash cannot be read as a template, but followed by the rest of
an assignment it can: a dialect with that output name, which a document may
describe, converts a source with an entry point. -/
theorem backslashOutput_converts :
    let source := "void mainImage(out vec4 fragColor, in vec2 fragCoord) {}"
    Dialect.ofEntries
        [(.text "output_variable", .mapping
          [(.text "name", .text "\\"), (.text "type", .text "vec4")])] =
      .ok backslashOutput ∧
    ¬ ((convert (some source) backslashOutput).value.error =
        some .internalFault ↔
      HasEntryPoint backslashOutput source ∧
        (Template.IsMalformed backslashOutput.output.name.toList ∨
          Template.IsMalformed backslashOutput.fragCoordBuiltin.toList)) := by
  intro source
  have converts :
      (convert (some source) backslashOutput).value.error = none := by
    decide +kernel
  have present : HasEntryPoint backslashOutput source :=
    (EntryPoint.isSome_replace?_iff_occurs _ _ _).mp (by decide +kernel)
  have malformed :
      Template.IsMalformed backslashOutput.output.name.toList :=
    ⟨.malformed .danglingBackslash 0 none, by rfl⟩
  refine ⟨by rfl, fun claimed => ?_⟩
  have fault := claimed.mpr ⟨present, Or.inl malformed⟩
  rw [converts] at fault
  contradiction

end Conversion
end ShaderLift
