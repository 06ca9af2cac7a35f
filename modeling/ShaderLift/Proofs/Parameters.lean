import ShaderLift.Proofs.Aliases
import ShaderLift.Proofs.NameLayout
import ShaderLift.Proofs.Outcome

/-!
# The parameters of the entry point are gone

The built-in dialect removes every use of the coordinate and every assignment to
the colour when it renames them.  Neither resolving aliases nor formatting
brings one back, so converted code has no entry point that could be converted
again.
-/

namespace ShaderLift

namespace Shader

/-- A template without escapes stands for itself. -/
theorem Template.expand_literals (replaced text : List Char) :
    Template.expand replaced (text.map .literal) = text := by
  induction text with
  | nil => rfl
  | cons c cs inductionHypothesis =>
      rw [List.map_cons, Template.expand, List.flatMap_cons]
      exact congrArg (c :: ·) inductionHypothesis

end Shader

namespace Dialect

theorem toList_header (dialect : Dialect) :
    dialect.header.toList =
      dialect.headerLines.flatMap fun line => line.toList ++ ['\n'] := by
  simp [header, String.toList_join, List.flatMap_map]

theorem header_ne_empty (dialect : Dialect) : dialect.header ≠ "" := by
  intro empty
  have nothing := congrArg String.toList empty
  rw [toList_header] at nothing
  simp [headerLines] at nothing

end Dialect

namespace Conversion

open Shader Text Name

/-! ## The built-in dialect -/

theorem readTemplates_builtin :
    readTemplates .builtin =
      .ok ((outputTemplate .builtin).map .literal,
        Dialect.builtin.fragCoordBuiltin.toList.map .literal) := by
  rfl

/-- A source with its parameters renamed and its aliases resolved, as the
built-in dialect does it. -/
def renameBuiltin (table : Define.Table) (source : List Char) : List Char :=
  rename .builtin ((outputTemplate .builtin).map .literal,
    Dialect.builtin.fragCoordBuiltin.toList.map .literal) table source

/-- With the built-in dialect nothing but the entry point can be missing. -/
theorem outcome_convertText_builtin (source : List Char) :
    (convertText .builtin source).outcome =
      (EntryPoint.replace? "fragColor".toList "fragCoord".toList
        (Define.strip source)).elim (.error .missingEntryPoint)
        fun replaced => .ok (format
          (renameBuiltin (Define.extract source).value.1 replaced)) := by
  have names : Dialect.builtin.fragColor = "fragColor" ∧
      Dialect.builtin.fragCoord = "fragCoord" := ⟨rfl, rfl⟩
  rw [outcome_convertText, readTemplates_builtin, names.1, names.2]
  cases EntryPoint.replace? "fragColor".toList "fragCoord".toList
    (Define.strip source) <;> rfl

/-- No value that an alias is resolved to holds the letter that both parameters
start with. -/
theorem lacks_builtin :
    ∀ value ∈ Dialect.builtin.canonicalIdentifiers, Lacks 'f' value.toList := by
  intro value member
  have listed : value = "iTime" ∨ value = "iResolution.xy" := by
    simpa [Dialect.builtin] using member
  have letters : isWord 'i' = true ∧ isWord 'e' = true ∧ isWord 'y' = true := by
    decide +kernel
  rcases listed with rfl | rfl
  · exact ⟨⟨'i', rfl, letters.1⟩, letters.2.1, by decide⟩
  · exact ⟨⟨'i', rfl, letters.1⟩, letters.2.2, by decide⟩

theorem tidy_assignmentTo_builtin :
    Tidy 'f' (assignmentTo Dialect.builtin.fragColor.toList
      ((outputTemplate .builtin).map .literal)) := by
  refine tidy_assignmentTo fun behind detached => ?_
  rw [Template.expand_literals]
  exact
    { starts := ⟨'f', rfl, by decide⟩
      word := ⟨'o', rfl, by decide +kernel⟩
      hidden := fun before after equal =>
        absurd (equal ▸ (by simp) : 'f' ∈ outputTemplate .builtin) (by decide)
      closed := fun attached =>
        absurd (detached.symm.trans attached) (by simp) }

theorem tidy_useOf_builtin :
    Tidy 'f' (useOf Dialect.builtin.fragCoord.toList
      (Dialect.builtin.fragCoordBuiltin.toList.map .literal)) := by
  refine tidy_useOf ?_
  rw [Template.expand_literals]
  exact
    { starts := ⟨'f', rfl, by decide⟩
      word := ⟨'g', rfl, by decide +kernel⟩
      hidden := fun before after equal =>
        absurd (equal ▸ (by simp) :
          'f' ∈ Dialect.builtin.fragCoordBuiltin.toList) (by decide)
      closed := fun _ => by decide +kernel }

/-! ## The stages -/

/-- Neither parameter is left: the coordinate is not used and the colour is not
assigned to. -/
structure Renamed (text : List Char) : Prop where
  coordinate : ¬ StandsIn "fragCoord".toList EndsWord text
  colour : ¬ StandsIn "fragColor".toList StartsAssignment text

theorem isWord_coordinate : ∀ c ∈ "fragCoord".toList, isWord c = true := by
  rw [← List.all_eq_true]
  decide +kernel

theorem isWord_colour : ∀ c ∈ "fragColor".toList, isWord c = true := by
  rw [← List.all_eq_true]
  decide +kernel

/-- Renaming removes both parameters, and aliases do not bring them back. -/
theorem renamed_rename
    {table : Define.Table}
    (named : Named table)
    (source : List Char) :
    Renamed (renameBuiltin table source) := by
  have assigned := tidy_assignmentTo_builtin.not_standsIn_replaceAll
    isWord_colour tidy_assignmentTo_builtin.carries_startsAssignment
    (fun _ _ => assignmentTo_ne_none (by decide +kernel) _) source
  -- Assignments go first, so their removal must survive the second rename too.
  constructor
  · have used := tidy_useOf_builtin.not_standsIn_replaceAll isWord_coordinate
      tidy_useOf_builtin.carries_endsWord
      (fun _ _ => useOf_ne_none (by decide +kernel) _)
    exact not_standsIn_substituteDefines isWord_coordinate
      (fun _ tidy => tidy.carries_endsWord) lacks_builtin named (used _)
  · refine not_standsIn_substituteDefines isWord_colour
      (fun _ tidy => tidy.carries_startsAssignment) lacks_builtin named ?_
    exact fun stands => assigned
      (tidy_useOf_builtin.standsIn_of_standsIn_replaceAll isWord_colour
        tidy_useOf_builtin.carries_startsAssignment stands)

theorem Renamed.format
    {code : List Char}
    (renamed : Renamed code) : Renamed (Shader.format code) where
  coordinate := fun stands => renamed.coordinate
    (standsIn_of_standsIn_format isWord_coordinate endsWord_iff_shown
      carriesShown_endsWord stands)
  colour := fun stands => renamed.colour
    (standsIn_of_standsIn_format isWord_colour startsAssignment_iff_shown
      carriesShown_startsAssignment stands)

/-- Converted code is the header and a body without the parameters. -/
theorem exists_body_of_code
    {source sourceName : Option String}
    {code : String}
    (converted : (convert source .builtin sourceName).value.code = some code) :
    ∃ body, (convertBody .builtin source).outcome = .ok body ∧
      code = Dialect.builtin.header ++ body ∧ Renamed body.toList := by
  obtain ⟨text, rfl, present⟩ := exists_hasEntryPoint_of_code converted
  obtain ⟨replaced, -, outcome⟩ := outcome_convertBody_of_hasEntryPoint present
  rw [readTemplates_builtin] at outcome
  rw [value_convert, outcome] at converted
  refine ⟨_, outcome, (Option.some.inj converted).symm, ?_⟩
  rw [String.toList_ofList]
  exact (renamed_rename (named_extract text.toList) replaced).format

/-! ## Converting again -/

/-- The coordinate is in no line of the header. -/
theorem not_standsIn_headerLines :
    ∀ line ∈ Dialect.builtin.headerLines,
      ¬ StandsIn "fragCoord".toList EndsWord line.toList := by
  have absent : ∀ line ∈ Dialect.builtin.headerLines,
      ¬ "fragCoord".toList <:+: line.toList := by
    decide +kernel
  rintro line member ⟨before, after, equal, -⟩
  exact absent line member ⟨before, after, by rw [equal, List.append_assoc]⟩

/-- Converted code has no entry point. -/
theorem Renamed.not_hasEntryPoint
    {body : String}
    (renamed : Renamed body.toList) :
    ¬ HasEntryPoint .builtin (Dialect.builtin.header ++ body) := by
  intro present
  have oneLine : '\n' ∉ "fragCoord".toList := by decide
  have nonempty : "fragCoord".toList ≠ [] := by decide
  have stands := standsIn_of_standsIn_strip oneLine nonempty
    (EntryPoint.standsIn_of_occurs present)
  rw [String.toList_append, Dialect.toList_header] at stands
  exact renamed.coordinate
    (standsIn_of_lines_append oneLine nonempty not_standsIn_headerLines stands)

/-- Nothing of the parameters survives a conversion with the built-in dialect:
in the converted body the coordinate does not stand alone, the colour is not
assigned to, and the converted code has no entry point. -/
theorem convert_removes_parameters
    {source sourceName : Option String}
    {code : String}
    (converted : (convert source .builtin sourceName).value.code = some code) :
    ∃ body, (convertBody .builtin source).outcome = .ok body ∧
      code = Dialect.builtin.header ++ body ∧
      ¬ StandsIn "fragCoord".toList EndsWord body.toList ∧
      ¬ StandsIn "fragColor".toList StartsAssignment body.toList ∧
      ∀ name, ∃ message, (convert (some code) .builtin name).value =
        .failure .missingEntryPoint message := by
  obtain ⟨body, outcome, rfl, renamed⟩ := exists_body_of_code converted
  refine ⟨body, outcome, rfl, renamed.coordinate, renamed.colour, ?_⟩
  intro name
  have nonempty : Dialect.builtin.header ++ body ≠ "" := fun empty =>
    Dialect.header_ne_empty _ (String.append_eq_empty_iff.mp empty).1
  exact error_convert_of_not_hasEntryPoint nonempty
    renamed.not_hasEntryPoint name

/-- A source with an alias and two entry points. -/
def twoEntryPoints : String :=
  "#define res iResolution.xy\n" ++
    "void mainImage(out vec4 fragColor, in vec2 fragCoord) \x7b\n" ++
    "fragColor\n= vec4(fragCoord / res.x, my.fragCoord); \x7d\n" ++
    "void mainImage( out vec4 fragColor, in vec2 fragCoord ) \x7b\x7d"

theorem convert_removes_parameters_twoEntryPoints :
    ∃ code, (convert (some twoEntryPoints)).value.code = some code ∧
      ∃ body, (convertBody .builtin (some twoEntryPoints)).outcome = .ok body ∧
        code = Dialect.builtin.header ++ body ∧
        ¬ StandsIn "fragCoord".toList EndsWord body.toList ∧
        ¬ StandsIn "fragColor".toList StartsAssignment body.toList ∧
        ∀ name, ∃ message, (convert (some code) .builtin name).value =
          .failure .missingEntryPoint message := by
  have succeeds : (convert (some twoEntryPoints)).value.code.isSome = true := by
    decide +kernel
  obtain ⟨code, converted⟩ := Option.isSome_iff_exists.mp succeeds
  exact ⟨code, converted, convert_removes_parameters converted⟩

end Conversion
end ShaderLift
