import ShaderLift.CommandLine.Run
import ShaderLift.Proofs.FilePaths
import ShaderLift.Proofs.Outcome

/-!
# Shaders in, code out

What the commands share: the code of a shader's file, which is there if the file
can be read and converted and else leaves an error in the log, the choice of a
dialect, whose errors are logged as far as they are expected, and the handing out
of code, which writes one file or none.
-/

namespace ShaderLift

namespace Conversion

/-- A conversion is unwrapped to its code. -/
theorem toOption_unwrap_convert
    (source : Option String)
    (dialect : Dialect)
    (sourceName : Option String) :
    (convert source dialect sourceName).value.unwrap.toOption =
      (convert source dialect sourceName).value.code := by
  rw [value_convert]
  cases (convertBody dialect source).outcome with
  | ok body => rfl
  | error fault => cases fault <;> rfl

end Conversion

namespace CommandLine

/-! ## Reading and converting -/

/-- The code that a shader's file converts to, if it can be read and
converted. -/
def codeOf?
    (files : FileStore)
    (shader : String)
    (dialect : Dialect) : Option String :=
  match files.readText (Path.plain shader) with
  | .error _ => none
  | .ok text =>
      (Conversion.convert (some (String.ofList text)) dialect
        (some shader)).value.code

theorem value_readShader
    (files : FileStore)
    (shader : String) :
    (readShader files shader).value =
      (files.readText (Path.plain shader)).toOption.map String.ofList := by
  unfold readShader
  cases files.readText (Path.plain shader) <;> rfl

theorem value_convertFile
    (files : FileStore)
    (shader : String)
    (dialect : Dialect) :
    (convertFile files shader dialect).value =
      (readShader files shader).value.bind fun source =>
        (Conversion.convert (some source) dialect
          (some shader)).value.unwrap.toOption := by
  rw [convertFile, Logged.value_bind]
  cases (readShader files shader).value with
  | none => rfl
  | some source =>
      rw [Option.bind_some]
      dsimp only
      rw [Logged.value_bind]
      cases (Conversion.convert (some source) dialect
        (some shader)).value.unwrap <;> rfl

theorem value_convertFile_eq_codeOf?
    (files : FileStore)
    (shader : String)
    (dialect : Dialect) :
    (convertFile files shader dialect).value = codeOf? files shader dialect := by
  rw [value_convertFile, value_readShader]
  unfold codeOf?
  cases files.readText (Path.plain shader) with
  | error problem => rfl
  | ok text => exact Conversion.toOption_unwrap_convert ..

/-- Something is wrong, and the log says so. -/
def LogsError (log : List Entry) : Prop :=
  ∃ entry ∈ log, entry.level = .error

theorem LogsError.append_left
    {front back : List Entry}
    (logs : LogsError front) : LogsError (front ++ back) := by
  obtain ⟨entry, member, isError⟩ := logs
  exact ⟨entry, List.mem_append_left back member, isError⟩

theorem LogsError.append_right
    {front back : List Entry}
    (logs : LogsError back) : LogsError (front ++ back) := by
  obtain ⟨entry, member, isError⟩ := logs
  exact ⟨entry, List.mem_append_right front member, isError⟩

/-- A shader without code is an error in the log. -/
theorem logsError_convertFile
    {files : FileStore}
    {shader : String}
    {dialect : Dialect}
    (noCode : codeOf? files shader dialect = none) :
    LogsError (convertFile files shader dialect).log := by
  rw [← value_convertFile_eq_codeOf?] at noCode
  unfold convertFile readShader at noCode ⊢
  cases read : files.readText (Path.plain shader) with
  | error problem =>
      exact ⟨_, List.mem_append_left _ List.mem_cons_self, rfl⟩
  | ok text =>
      rw [read] at noCode
      dsimp only at noCode ⊢
      simp only [Logged.value_bind, Logged.value_pure, Logged.log_bind,
        Logged.log_pure, List.nil_append] at noCode ⊢
      apply LogsError.append_right
      cases unwrapped : (Conversion.convert (some (String.ofList text)) dialect
          (some shader)).value.unwrap with
      | ok code => rw [unwrapped] at noCode; exact nomatch noCode
      | error failure => exact ⟨_, List.mem_cons_self, rfl⟩

/-! ## Choosing a dialect -/

/-- The dialect in a file or why there is none, and the built-in one if no file
is named. -/
def dialectFrom
    (files : FileStore)
    (reader : Yaml.Reader) : Option String → Except Dialect.LoadError Dialect.Loaded
  | none => .ok ⟨.builtin, []⟩
  | some path => (Dialect.load files path reader).outcome

/-- An error of a dialect file that nobody foresaw: the file is no text, a
scalar in it has no value, a key that names no field is no text either, or a
number of the output variable has too many digits. -/
inductive IsUnforeseen : Dialect.LoadError → Prop
  | noText (error : Text.DecodeError) : IsUnforeseen (.unreadable (.text error))
  | noValue (cause : Yaml.Fault) : IsUnforeseen (.fault cause)
  | keyNotText (typeName : String) :
      IsUnforeseen (.document (.keyNotText typeName))
  | keysNotOrdered (left right : String) :
      IsUnforeseen (.document (.keysNotOrdered left right))
  | momentsNotOrdered : IsUnforeseen (.document .momentsNotOrdered)
  | numberTooLong : IsUnforeseen (.document .numberTooLong)

theorem isExpected_eq_false_iff {error : Dialect.LoadError} :
    isExpected error = false ↔ IsUnforeseen error := by
  constructor
  · intro unexpected
    cases error with
    | unreadable error =>
        cases error with
        | file error => exact nomatch unexpected
        | text error => exact .noText error
    | malformed path => exact nomatch unexpected
    | fault cause => exact .noValue cause
    | notMapping path => exact nomatch unexpected
    | document error =>
        cases error with
        | keyNotText typeName => exact .keyNotText typeName
        | keysNotOrdered left right => exact .keysNotOrdered left right
        | momentsNotOrdered => exact .momentsNotOrdered
        | numberTooLong => exact .numberTooLong
        | _ => exact nomatch unexpected
  · intro unforeseen
    cases unforeseen <;> rfl

/-- A dialect is chosen, its error is in the log, or its error is not caught. -/
theorem dialectIn_cases
    (files : FileStore)
    (path : Option String)
    (reader : Yaml.Reader) :
    (∃ loaded, dialectFrom files reader path = .ok loaded ∧
      (dialectIn files path reader).outcome = .ok loaded) ∨
    (∃ error, dialectFrom files reader path = .error error ∧
      ¬ IsUnforeseen error ∧
      (dialectIn files path reader).outcome = .error .logged ∧
      LogsError (dialectIn files path reader).run.log) ∨
    ∃ error, dialectFrom files reader path = .error error ∧
      IsUnforeseen error ∧
      (dialectIn files path reader).outcome =
        .error (.failed (.dialect error)) := by
  cases path with
  | none => exact Or.inl ⟨⟨.builtin, []⟩, rfl, rfl⟩
  | some path =>
      have chosen : dialectFrom files reader (some path) =
          (Dialect.load files path reader).run.value := rfl
      unfold dialectIn
      dsimp only
      rw [Attempt.outcome_bind, Attempt.outcome_ofLogged,
        Attempt.log_bind_of_ok (Attempt.outcome_ofLogged _), chosen]
      cases (Dialect.load files path reader).run.value with
      | ok loaded => exact Or.inl ⟨loaded, rfl, rfl⟩
      | error error =>
          right
          cases expected : isExpected error with
          | true =>
              refine Or.inl ⟨error, rfl, ?_, ?_, LogsError.append_right ?_⟩
              · rw [← isExpected_eq_false_iff, expected]
                simp
              · dsimp only [Except.bind]
                rw [if_pos expected]
                rfl
              · dsimp only
                rw [if_pos expected]
                exact ⟨_, List.mem_cons_self, rfl⟩
          | false =>
              refine Or.inr ⟨error, rfl, isExpected_eq_false_iff.mp expected, ?_⟩
              dsimp only [Except.bind]
              rw [if_neg (by simp [expected])]
              rfl

theorem outcome_dialectIn_of_ok
    {files : FileStore}
    {path : Option String}
    {reader : Yaml.Reader}
    {loaded : Dialect.Loaded}
    (loads : dialectFrom files reader path = .ok loaded) :
    (dialectIn files path reader).outcome = .ok loaded := by
  rcases dialectIn_cases files path reader with
    ⟨chosen, found, taken⟩ | ⟨error, fails, -⟩ | ⟨error, fails, -⟩
  · obtain rfl : chosen = loaded := Except.ok.inj (found.symm.trans loads)
    exact taken
  · exact nomatch fails.symm.trans loads
  · exact nomatch fails.symm.trans loads

/-! ## Handing out -/

/-- The shader goes to the output, where the files are those given. -/
def Delivers
    (files : FileStore)
    (shader : String)
    (output : Option String)
    (report : Report) : Prop :=
  match output with
  | none =>
      report.ending = .done ∧ report.printed = shader ++ "\n" ∧
        report.files = files
  | some path =>
      (files.writeText path (shader ++ "\n") = .ok report.files ∧
        report.ending = .done) ∨
      ∃ problem, files.writeText path (shader ++ "\n") = .error problem ∧
        report.ending = .stopped (.failed (.file problem)) ∧
        report.files = files

/-- Writing code is writing it with a line end. -/
theorem outcome_writeCode
    (files : FileStore)
    (code output : String)
    (surrogates : Text.Surrogates) :
    (writeCode files code output surrogates).outcome =
      files.writeMarked output (code ++ "\n") surrogates := by
  rw [writeCode, Attempt.outcome_bind, Attempt.outcome_ofExcept]
  cases files.writeMarked output (code ++ "\n") surrogates <;> rfl

theorem value_deliver_some
    (files : FileStore)
    (code path : String)
    (surrogates : Text.Surrogates) :
    (deliver files code (some path) surrogates).value =
      match files.writeMarked path (code ++ "\n") surrogates with
      | .ok written => { files := written }
      | .error failure =>
          Report.failed (.ofWriteError failure.error) failure.files := by
  have written := outcome_writeCode files code path surrogates
  unfold Attempt.outcome at written
  unfold deliver
  dsimp only
  rw [Logged.value_bind, written]
  cases files.writeMarked path (code ++ "\n") surrogates <;> rfl

theorem delivers_deliver
    (files : FileStore)
    (shader : String)
    (output : Option String)
    (requests : Option (List Chat.Request)) :
    Delivers files shader output
      { (deliver files shader output).value with requests := requests } := by
  cases output with
  | none =>
      unfold deliver
      dsimp only
      rw [Text.encodeError?_nil]
      exact ⟨rfl, rfl, rfl⟩
  | some path =>
      rw [value_deliver_some]
      rcases files.writeMarked_cases path (shader ++ "\n") [] with
        ⟨cause, fails, written⟩ | ⟨error, left, broken, -⟩ |
          ⟨-, saved, saves, written⟩
      · rw [written]
        exact Or.inr ⟨⟨cause, path⟩, by rw [FileStore.writeText, fails], rfl, rfl⟩
      · rw [Text.encodeError?_nil] at broken
        contradiction
      · rw [written]
        exact Or.inl ⟨saves, rfl⟩

end CommandLine
end ShaderLift
