import ShaderLift.Proofs.Delivery

/-!
# How the convert command ends

The convert command chooses a dialect, converts a shader and hands out the code.
A dialect file or a shader that is no good is an error in the log and leaves the
files as they are.  Three kinds of problems are not caught: errors of a dialect
file that nobody foresaw, an output that cannot be written, and code without
bytes, which a dialect with half of a surrogate pair may lead to.  Nothing is
logged then.  The files are as they were, unless the code has no bytes and was
to go to a file, which is empty by then.

How a dialect file is read is not laid down here.  Whatever a reader makes of
its bytes, a value or an error of any kind, the command ends as described.
-/

namespace ShaderLift
namespace CommandLine

/-- The dialect and the shader lead to this code, in which some characters may
stand for halves of surrogate pairs. -/
def Converts
    (surroundings : Surroundings)
    (shader : String)
    (dialectFile : Option String)
    (code : String)
    (surrogates : Text.Surrogates) : Prop :=
  ∃ dialect,
    dialectFrom surroundings.files surroundings.reader dialectFile =
      .ok ⟨dialect, surrogates⟩ ∧
    codeOf? surroundings.files shader dialect = some code

/-- Code is printed, or it becomes the content of a file and no other file
changes. -/
def HandsOutCode
    (files : FileStore)
    (code : String)
    (output : Option String)
    (report : Report) : Prop :=
  match output with
  | none => report.printed = code ++ "\n" ∧ report.files = files
  | some path =>
      ∃ place, files.locateFile path = .ok place ∧
        files.OnlyWrites place (code ++ "\n") report.files

/-- The command hands out the code, which has bytes, and ends well, or it logs
an error, changes no file and ends with the code 1, but not with a failure. -/
inductive EndsCleanly
    (surroundings : Surroundings)
    (shader : String)
    (output dialectFile : Option String)
    (result : Logged Report) : Prop
  | converted (code : String) (surrogates : Text.Surrogates)
      (exits : result.value.ending.exitCode = 0)
      (converts : Converts surroundings shader dialectFile code surrogates)
      (whole : Text.encodeError? surrogates 0 (code ++ "\n").toList = none)
      (handed : HandsOutCode surroundings.files code output result.value)
  | refused
      (exits : result.value.ending.exitCode = 1)
      (caught : ∀ failure, result.value.ending ≠ .stopped (.failed failure))
      (logs : LogsError result.log)
      (kept : result.value.files = surroundings.files)

/-- What is left of the files when code that is to be handed out has no bytes: a
file that it was to go to is emptied. -/
def LeavesEmpty
    (files : FileStore)
    (output : Option String)
    (left : FileStore) : Prop :=
  match output with
  | none => left = files
  | some path => files.writeText path "" = .ok left

/-- What the command does not catch, and the files that this leaves: an error of
the dialect file that nobody foresaw, an output that the code cannot be written
to, and code without bytes. -/
inductive Escapes
    (surroundings : Surroundings)
    (shader : String)
    (output dialectFile : Option String) : Failure → FileStore → Prop
  | dialect (error : Dialect.LoadError)
      (fails : dialectFrom surroundings.files surroundings.reader dialectFile =
        .error error)
      (unforeseen : IsUnforeseen error) :
      Escapes surroundings shader output dialectFile (.dialect error)
        surroundings.files
  | output (code path : String) (surrogates : Text.Surrogates)
      (cause : FileCause)
      (converts : Converts surroundings shader dialectFile code surrogates)
      (named : output = some path)
      (fails : surroundings.files.locateFile path = .error cause) :
      Escapes surroundings shader output dialectFile (.file ⟨cause, path⟩)
        surroundings.files
  | text (code : String) (surrogates : Text.Surrogates)
      (error : Text.EncodeError) (left : FileStore)
      (converts : Converts surroundings shader dialectFile code surrogates)
      (broken : Text.encodeError? surrogates 0 (code ++ "\n").toList =
        some error)
      (leaves : LeavesEmpty surroundings.files output left) :
      Escapes surroundings shader output dialectFile (.text error) left

/-- Code is handed out unless its file cannot be written or it has no bytes. -/
theorem deliver_cases
    (files : FileStore)
    (code : String)
    (output : Option String)
    (surrogates : Text.Surrogates) :
    (Text.encodeError? surrogates 0 (code ++ "\n").toList = none ∧
      (deliver files code output surrogates).value.ending = .done ∧
      HandsOutCode files code output
        (deliver files code output surrogates).value) ∨
    (∃ path cause, output = some path ∧ files.locateFile path = .error cause ∧
      (deliver files code output surrogates).value =
        Report.failed (.file ⟨cause, path⟩) files) ∨
    ∃ error left,
      Text.encodeError? surrogates 0 (code ++ "\n").toList = some error ∧
      LeavesEmpty files output left ∧
      (deliver files code output surrogates).value =
        Report.failed (.text error) left := by
  cases output with
  | none =>
      unfold deliver
      dsimp only
      cases Text.encodeError? surrogates 0 (code ++ "\n").toList with
      | none => exact Or.inl ⟨rfl, rfl, rfl, rfl⟩
      | some error => exact Or.inr (Or.inr ⟨error, files, rfl, rfl, rfl⟩)
  | some path =>
      rw [value_deliver_some]
      rcases files.writeMarked_cases path (code ++ "\n") surrogates with
        ⟨cause, fails, written⟩ | ⟨error, left, broken, emptied, written⟩ |
          ⟨whole, saved, saves, written⟩
      · rw [written]
        exact Or.inr (Or.inl ⟨path, cause, rfl, fails, rfl⟩)
      · rw [written]
        exact Or.inr (Or.inr ⟨error, left, broken, emptied, rfl⟩)
      · obtain ⟨place, located, -⟩ := FileStore.writeText_eq_ok_iff.mp saves
        rw [written]
        exact Or.inl ⟨whole, rfl, place, located,
          FileStore.onlyWrites_of_writeText located saves⟩

section Convert

variable {surroundings : Surroundings} {dialectFile : Option String}

/-- The convert command in its surroundings. -/
def convertIn
    (surroundings : Surroundings)
    (shader : String)
    (output dialectFile : Option String) : Logged Report :=
  convert surroundings.files shader output dialectFile surroundings.reader

theorem value_convert_of_stop
    {stop : Stop}
    (stopped : (dialectIn surroundings.files dialectFile
      surroundings.reader).outcome = .error stop)
    (shader : String)
    (output : Option String) :
    (convertIn surroundings shader output dialectFile).value =
      Report.stopped stop surroundings.files := by
  unfold Attempt.outcome at stopped
  rw [convertIn, convert, Logged.value_bind, stopped]
  rfl

/-- What the dialect's file leaves in the log stays there. -/
theorem logsError_convert_of_dialectIn
    (logs : LogsError (dialectIn surroundings.files dialectFile
      surroundings.reader).run.log)
    (shader : String)
    (output : Option String) :
    LogsError (convertIn surroundings shader output dialectFile).log := by
  rw [convertIn, convert, Logged.log_bind]
  exact logs.append_left

/-- Without code, the log says why. -/
theorem convert_of_codeOf?_eq_none
    {shader : String}
    {loaded : Dialect.Loaded}
    (chosen : (dialectIn surroundings.files dialectFile
      surroundings.reader).outcome = .ok loaded)
    (noCode : codeOf? surroundings.files shader loaded.dialect = none)
    (output : Option String) :
    (convertIn surroundings shader output dialectFile).value =
        Report.stopped .logged surroundings.files ∧
      LogsError (convertIn surroundings shader output dialectFile).log := by
  have converted :=
    value_convertFile_eq_codeOf? surroundings.files shader loaded.dialect
  unfold Attempt.outcome at chosen
  rw [noCode] at converted
  rw [convertIn, convert, Logged.value_bind, Logged.log_bind, chosen]
  dsimp only
  rw [Logged.value_bind, Logged.log_bind, converted]
  exact ⟨rfl, (logsError_convertFile noCode).append_left.append_right⟩

/-- Code is handed out. -/
theorem value_convert_of_codeOf?_eq_some
    {shader code : String}
    {loaded : Dialect.Loaded}
    (chosen : (dialectIn surroundings.files dialectFile
      surroundings.reader).outcome = .ok loaded)
    (found : codeOf? surroundings.files shader loaded.dialect = some code)
    (output : Option String) :
    (convertIn surroundings shader output dialectFile).value =
      (deliver surroundings.files code output loaded.surrogates).value := by
  have converted :=
    value_convertFile_eq_codeOf? surroundings.files shader loaded.dialect
  unfold Attempt.outcome at chosen
  rw [found] at converted
  rw [convertIn, convert, Logged.value_bind, chosen]
  dsimp only
  rw [Logged.value_bind, converted]

theorem endsCleanly_of_stopped
    {result : Logged Report}
    (stopped : result.value = Report.stopped .logged surroundings.files)
    (logs : LogsError result.log)
    (shader : String)
    (output dialectFile : Option String) :
    EndsCleanly surroundings shader output dialectFile result := by
  refine .refused ?_ ?_ logs ?_ <;> rw [stopped]
  · rfl
  · exact fun failure => nofun
  · rfl

/-- The command ends cleanly, or something escapes and is what it reports. -/
theorem endsCleanly_or_escapes
    (surroundings : Surroundings)
    (shader : String)
    (output dialectFile : Option String) :
    EndsCleanly surroundings shader output dialectFile
        (convertIn surroundings shader output dialectFile) ∨
      ∃ failure left,
        Escapes surroundings shader output dialectFile failure left ∧
        (convertIn surroundings shader output dialectFile).value =
          Report.failed failure left := by
  rcases dialectIn_cases surroundings.files dialectFile surroundings.reader with
    ⟨⟨dialect, surrogates⟩, loads, chosen⟩ |
      ⟨error, fails, foreseen, stopped, logs⟩ |
      ⟨error, fails, unforeseen, stopped⟩
  · cases found : codeOf? surroundings.files shader dialect with
    | none =>
        obtain ⟨stopped, logs⟩ := convert_of_codeOf?_eq_none chosen found output
        exact Or.inl (endsCleanly_of_stopped stopped logs ..)
    | some code =>
        have converts : Converts surroundings shader dialectFile code surrogates :=
          ⟨dialect, loads, found⟩
        have delivered := value_convert_of_codeOf?_eq_some chosen found output
        rcases deliver_cases surroundings.files code output surrogates with
          ⟨whole, done, handed⟩ | ⟨path, cause, named, fails, failed⟩ |
            ⟨error, left, broken, leaves, failed⟩
        · rw [← delivered] at done handed
          exact Or.inl
            (.converted code surrogates (by rw [done]; rfl) converts whole handed)
        · exact Or.inr ⟨_, _,
            .output code path surrogates cause converts named fails,
            delivered.trans failed⟩
        · exact Or.inr ⟨_, _,
            .text code surrogates error left converts broken leaves,
            delivered.trans failed⟩
  · exact Or.inl (endsCleanly_of_stopped
      (value_convert_of_stop stopped shader output)
      (logsError_convert_of_dialectIn logs shader output) ..)
  · exact Or.inr ⟨_, _, .dialect error fails unforeseen,
      value_convert_of_stop stopped shader output⟩

/-- Where a path leads nowhere, nothing is emptied. -/
theorem LeavesEmpty.locateFile_ne_error
    {files left : FileStore}
    {path : String}
    (leaves : LeavesEmpty files (some path) left)
    (cause : FileCause) : files.locateFile path ≠ .error cause := by
  obtain ⟨place, located, -⟩ := FileStore.writeText_eq_ok_iff.mp leaves
  exact fun fails => nomatch located.symm.trans fails

theorem LeavesEmpty.unique
    {files left other : FileStore}
    {output : Option String}
    (leaves : LeavesEmpty files output left)
    (leavesOther : LeavesEmpty files output other) : left = other := by
  cases output with
  | none => exact Eq.trans leaves (Eq.symm leavesOther)
  | some path => exact Except.ok.inj (Eq.trans (Eq.symm leaves) leavesOther)

/-- What escapes ends the command and leaves the files as described. -/
theorem Escapes.value_convert
    {shader : String}
    {output : Option String}
    {failure : Failure}
    {left : FileStore}
    (escapes : Escapes surroundings shader output dialectFile failure left) :
    (convertIn surroundings shader output dialectFile).value =
      Report.failed failure left := by
  cases escapes with
  | dialect error fails unforeseen =>
      rcases dialectIn_cases surroundings.files dialectFile
          surroundings.reader with
        ⟨loaded, loads, -⟩ | ⟨known, failsToo, foreseen, -⟩ |
          ⟨known, failsToo, -, stopped⟩
      · exact nomatch loads.symm.trans fails
      · obtain rfl := Except.error.inj (failsToo.symm.trans fails)
        exact absurd unforeseen foreseen
      · obtain rfl := Except.error.inj (failsToo.symm.trans fails)
        exact value_convert_of_stop stopped shader output
  | output code path surrogates cause converts named fails =>
      obtain ⟨dialect, loads, found⟩ := converts
      subst named
      rw [value_convert_of_codeOf?_eq_some (outcome_dialectIn_of_ok loads) found]
      rcases deliver_cases surroundings.files code (some path) surrogates with
        ⟨-, -, place, located, -⟩ | ⟨other, reason, same, failsToo, failed⟩ |
          ⟨error, left, -, leaves, -⟩
      · exact nomatch located.symm.trans fails
      · obtain rfl := Option.some.inj same
        obtain rfl := Except.error.inj (fails.symm.trans failsToo)
        exact failed
      · exact absurd fails (leaves.locateFile_ne_error cause)
  | text code surrogates error left converts broken leaves =>
      obtain ⟨dialect, loads, found⟩ := converts
      rw [value_convert_of_codeOf?_eq_some (outcome_dialectIn_of_ok loads) found]
      rcases deliver_cases surroundings.files code output surrogates with
        ⟨whole, -⟩ | ⟨path, cause, rfl, fails, -⟩ |
          ⟨other, otherLeft, brokenToo, leavesToo, failed⟩
      · exact nomatch whole.symm.trans broken
      · exact absurd fails (leaves.locateFile_ne_error cause)
      · obtain rfl := Option.some.inj (broken.symm.trans brokenToo)
        obtain rfl := leaves.unique leavesToo
        exact failed

end Convert

/-- Errors are shown, whatever else is left out of the log. -/
theorem LogsError.shown
    {log : List Entry}
    (logs : LogsError log)
    (isVerbose : Bool) : LogsError (shown isVerbose log) := by
  obtain ⟨entry, member, isError⟩ := logs
  refine ⟨entry, List.mem_filter.mpr ⟨member, ?_⟩, isError⟩
  rw [isError]
  exact Bool.or_true isVerbose

section Ends

variable {surroundings : Surroundings} {shader : String}
variable {output dialectFile : Option String} {result : Logged Report}

theorem EndsCleanly.shown
    (clean : EndsCleanly surroundings shader output dialectFile result)
    (isVerbose : Bool) :
    EndsCleanly surroundings shader output dialectFile
      ⟨result.value, CommandLine.shown isVerbose result.log⟩ := by
  cases clean with
  | converted code surrogates exits converts whole handed =>
      exact .converted code surrogates exits converts whole handed
  | refused exits caught logs kept =>
      exact .refused exits caught (logs.shown isVerbose) kept

/-- No failure ends the command cleanly. -/
theorem EndsCleanly.value_ne_failed
    (clean : EndsCleanly surroundings shader output dialectFile result)
    (failure : Failure)
    (left : FileStore) : result.value ≠ Report.failed failure left := by
  intro failed
  cases clean with
  | converted code surrogates exits converts whole handed =>
      rw [failed] at exits
      exact nomatch exits
  | refused exits caught logs kept =>
      exact caught failure (by rw [failed]; rfl)

end Ends

/-- A convert command that makes sense ends cleanly exactly if nothing escapes,
whatever the files hold and however documents are read.  What escapes is the
failure that ends the run.  Then too the files are as they were, but for an
output that the code has no bytes for. -/
theorem convert_endsCleanly_iff
    {surroundings : Surroundings}
    {line : List String}
    {isVerbose : Bool}
    {shader : String}
    {output dialectFile : Option String}
    (sensible : Invocation.read surroundings.environment line =
      .ok (.run isVerbose (.convert shader output dialectFile))) :
    (EndsCleanly surroundings shader output dialectFile
        (run surroundings line) ↔
      ∀ failure left,
        ¬ Escapes surroundings shader output dialectFile failure left) ∧
    ∀ failure left,
      Escapes surroundings shader output dialectFile failure left →
      (run surroundings line).value = Report.failed failure left := by
  have runs : run surroundings line =
      ⟨(convertIn surroundings shader output dialectFile).value,
        shown isVerbose
          (convertIn surroundings shader output dialectFile).log⟩ := by
    rw [run, sensible]
    rfl
  rw [runs]
  refine ⟨⟨?clean, ?sealed⟩, fun failure left escapes => escapes.value_convert⟩
  case clean =>
    intro clean failure left escapes
    exact clean.value_ne_failed failure left escapes.value_convert
  case sealed =>
    intro nothing
    rcases endsCleanly_or_escapes surroundings shader output dialectFile with
      clean | ⟨failure, left, escapes, -⟩
    · exact clean.shown isVerbose
    · exact absurd escapes (nothing failure left)

/-- A working directory with a shader, a dialect file whose only key is a
number, and a directory. -/
def unevenDirectory : Surroundings where
  files :=
    { root := "/work"
      entries :=
        [(["a.glsl"], .file [118, 111, 105, 100]),
          (["d.yaml"], .file [49, 58, 32, 97, 10]), (["frags"], .directory)] }
  now := ⟨⟨2024, 1, 2⟩, 3, 4, 5, 0, some 0⟩
  channel := fun _ => .crashed "unreachable"

/-- The output can be written, so the command ends cleanly. -/
theorem convert_endsCleanly_unevenDirectory :
    let line := ["convert", "a.glsl", "frags/a.frag"]
    Invocation.read unevenDirectory.environment line =
        .ok (.run false (.convert "a.glsl" (some "frags/a.frag") none)) ∧
      EndsCleanly unevenDirectory "a.glsl" (some "frags/a.frag") none
        (run unevenDirectory line) := by
  intro line
  have sensible : Invocation.read unevenDirectory.environment line =
      .ok (.run false (.convert "a.glsl" (some "frags/a.frag") none)) := by
    rfl
  have located : unevenDirectory.files.locateFile "frags/a.frag" =
      .ok ["frags", "a.frag"] := by
    decide +kernel
  refine ⟨sensible, (convert_endsCleanly_iff sensible).1.mpr ?_⟩
  intro failure left escapes
  cases escapes with
  | dialect error fails unforeseen => exact nomatch fails
  | output code path surrogates cause converts named fails =>
      obtain rfl := Option.some.inj named
      exact nomatch located.symm.trans fails
  | text code surrogates error left converts broken leaves =>
      obtain ⟨dialect, loads, -⟩ := converts
      obtain rfl : [] = surrogates :=
        congrArg Dialect.Loaded.surrogates (Except.ok.inj loads)
      exact nomatch (Text.encodeError?_nil ..).symm.trans broken

/-- An unknown key of a dialect file that is no text ends the program with a
failure, and the log is empty. -/
theorem not_endsCleanly_keyNotText :
    let line := ["convert", "a.glsl", "-d", "d.yaml"]
    let failure := Failure.dialect (.document (.keyNotText "int"))
    Invocation.read unevenDirectory.environment line =
        .ok (.run false (.convert "a.glsl" none (some "d.yaml"))) ∧
      run unevenDirectory line =
        ⟨Report.failed failure unevenDirectory.files, []⟩ ∧
      ¬ EndsCleanly unevenDirectory "a.glsl" none (some "d.yaml")
        (run unevenDirectory line) := by
  intro line failure
  have failed : run unevenDirectory line =
      ⟨Report.failed failure unevenDirectory.files, []⟩ := by
    decide +kernel
  refine ⟨by rfl, failed, ?_⟩
  rw [failed]
  exact fun clean => clean.value_ne_failed failure _ rfl

end CommandLine
end ShaderLift
