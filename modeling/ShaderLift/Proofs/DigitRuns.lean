import ShaderLift.Proofs.ExampleBundle
import ShaderLift.Proofs.Standalone

/-!
# Names that have a key

A name is split at its digit runs into pieces: a text, a run, a text, and so on
to a last text.  A run of decimal digits is read as a number within the limit of
digits.  A text between runs is kept, unless all of it are digits that no number
is written with.  A name has a key exactly if all its pieces can be read, the
stems of a directory have an order exactly if each of them has a key, and a
bundle succeeds exactly then.
-/

namespace ShaderLift
namespace Text

/-! ## Reading a run of decimal digits -/

theorem isBlank_of_isDecimal
    {c : Char}
    (decimal : isDecimal c = true) : isBlank c = false := by
  have codes : ∀ code ∈ Shader.Name.blankCodes,
      isDecimal (Char.ofNat code) = false := by
    decide +kernel
  cases blank : isBlank c with
  | false => rfl
  | true =>
      have other := codes c.toNat (Shader.Name.mem_blankCodes_of_isBlank blank)
      rw [Char.ofNat_toNat, decimal] at other
      contradiction

theorem trim_of_shown
    {text : List Char}
    (shown : ∀ c ∈ text, isBlank c = false) : trim text = text :=
  trim_of_visible_ends
    (fun c first => shown c (List.mem_of_mem_head? first))
    (fun c last => shown c (List.mem_of_getLast? last))

/-- The number that decimal digits of any script write. -/
def valueOf (digits : List Char) : Nat :=
  ofDigits 10 (digits.filterMap decimalValue?)

theorem separatedDigits_of_isDecimal
    {digits : List Char}
    (present : digits ≠ [])
    (decimal : ∀ c ∈ digits, isDecimal c = true) :
    separatedDigits decimalValue? digits =
      some (digits.filterMap decimalValue?) := by
  induction digits with
  | nil => contradiction
  | cons c rest inductionHypothesis =>
      obtain ⟨value, known⟩ :=
        Option.isSome_iff_exists.mp (decimal c List.mem_cons_self)
      cases rest with
      | nil => simp [separatedDigits, known]
      | cons d others =>
          have later := inductionHypothesis (List.cons_ne_nil d others)
            fun e member => decimal e (List.mem_cons_of_mem c member)
          have apart : d ≠ '_' := by
            rintro rfl
            exact absurd (decimal '_' (by simp)) (by decide +kernel)
          rw [separatedDigits, known, later]
          · simp [known]
          · exact List.cons_ne_nil d others
          · intro left equal
            exact apart (List.cons.inj equal).1

theorem separatedDigits_of_not_isDecimal
    {text : List Char}
    (plain : ∀ c ∈ text, isDecimal c = false) :
    separatedDigits decimalValue? text = none := by
  cases text with
  | nil => rfl
  | cons c rest =>
      have unknown : decimalValue? c = none := by
        simpa [isDecimal] using plain c List.mem_cons_self
      rw [separatedDigits.eq_def]
      split <;> simp_all

/-- A run of decimal digits is read as its value, within the limit of
digits. -/
theorem readInteger_of_isDecimal
    {digits : List Char}
    (present : digits ≠ [])
    (decimal : ∀ c ∈ digits, isDecimal c = true) :
    readInteger digits =
      if digitLimit < digits.length then .error (.tooLong digits.length)
      else .ok (valueOf digits) := by
  have whole : trim digits = digits :=
    trim_of_shown fun c member => isBlank_of_isDecimal (decimal c member)
  have counted : (digits.filterMap decimalValue?).length = digits.length :=
    List.filterMap_length_eq_length.mpr decimal
  have values := separatedDigits_of_isDecimal present decimal
  obtain ⟨c, rest, rfl⟩ := List.exists_cons_of_ne_nil present
  have first := decimal c List.mem_cons_self
  have positive : c ≠ '-' ∧ c ≠ '+' := by
    constructor
    · rintro rfl
      exact absurd first (by decide +kernel)
    · rintro rfl
      exact absurd first (by decide +kernel)
  rw [readInteger, whole]
  simp [positive, values, counted, valueOf]

/-- A text without decimal digits is no number. -/
theorem readInteger_of_not_isDecimal
    {text : List Char}
    (plain : ∀ c ∈ text, isDecimal c = false) :
    readInteger text = .error (.invalid 10 (String.ofList text)) := by
  obtain ⟨before, after, divided, -⟩ := exists_blanks_of_trim text
  have plainTrimmed : ∀ c ∈ trim text, isDecimal c = false := by
    intro c member
    refine plain c ?_
    rw [divided]
    simp [member]
  rw [readInteger]
  split
  next negative digits signed =>
    have plainDigits : ∀ c ∈ digits, isDecimal c = false := by
      have behindSign {sign : Char} {rest : List Char}
          (starts : trim text = sign :: rest) :
          ∀ c ∈ rest, isDecimal c = false := by
        rw [starts] at plainTrimmed
        exact fun c member => plainTrimmed c (List.mem_cons_of_mem sign member)
      split at signed
      · next starts => exact (Prod.mk.inj signed).2 ▸ behindSign starts
      · next starts => exact (Prod.mk.inj signed).2 ▸ behindSign starts
      · exact (Prod.mk.inj signed).2 ▸ plainTrimmed
    rw [separatedDigits_of_not_isDecimal plainDigits]

end Text

namespace Examples

open Text

/-! ## The pieces of a name -/

theorem length_dropWhile_lt
    {name rest : List Char}
    {digit : Char}
    (found : (name.dropWhile fun c => !isDecimal c) = digit :: rest) :
    (rest.dropWhile isDecimal).length < name.length := by
  calc
    (rest.dropWhile isDecimal).length ≤ rest.length :=
      (List.dropWhile_suffix _).length_le
    _ < (digit :: rest).length := Nat.lt_succ_self _
    _ ≤ name.length := found ▸ (List.dropWhile_suffix _).length_le

/-- The pieces of a name: the text before its first digit run, that run, and the
pieces of what is left. -/
def pieces (name : List Char) : List (List Char) :=
  match found : name.dropWhile fun c => !isDecimal c with
  | [] => [name]
  | digit :: rest =>
      have := length_dropWhile_lt found
      name.takeWhile (fun c => !isDecimal c) ::
        (digit :: rest.takeWhile isDecimal) ::
          pieces (rest.dropWhile isDecimal)
termination_by name.length

/-- A text without decimal digits. -/
def IsText (text : List Char) : Prop :=
  ∀ c ∈ text, isDecimal c = false

/-- One decimal digit or more. -/
structure IsRun (digits : List Char) : Prop where
  present : digits ≠ []
  decimal : ∀ c ∈ digits, isDecimal c = true

/-- A digit run cannot go on. -/
def EndsRun (rest : List Char) : Prop :=
  ∀ c ∈ rest.head?, isDecimal c = false

/-- Every name is a text, or a text before a digit run and another name. -/
theorem run_induction
    {motive : List Char → Prop}
    (text : ∀ text, IsText text → motive text)
    (run : ∀ text digits rest, IsText text → IsRun digits → EndsRun rest →
      motive rest → motive (text ++ (digits ++ rest)))
    (name : List Char) : motive name := by
  induction name using pieces.induct with
  | case1 name found =>
      refine text name fun c member => ?_
      simpa using List.dropWhile_eq_nil_iff.mp found c member
  | case2 name digit rest found _ inductionHypothesis =>
      have isText : IsText (name.takeWhile fun c => !isDecimal c) := by
        intro c member
        simpa using List.mem_takeWhile_imp member
      have first : isDecimal digit = true := by
        have shown := List.head?_dropWhile_not (fun c => !isDecimal c) name
        rw [found] at shown
        simpa using shown
      have isRun : IsRun (digit :: rest.takeWhile isDecimal) := by
        refine ⟨List.cons_ne_nil _ _, ?_⟩
        rintro c (_ | ⟨_, member⟩)
        · exact first
        · exact List.mem_takeWhile_imp member
      have ends : EndsRun (rest.dropWhile isDecimal) := by
        intro c starts
        have shown := List.head?_dropWhile_not isDecimal rest
        rw [starts] at shown
        simpa using shown
      have divided := run _ _ _ isText isRun ends inductionHypothesis
      rwa [List.cons_append, List.takeWhile_append_dropWhile, ← found,
        List.takeWhile_append_dropWhile] at divided

section Division

variable {text digits rest : List Char}

theorem pieces_of_isText (isText : IsText text) : pieces text = [text] := by
  have nothing : (text.dropWhile fun c => !isDecimal c) = [] :=
    List.dropWhile_eq_nil_iff.mpr fun c member => by simp [isText c member]
  rw [pieces]
  split
  · rfl
  · next found => exact nomatch nothing.symm.trans found

theorem pieces_append
    (isText : IsText text)
    (isRun : IsRun digits)
    (ends : EndsRun rest) :
    pieces (text ++ (digits ++ rest)) = text :: digits :: pieces rest := by
  obtain ⟨digit, others, rfl⟩ := List.exists_cons_of_ne_nil isRun.present
  have first := isRun.decimal digit List.mem_cons_self
  have plain : ∀ c ∈ text, (!isDecimal c) = true := fun c member => by
    simp [isText c member]
  have decimal : ∀ c ∈ others, isDecimal c = true := fun c member =>
    isRun.decimal c (List.mem_cons_of_mem digit member)
  have stops : rest.takeWhile isDecimal = [] ∧
      rest.dropWhile isDecimal = rest := by
    cases rest with
    | nil => exact ⟨rfl, rfl⟩
    | cons c left => simp [ends c rfl]
  have behind : ((text ++ (digit :: others ++ rest)).dropWhile
      fun c => !isDecimal c) = digit :: (others ++ rest) := by
    rw [List.dropWhile_append_of_pos plain]
    simp [first]
  rw [pieces]
  split
  · next found => exact nomatch behind.symm.trans found
  · next found =>
      obtain ⟨rfl, rfl⟩ := List.cons.inj (behind.symm.trans found)
      dsimp only
      rw [List.takeWhile_append_of_pos plain,
        List.takeWhile_append_of_pos decimal,
        List.dropWhile_append_of_pos decimal, stops.1, stops.2]
      simp [first]

theorem runs_text_append
    (isText : IsText text)
    (rest : List Char) :
    runs (text ++ rest) = (text ++ (runs rest).1, (runs rest).2) := by
  induction text with
  | nil => rfl
  | cons c others inductionHypothesis =>
      have first := isText c List.mem_cons_self
      have later := inductionHypothesis fun d member =>
        isText d (List.mem_cons_of_mem c member)
      rw [List.cons_append, runs, later]
      simp [first]

theorem runs_of_isText (isText : IsText text) : runs text = (text, []) := by
  have whole := runs_text_append isText []
  simpa [runs] using whole

theorem runs_digits_append
    (isRun : IsRun digits)
    (ends : EndsRun rest) :
    runs (digits ++ rest) = ([], (digits, (runs rest).1) :: (runs rest).2) := by
  obtain ⟨present, decimal⟩ := isRun
  induction digits with
  | nil => contradiction
  | cons c others inductionHypothesis =>
      have first := decimal c List.mem_cons_self
      cases others with
      | nil =>
          -- A run directly behind the digit would be joined to it.
          cases rest with
          | nil => simp [runs, first]
          | cons d left =>
              have stops : isDecimal d = false := ends d rfl
              simp [runs, first, stops]
      | cons d left =>
          have later := inductionHypothesis (List.cons_ne_nil d left)
            fun e member => decimal e (List.mem_cons_of_mem c member)
          rw [List.cons_append, runs, later]
          simp [first]

theorem runs_append
    (isText : IsText text)
    (isRun : IsRun digits)
    (ends : EndsRun rest) :
    runs (text ++ (digits ++ rest)) =
      (text, (digits, (runs rest).1) :: (runs rest).2) := by
  rw [runs_text_append isText, runs_digits_append isRun ends, List.append_nil]

end Division

/-- The pieces are the first text and every run with the text behind it. -/
theorem pieces_eq (name : List Char) :
    pieces name =
      (runs name).1 :: (runs name).2.flatMap fun run => [run.1, run.2] := by
  induction name using run_induction with
  | text text isText =>
      rw [pieces_of_isText isText, runs_of_isText isText]
      rfl
  | run text digits rest isText isRun ends inductionHypothesis =>
      rw [pieces_append isText isRun ends, runs_append isText isRun ends,
        inductionHypothesis]
      rfl

/-- Texts without decimal digits and digit runs take turns. -/
theorem isText_and_isRun_of_runs (name : List Char) :
    IsText (runs name).1 ∧
      ∀ run ∈ (runs name).2, IsRun run.1 ∧ IsText run.2 := by
  induction name using run_induction with
  | text text isText =>
      rw [runs_of_isText isText]
      exact ⟨isText, fun run member => absurd member List.not_mem_nil⟩
  | run text digits rest isText isRun ends inductionHypothesis =>
      rw [runs_append isText isRun ends]
      refine ⟨isText, ?_⟩
      rintro run (_ | ⟨_, member⟩)
      · exact ⟨isRun, inductionHypothesis.1⟩
      · exact inductionHypothesis.2 run member

/-! ## Readable pieces -/

/-- A piece that a key can be made of.  If all of it are digits, they are decimal
and not too many. -/
def IsReadable (piece : List Char) : Prop :=
  piece ≠ [] → (∀ c ∈ piece, isAnyDigit c = true) →
    (∀ c ∈ piece, isDecimal c = true) ∧ piece.length ≤ digitLimit

theorem isReadable_iff_of_isRun
    {digits : List Char}
    (isRun : IsRun digits) :
    IsReadable digits ↔ digits.length ≤ digitLimit := by
  have anyDigit : ∀ c ∈ digits, isAnyDigit c = true := fun c member => by
    simp [isAnyDigit, isRun.decimal c member]
  constructor
  · exact fun readable => (readable isRun.present anyDigit).2
  · exact fun few _ _ => ⟨isRun.decimal, few⟩

theorem readInteger_eq_ok_iff
    {digits : List Char}
    (isRun : IsRun digits)
    (number : Int) :
    readInteger digits = .ok number ↔
      IsReadable digits ∧ number = valueOf digits := by
  rw [isReadable_iff_of_isRun isRun,
    readInteger_of_isDecimal isRun.present isRun.decimal]
  split
  · next many => simp [Nat.not_le_of_lt many]
  · next few => simp [Nat.le_of_not_lt few, eq_comm]

theorem isReadable_iff_of_isText
    {text : List Char}
    (isText : IsText text) :
    IsReadable text ↔ (!text.isEmpty && text.all isAnyDigit) = false := by
  cases text with
  | nil => simp [IsReadable]
  | cons c rest =>
      have plain : isDecimal c = false := isText c List.mem_cons_self
      simp [IsReadable, plain]

theorem checkText_eq_ok_iff
    {text : List Char}
    (isText : IsText text)
    (kept : List Char) :
    NaturalKey.checkText text = .ok kept ↔ IsReadable text ∧ kept = text := by
  rw [isReadable_iff_of_isText isText, NaturalKey.checkText]
  cases digits : !text.isEmpty && text.all isAnyDigit with
  | true => simp [readInteger_of_not_isDecimal isText]
  | false => simp [eq_comm]

/-! ## Names and their keys -/

/-- The key of a name, whatever the number of its digits. -/
def keyOf (name : List Char) : NaturalKey :=
  ⟨(runs name).1, (runs name).2.map fun run => (valueOf run.1, run.2)⟩

/-- All pieces of a name can be read. -/
def HasKey (name : List Char) : Prop :=
  ∀ piece ∈ pieces name, IsReadable piece

theorem readTail_eq_ok_iff
    {found : List (List Char × List Char)}
    (turns : ∀ run ∈ found, IsRun run.1 ∧ IsText run.2)
    (tail : List (Nat × List Char)) :
    NaturalKey.readTail found = .ok tail ↔
      (∀ run ∈ found, IsReadable run.1 ∧ IsReadable run.2) ∧
        tail = found.map fun run => (valueOf run.1, run.2) := by
  induction found generalizing tail with
  | nil => simp [NaturalKey.readTail, eq_comm]
  | cons run rest inductionHypothesis =>
      obtain ⟨isRun, isText⟩ := turns run List.mem_cons_self
      have later := inductionHypothesis fun other member =>
        turns other (List.mem_cons_of_mem run member)
      simp only [NaturalKey.readTail, bind_eq_ok_iff,
        readInteger_eq_ok_iff isRun, checkText_eq_ok_iff isText, later,
        List.forall_mem_cons]
      constructor
      · rintro ⟨_, ⟨readRun, rfl⟩, _, ⟨readText, rfl⟩, _, ⟨readRest, rfl⟩, made⟩
        exact ⟨⟨⟨readRun, readText⟩, readRest⟩, (Except.ok.inj made).symm⟩
      · rintro ⟨⟨⟨readRun, readText⟩, readRest⟩, rfl⟩
        exact ⟨_, ⟨readRun, rfl⟩, _, ⟨readText, rfl⟩, _, ⟨readRest, rfl⟩, rfl⟩

theorem ofName_eq_ok_iff
    (name : List Char)
    (key : NaturalKey) :
    NaturalKey.ofName name = .ok key ↔ HasKey name ∧ key = keyOf name := by
  obtain ⟨isText, turns⟩ := isText_and_isRun_of_runs name
  simp only [HasKey, pieces_eq, NaturalKey.ofName, bind_eq_ok_iff,
    checkText_eq_ok_iff isText, readTail_eq_ok_iff turns, List.forall_mem_cons,
    List.forall_mem_flatMap]
  constructor
  · rintro ⟨_, ⟨readText, rfl⟩, _, ⟨readTail, rfl⟩, made⟩
    refine ⟨⟨readText, fun run member => ?_⟩, (Except.ok.inj made).symm⟩
    simpa using readTail run member
  · rintro ⟨⟨readText, readTail⟩, rfl⟩
    refine ⟨_, ⟨readText, rfl⟩, _, ⟨fun run member => ?_, rfl⟩, rfl⟩
    simpa using readTail run member

theorem withKeys_eq_ok_iff
    (names : List String)
    (keyed : List (NaturalKey × String)) :
    withKeys names = .ok keyed ↔
      (∀ name ∈ names, HasKey name.toList) ∧
        keyed = names.map fun name => (keyOf name.toList, name) := by
  induction names generalizing keyed with
  | nil => simp [withKeys, eq_comm]
  | cons name rest inductionHypothesis =>
      simp only [withKeys, bind_eq_ok_iff, ofName_eq_ok_iff,
        inductionHypothesis, List.forall_mem_cons]
      constructor
      · rintro ⟨_, ⟨first, rfl⟩, _, ⟨later, rfl⟩, made⟩
        exact ⟨⟨first, later⟩, (Except.ok.inj made).symm⟩
      · rintro ⟨⟨first, later⟩, rfl⟩
        exact ⟨_, ⟨first, rfl⟩, _, ⟨later, rfl⟩, rfl⟩

/-- A name comes before another one or has the same key. -/
def comesFirst (left right : String) : Bool :=
  !(keyOf right.toList).precedes (keyOf left.toList)

/-- Names have an order exactly if all of them have a key. -/
theorem naturalSort_eq_ok_iff (names sorted : List String) :
    naturalSort names = .ok sorted ↔
      (∀ name ∈ names, HasKey name.toList) ∧
        sorted = names.mergeSort comesFirst := by
  have withoutKeys : ((names.map fun name => (keyOf name.toList, name)).mergeSort
      fun left right => !right.1.precedes left.1).map Prod.snd =
        names.mergeSort comesFirst := by
    have kept : (names.map fun name => (keyOf name.toList, name)).map Prod.snd =
        names := by
      simp [List.map_map, Function.comp_def]
    refine (List.map_mergeSort ?_).trans (congrArg (·.mergeSort comesFirst) kept)
    simp [comesFirst]
  simp only [naturalSort, bind_eq_ok_iff, withKeys_eq_ok_iff, ← withoutKeys]
  constructor
  · rintro ⟨_, ⟨keys, rfl⟩, made⟩
    exact ⟨keys, (Except.ok.inj made).symm⟩
  · rintro ⟨keys, rfl⟩
    exact ⟨_, ⟨keys, rfl⟩, rfl⟩

/-- The stems of the files that belong to an example. -/
def exampleStems (names : List String) : List String :=
  ((names.filter isExampleFile).map stemOf).eraseDups

/-- Every stem among the names has a key. -/
def HaveKeys (names : List String) : Prop :=
  ∀ name ∈ names, isExampleFile name = true → HasKey (stemOf name).toList

theorem stems_eq_ok_iff (names found : List String) :
    stems names = .ok found ↔
      HaveKeys names ∧ found = (exampleStems names).mergeSort comesFirst := by
  rw [stems, naturalSort_eq_ok_iff]
  simp only [exampleStems, HaveKeys, List.mem_eraseDups, List.forall_mem_map,
    List.mem_filter, and_imp]

theorem exists_stems_iff (names : List String) :
    (∃ found, stems names = .ok found) ↔ HaveKeys names := by
  simp only [stems_eq_ok_iff, exists_and_left, exists_eq, and_true]

theorem exists_error_of_not_haveKeys
    {names : List String}
    (missing : ¬HaveKeys names) : ∃ error, stems names = .error error := by
  rw [← exists_stems_iff] at missing
  cases ordered : stems names with
  | error error => exact ⟨error, rfl⟩
  | ok found => exact absurd ⟨found, ordered⟩ missing

/-! ## Bundles -/

theorem outcome_generate_of_error
    {store : FileStore}
    {directory : String}
    {error : IntegerError}
    (stands : store.isDirectory (Path.plain directory) = true)
    (unordered : stems (store.fileNames (Path.plain directory)) = .error error)
    (output : Option String)
    (dialect : Dialect) :
    (generate store directory output dialect).outcome =
      .error (.badName error) := by
  simp only [generate, stands, Bool.not_true, Bool.false_eq_true, if_false,
    unordered, Except.bind, Attempt.outcome_bind, Attempt.outcome_note,
    Attempt.outcome_throw]

/-- Names have an order exactly if each stem among them has a key.  A bundle of a
directory writes its report exactly then, and otherwise a name stops it. -/
theorem generate_succeeds_iff_haveKeys
    {store : FileStore}
    {directory : String}
    {output : Option String}
    (stands : store.isDirectory (Path.plain directory) = true)
    (writable : store.IsWritable (reportPath store output))
    (dialect : Dialect) :
    (∀ names, (∃ found, stems names = .ok found) ↔ HaveKeys names) ∧
    (HaveKeys (store.fileNames (Path.plain directory)) →
      ∃ target found report saved,
        store.locateFile (reportPath store output) = .ok target ∧
        stems (store.fileNames (Path.plain directory)) = .ok found ∧
        (generate store directory output dialect).outcome =
          .ok (report, saved) ∧
        report.output = reportPath store output ∧
        store.OnlyWrites target
          (String.join (shownBlocks store directory dialect found)) saved) ∧
    (¬HaveKeys (store.fileNames (Path.plain directory)) →
      ∃ error, stems (store.fileNames (Path.plain directory)) = .error error ∧
        (generate store directory output dialect).outcome =
          .error (.badName error)) := by
  refine ⟨exists_stems_iff, ?_, ?_⟩
  · intro keys
    obtain ⟨found, ordered⟩ := (exists_stems_iff _).mpr keys
    obtain ⟨target, located⟩ := writable
    obtain ⟨saved, generated, writes⟩ :=
      outcome_generate_of_stems stands ordered located dialect
    exact ⟨target, found, _, saved, located, ordered, generated, rfl, writes⟩
  · intro missing
    obtain ⟨error, unordered⟩ := exists_error_of_not_haveKeys missing
    exact ⟨error, unordered,
      outcome_generate_of_error stands unordered output dialect⟩

/-- A directory with one file. -/
def singleExample (name : String) : FileStore where
  root := "/work"
  entries := [(["ex"], .directory), (["ex", name], .file [97])]

theorem fileNames_singleExample
    {name : String}
    (located : (singleExample name).locate (Path.plain "ex") = .ok ["ex"]) :
    (singleExample name).fileNames (Path.plain "ex") = [name] := by
  rw [FileStore.fileNames, located]
  exact List.mergeSort_singleton name

/-- A superscript behind a letter and a digit of another script do no harm. -/
theorem generate_succeeds_iff_haveKeys_mixedDigits :
    ((singleExample "a²٣.txt").isDirectory (Path.plain "ex") = true ∧
      (singleExample "a²٣.txt").IsWritable
        (reportPath (singleExample "a²٣.txt") none)) ∧
    ∃ report saved,
      (generate (singleExample "a²٣.txt") "ex" none .builtin).outcome =
        .ok (report, saved) := by
  have stands : (singleExample "a²٣.txt").isDirectory (Path.plain "ex") =
      true := by
    decide +kernel
  have writable : (singleExample "a²٣.txt").IsWritable
      (reportPath (singleExample "a²٣.txt") none) :=
    ⟨["shader_examples.txt"], by decide +kernel⟩
  refine ⟨⟨stands, writable⟩, ?_⟩
  have keys : HaveKeys
      ((singleExample "a²٣.txt").fileNames (Path.plain "ex")) := by
    rw [fileNames_singleExample (by decide +kernel)]
    rintro name (_ | ⟨_, _, _⟩) -
    have known : NaturalKey.ofName (stemOf "a²٣.txt").toList =
        .ok ⟨['a', '²'], [(3, [])]⟩ := by
      decide +kernel
    exact ((ofName_eq_ok_iff _ _).mp known).1
  obtain ⟨-, succeeds, -⟩ :=
    generate_succeeds_iff_haveKeys stands writable .builtin
  obtain ⟨-, -, report, saved, -, -, generated, -⟩ := succeeds keys
  exact ⟨report, saved, generated⟩

/-- A superscript alone stops a bundle. -/
theorem generate_badName_superscript :
    stems ["².txt"] = .error (.invalid 10 "²") ∧
      (generate (singleExample "².txt") "ex" none .builtin).outcome =
        .error (.badName (.invalid 10 "²")) := by
  have unordered : stems ["².txt"] = .error (.invalid 10 "²") := by
    decide +kernel
  refine ⟨unordered, outcome_generate_of_error (by decide +kernel) ?_ _ _⟩
  rw [fileNames_singleExample (by decide +kernel), unordered]

end Examples
end ShaderLift
