import ShaderLift.Proofs.Breaking
import ShaderLift.Proofs.MarginDefine
import ShaderLift.Proofs.MarginRenaming

/-!
# Layout does not see margins

A line with blanks at its ends is broken into the same pieces, but for blanks at
the ends of the first and the last one.  The layout trims every piece, so
formatted code depends only on the trimmed lines.  Together with the stages
before it, this makes whole conversions independent of margins.
-/

namespace ShaderLift
namespace Shader

open Text

/-! ## Blanks at the ends of a line -/

/-- Put a character behind the last of some pieces. -/
def extendLast (c : Char) : List Char → List (List Char) →
    List Char × List (List Char)
  | first, [] => (first ++ [c], [])
  | first, next :: rest =>
      (first, (extendLast c next rest).1 :: (extendLast c next rest).2)

theorem extendLast_cons
    (c d : Char)
    (first : List Char)
    (more : List (List Char)) :
    extendLast c (d :: first) more =
      (d :: (extendLast c first more).1, (extendLast c first more).2) := by
  cases more <;> rfl

theorem head?_append_blank_ne
    {c d : Char}
    (blank : isBlank c = true)
    (shown : isBlank d = false)
    {line : List Char}
    (absent : line.head? ≠ some d) :
    (line ++ [c]).head? ≠ some d := by
  cases line with
  | nil => simpa using ne_of_isBlank blank shown
  | cons e es => exact absent

theorem startsWithRemark_of_append_blank
    {c : Char}
    (blank : isBlank c = true)
    {line : List Char}
    (starts : StartsWithRemark (line ++ [c])) :
    StartsWithRemark line := by
  obtain ⟨between, remark, allBlank, equal⟩ := starts
  rcases List.eq_nil_or_concat remark with rfl | ⟨front, last, rfl⟩
  · have last : c = '/' := by simpa using congrArg List.getLast? equal
    exact absurd last (ne_of_isBlank blank (by decide))
  · have divided : line ++ [c] =
        (between ++ '/' :: '/' :: front) ++ [last] := by simpa using equal
    exact ⟨between, front, allBlank, List.append_inj_left' divided rfl⟩

/-- A blank behind a line goes behind its last piece. -/
theorem Broken.append_blank
    {c : Char}
    (blank : isBlank c = true)
    {inside left : Bool}
    {line first : List Char}
    {more : List (List Char)}
    (broken : Broken inside line first more left) :
    Broken inside (line ++ [c]) (extendLast c first more).1
      (extendLast c first more).2 left := by
  induction broken with
  | @done inside =>
      cases inside with
      | true =>
          exact .within (absurd · (ne_of_isBlank blank (by decide))) .done
      | false =>
          exact .plain ⟨ne_of_isBlank blank (by decide),
            ne_of_isBlank blank (by decide)⟩
            (absurd · (ne_of_isBlank blank (by decide))) .done
  | leave _ inductionHypothesis =>
      rw [extendLast_cons, extendLast_cons]
      exact .leave inductionHypothesis
  | within stays _ inductionHypothesis =>
      rw [extendLast_cons]
      exact .within (fun star =>
        head?_append_blank_ne blank (by decide) (stays star))
        inductionHypothesis
  | remark => exact .remark
  | enter _ inductionHypothesis =>
      rw [extendLast_cons, extendLast_cons]
      exact .enter inductionHypothesis
  | openingRemark allBlank =>
      rw [List.cons_append, List.append_assoc]
      exact .openingRemark allBlank
  | opening bare _ inductionHypothesis =>
      exact .opening (mt (startsWithRemark_of_append_blank blank) bare)
        inductionHypothesis
  | closing _ inductionHypothesis =>
      have closed := Broken.closing inductionHypothesis
      rwa [extendLast, extendLast_cons]
  | plain noBrace stays _ inductionHypothesis =>
      rw [extendLast_cons]
      exact .plain noBrace (fun slash =>
        ⟨head?_append_blank_ne blank (by decide) (stays slash).1,
          head?_append_blank_ne blank (by decide) (stays slash).2⟩)
        inductionHypothesis

/-- A blank before a line goes before its first piece. -/
theorem Broken.cons_blank
    {c : Char}
    (blank : isBlank c = true)
    {inside left : Bool}
    {line first : List Char}
    {more : List (List Char)}
    (broken : Broken inside line first more left) :
    Broken inside (c :: line) (c :: first) more left := by
  cases inside with
  | true => exact .within (absurd · (ne_of_isBlank blank (by decide))) broken
  | false =>
      exact .plain ⟨ne_of_isBlank blank (by decide),
        ne_of_isBlank blank (by decide)⟩
        (absurd · (ne_of_isBlank blank (by decide))) broken

/-! ## Trimmed pieces -/

/-- The trimmed pieces that hold text. -/
def shownPieces (broken : List (List Char)) : List (List Char) :=
  (broken.filter fun piece => !isAllBlank piece).map trim

theorem shownPieces_cons_congr
    {first second : List Char}
    {more more' : List (List Char)}
    (blank : isAllBlank first = isAllBlank second)
    (trimmed : trim first = trim second)
    (rest : shownPieces more = shownPieces more') :
    shownPieces (first :: more) = shownPieces (second :: more') := by
  unfold shownPieces at rest ⊢
  rw [List.filter_cons, List.filter_cons, blank]
  split
  · rw [List.map_cons, List.map_cons, trimmed, rest]
  · exact rest

theorem shownPieces_extendLast
    {c : Char}
    (blank : isBlank c = true)
    (first : List Char)
    (more : List (List Char)) :
    shownPieces ((extendLast c first more).1 :: (extendLast c first more).2) =
      shownPieces (first :: more) := by
  induction more generalizing first with
  | nil =>
      refine shownPieces_cons_congr ?_ (trim_append_blank ?_ first) rfl
      · simp [extendLast, isAllBlank, blank]
      · simpa using blank
  | cons next rest inductionHypothesis =>
      exact shownPieces_cons_congr rfl rfl (inductionHypothesis next)

/-- Trimmed pieces are determined by those that hold text. -/
theorem map_trim_keepText_congr
    {broken broken' : List (List Char)}
    (same : shownPieces broken = shownPieces broken') :
    (keepText broken).map trim = (keepText broken').map trim := by
  have kept : ∀ broken, (keepText broken).map trim =
      if shownPieces broken = [] then [[]] else shownPieces broken := by
    intro broken
    unfold keepText shownPieces
    generalize List.filter (fun piece => !isAllBlank piece) broken = texts
    cases texts <;> simp [trim]
  rw [kept, kept, same]

/-- Two lines are broken into pieces that are the same when trimmed. -/
def BreaksAlike (line line' : List Char) : Prop :=
  ∀ inside, (splitLine inside line).1.map trim =
      (splitLine inside line').1.map trim ∧
    (splitLine inside line).2 = (splitLine inside line').2

theorem breaksAlike_of_broken
    {line line' : List Char}
    (directive : isPreprocessor line = isPreprocessor line')
    (trimmed : trim line = trim line')
    (same : ∀ inside first' more' left, Broken inside line' first' more' left →
      ∃ first more, Broken inside line first more left ∧
        shownPieces (first :: more) = shownPieces (first' :: more')) :
    BreaksAlike line line' := by
  intro inside
  cases code : !inside && isPreprocessor line' with
  | true =>
      have whole : ∀ line, (!inside && isPreprocessor line) = true →
          splitLine inside line = ([line], inside) := by
        intro line isDirective
        rw [splitLine, if_pos isDirective]
      rw [whole line' code, whole line (by rw [directive, code])]
      exact ⟨by simp [trimmed], rfl⟩
  | false =>
      have broken' := broken_pieces inside line'
      obtain ⟨first, more, broken, shown⟩ := same _ _ _ _ broken'
      rw [splitLine_eq broken' code,
        splitLine_eq broken (by rw [directive, code])]
      exact ⟨map_trim_keepText_congr shown, rfl⟩

theorem breaksAlike_append_blank
    {c : Char}
    (blank : isBlank c = true)
    (line : List Char) :
    BreaksAlike (line ++ [c]) line := by
  refine breaksAlike_of_broken ?_ (trim_append_blank (by simpa using blank) _)
    fun inside first more left broken => ⟨_, _, broken.append_blank blank,
      shownPieces_extendLast blank first more⟩
  rw [isPreprocessor, isPreprocessor, List.dropWhile_append]
  split
  · next empty => rw [List.isEmpty_iff.mp empty]; simp [blank]
  · next shown =>
      rw [List.head?_append_of_ne_nil]
      simpa using shown

theorem breaksAlike_cons_blank
    {c : Char}
    (blank : isBlank c = true)
    (line : List Char) :
    BreaksAlike (c :: line) line := by
  have single : ∀ d ∈ [c], isBlank d = true := by simpa using blank
  refine breaksAlike_of_broken ?_ (trim_blank_append single line)
    fun inside first more left broken => ⟨_, _, broken.cons_blank blank,
      shownPieces_cons_congr ?_ (trim_blank_append single first) rfl⟩
  · simp [isPreprocessor, blank]
  · simp [isAllBlank, blank]

theorem BreaksAlike.trans
    {first second third : List Char}
    (left : BreaksAlike first second)
    (right : BreaksAlike second third) :
    BreaksAlike first third := fun inside =>
  ⟨(left inside).1.trans (right inside).1,
    (left inside).2.trans (right inside).2⟩

theorem breaksAlike_append_blanks
    {after : List Char}
    (blank : ∀ c ∈ after, isBlank c = true)
    (line : List Char) :
    BreaksAlike (line ++ after) line := by
  induction after generalizing line with
  | nil => exact fun inside => by rw [List.append_nil]; exact ⟨rfl, rfl⟩
  | cons c cs inductionHypothesis =>
      obtain ⟨first, later⟩ := List.forall_mem_cons.mp blank
      rw [List.append_cons]
      exact (inductionHypothesis later (line ++ [c])).trans
        (breaksAlike_append_blank first line)

theorem breaksAlike_blanks_append
    {before : List Char}
    (blank : ∀ c ∈ before, isBlank c = true)
    (line : List Char) :
    BreaksAlike (before ++ line) line := by
  induction before with
  | nil => exact fun inside => ⟨rfl, rfl⟩
  | cons c cs inductionHypothesis =>
      obtain ⟨first, later⟩ := List.forall_mem_cons.mp blank
      exact (breaksAlike_cons_blank first (cs ++ line)).trans
        (inductionHypothesis later)

/-- Trimming a line changes none of its trimmed pieces. -/
theorem breaksAlike_trim (line : List Char) : BreaksAlike line (trim line) := by
  obtain ⟨before, after, equal, blankBefore, blankAfter⟩ :=
    exists_blanks_of_trim line
  have whole :=
    (breaksAlike_append_blanks blankAfter (before ++ trim line)).trans
      (breaksAlike_blanks_append blankBefore (trim line))
  rwa [← equal] at whole

theorem breaksAlike_of_trim
    {line line' : List Char}
    (same : trim line = trim line') :
    BreaksAlike line line' := by
  intro inside
  obtain ⟨texts, left⟩ := breaksAlike_trim line inside
  obtain ⟨texts', left'⟩ := breaksAlike_trim line' inside
  rw [texts, left, same, ← texts', ← left']
  exact ⟨rfl, rfl⟩

/-! ## The formatter -/

theorem map_trim_splitLines
    {lines lines' : List (List Char)}
    (same : lines.map trim = lines'.map trim)
    (inside : Bool) :
    (splitLines inside lines).1.map trim =
      (splitLines inside lines').1.map trim := by
  induction lines generalizing lines' inside with
  | nil =>
      obtain rfl := List.map_eq_nil_iff.mp same.symm
      rfl
  | cons line rest inductionHypothesis =>
      cases lines' with
      | nil => contradiction
      | cons line' rest' =>
          rw [List.map_cons, List.map_cons, List.cons.injEq] at same
          obtain ⟨texts, left⟩ := breaksAlike_of_trim same.1 inside
          simp only [splitLines, List.map_append]
          rw [texts, left, inductionHypothesis same.2]

/-- Indentation starts from trimmed lines. -/
theorem indentLines_congr
    {lines lines' : List (List Char)}
    (same : lines.map trim = lines'.map trim)
    (level : Int) :
    indentLines level lines = indentLines level lines' := by
  induction lines generalizing lines' level with
  | nil =>
      obtain rfl := List.map_eq_nil_iff.mp same.symm
      rfl
  | cons line rest inductionHypothesis =>
      cases lines' with
      | nil => contradiction
      | cons line' rest' =>
          rw [List.map_cons, List.map_cons, List.cons.injEq] at same
          simp only [indentLines, indentLine, same.1,
            inductionHypothesis same.2]

/-- Formatted code depends only on the trimmed lines. -/
theorem format_congr
    {code code' : List Char}
    (same : (fields '\n' code).map trim = (fields '\n' code').map trim) :
    format code = format code' := by
  have broken : (layoutBraces code).1.map trim =
      (layoutBraces code').1.map trim :=
    map_trim_splitLines same false
  simp only [format, Formatter.formatCode, indentLines_congr broken]

/-! ## Line ends -/

/-- Put a carriage return before every line end. -/
def withCarriageReturns (text : List Char) : List Char :=
  text.flatMap fun c => if c = '\n' then ['\r', '\n'] else [c]

theorem withCarriageReturns_cons
    (c : Char)
    (rest : List Char) :
    withCarriageReturns (c :: rest) =
      (if c = '\n' then ['\r', '\n'] else [c]) ++ withCarriageReturns rest :=
  List.flatMap_cons

theorem withCarriageReturns_ne_nil
    {text : List Char}
    (present : text ≠ []) : withCarriageReturns text ≠ [] := by
  obtain ⟨c, cs, rfl⟩ := List.exists_cons_of_ne_nil present
  rw [withCarriageReturns_cons]
  split <;> simp

theorem mem_of_mem_withCarriageReturns
    {text : List Char}
    {c : Char}
    (other : c ≠ '\r')
    (member : c ∈ withCarriageReturns text) : c ∈ text := by
  obtain ⟨d, isIn, among⟩ := List.mem_flatMap.mp member
  split at among
  · next isEnd =>
      rw [isEnd] at isIn
      rcases List.mem_cons.mp among with isReturn | rest
      · exact absurd isReturn other
      · rwa [List.mem_singleton.mp rest]
  · rwa [List.mem_singleton.mp among]

/-- Carriage returns at line ends belong to margins. -/
theorem map_lineCore_withCarriageReturns (text : List Char) :
    (fields '\n' (withCarriageReturns text)).map lineCore =
      (fields '\n' text).map lineCore := by
  -- The line that is read is put before the text, so that it is known when its
  -- carriage return is reached.
  have read : ∀ line : List Char, '\n' ∉ line →
      (fields '\n' (line ++ withCarriageReturns text)).map lineCore =
        (fields '\n' (line ++ text)).map lineCore := by
    induction text with
    | nil => exact fun line _ => rfl
    | cons c cs inductionHypothesis =>
        intro line oneLine
        rw [withCarriageReturns_cons]
        by_cases isEnd : c = '\n'
        · have closed : '\n' ∉ line ++ ['\r'] := by simpa using oneLine
          have padding : IsPadding ['\r'] := by
            intro d member
            rw [List.mem_singleton.mp member]
            decide
          have tail := inductionHypothesis [] (by simp)
          rw [if_pos isEnd, isEnd, List.cons_append, List.append_cons,
            List.singleton_append, fields_append_newline closed,
            fields_append_newline oneLine, List.map_cons, List.map_cons,
            lineCore_append padding]
          exact congrArg _ tail
        · have longer : '\n' ∉ line ++ [c] := by
            simpa using ⟨oneLine, Ne.symm isEnd⟩
          rw [if_neg isEnd, ← List.append_assoc, List.append_cons line c cs]
          exact inductionHypothesis (line ++ [c]) longer
  exact read [] (by simp)

end Shader

namespace Conversion

open Shader Text

/-! ## Whole conversions -/

/-- Conversions of texts with the same lines have the same outcome. -/
theorem outcome_convertText_congr
    {first second : List Char}
    (same : SameLines first second)
    (plain : '\\' ∉ first)
    (plain' : '\\' ∉ second) :
    (convertText .builtin first).outcome =
      (convertText .builtin second).outcome := by
  have replaced : Option.Rel AlikeText
      (EntryPoint.replace? "fragColor".toList "fragCoord".toList
        (Define.strip first))
      (EntryPoint.replace? "fragColor".toList "fragCoord".toList
        (Define.strip second)) :=
    EntryPoint.alikeText_replace? isName_colour isName_coordinate
      (same.alikeText_strip plain plain')
  rw [outcome_convertText_builtin, outcome_convertText_builtin,
    same.table_eq plain plain']
  generalize EntryPoint.replace? _ _ (Define.strip first) = body at replaced ⊢
  generalize EntryPoint.replace? _ _ (Define.strip second) = body' at replaced ⊢
  cases replaced with
  | none => rfl
  | some alike =>
      have renamed := alikeText_rename alike (isName_extract second)
      rw [Option.elim_some, Option.elim_some,
        format_congr renamed.map_trim_fields]

theorem value_convert_congr
    {first second : String}
    (present : first ≠ "")
    (present' : second ≠ "")
    (plain : '\\' ∉ first.toList)
    (plain' : '\\' ∉ second.toList)
    (same : (fields '\n' first.toList).map lineCore =
      (fields '\n' second.toList).map lineCore)
    (sourceName : Option String) :
    (convert (some first) .builtin sourceName).value =
      (convert (some second) .builtin sourceName).value := by
  have outcomes := outcome_convertText_congr (sameLines_of_fields same) plain
    plain'
  rw [value_convert, value_convert, outcome_convertBody_of_ne_empty present,
    outcome_convertBody_of_ne_empty present', outcomes]

/-- Conversion with the built-in dialect does not depend on the margins of
lines: two sources without backslashes whose lines are the same but for leading
spaces and tabs and trailing spaces, tabs and carriage returns have the same
result.  So do a source and the source with carriage returns at its line
ends. -/
theorem convert_ignores_margins (sourceName : Option String) :
    (∀ first second : String, first ≠ "" → second ≠ "" →
      '\\' ∉ first.toList → '\\' ∉ second.toList →
      (fields '\n' first.toList).map lineCore =
        (fields '\n' second.toList).map lineCore →
      (convert (some first) .builtin sourceName).value =
        (convert (some second) .builtin sourceName).value) ∧
    ∀ source : String, '\\' ∉ source.toList →
      (convert (some (String.ofList (withCarriageReturns source.toList)))
          .builtin sourceName).value =
        (convert (some source) .builtin sourceName).value := by
  refine ⟨fun first second present present' plain plain' same =>
    value_convert_congr present present' plain plain' same sourceName,
    fun source plain => ?_⟩
  by_cases present : source = ""
  · subst present
    rfl
  · refine value_convert_congr ?_ present ?_ plain ?_ sourceName
    · intro empty
      have nothing := congrArg String.toList empty
      rw [String.toList_ofList] at nothing
      refine withCarriageReturns_ne_nil (fun none => present ?_) nothing
      exact String.toList_eq_nil_iff.mp none
    · rw [String.toList_ofList]
      exact fun member =>
        plain (mem_of_mem_withCarriageReturns (by decide) member)
    · rw [String.toList_ofList]
      exact map_lineCore_withCarriageReturns source.toList

/-- A source with an alias and an assignment over two lines. -/
def flushSource : String :=
  "#define t iTime\nvoid mainImage(out vec4 fragColor,\n" ++
    "in vec2 fragCoord)\n\x7b fragColor\n= vec4(t); \x7d\n"

/-- The same source with margins and carriage returns. -/
def indentedSource : String :=
  "\t#define t iTime \r\nvoid mainImage(out vec4 fragColor, \n" ++
    "  in vec2 fragCoord)\n\t\x7b fragColor\t\n = vec4(t); \x7d\r\n  \r"

theorem convert_ignores_margins_indentedSource :
    (convert (some flushSource)).value.code.isSome = true ∧
      (convert (some indentedSource)).value =
        (convert (some flushSource)).value ∧
      (convert (some (String.ofList
          (withCarriageReturns flushSource.toList)))).value =
        (convert (some flushSource)).value := by
  have plain : '\\' ∉ flushSource.toList := by decide +kernel
  refine ⟨by decide +kernel, ?_, (convert_ignores_margins none).2 _ plain⟩
  exact (convert_ignores_margins none).1 indentedSource flushSource
    (by decide +kernel) (by decide +kernel) (by decide +kernel) plain
    (by decide +kernel)

end Conversion
end ShaderLift
