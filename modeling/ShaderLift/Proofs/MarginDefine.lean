import Mathlib.Data.List.DropRight
import ShaderLift.Proofs.Margin
import ShaderLift.Proofs.Tokens

/-!
# Directives and margins

The parts of a directive are read one after another, and no reader takes blanks
at the end of its text.  So a directive means the same whatever the margins of
its line are.  Without backslashes every directive is one line, and taking the
directives out of two texts that are the same but for margins leaves two such
texts.
-/

namespace ShaderLift
namespace Shader

open Text Name

namespace Define

/-! ## Readers -/

/-- A reader leaves blanks at the end of its text over. -/
def LeavesBlanks (read : List Char → Option (α × List Char)) : Prop :=
  ∀ text blanks, (∀ c ∈ blanks, isBlank c = true) →
    read (text ++ blanks) =
      (read text).map fun (taken, rest) => (taken, rest ++ blanks)

/-- Read behind an exact text. -/
def behindExact
    (wanted : List Char)
    (read : List Char → Option (α × List Char)) :
    List Char → Option (α × List Char) :=
  fun text => (dropExact wanted text).bind read

/-- Read behind spaces and tabs, if there are any. -/
def behindIndent (read : List Char → Option (α × List Char)) :
    List Char → Option (α × List Char) :=
  fun text => read (text.dropWhile isSpaceOrTab)

/-- Read behind spaces and tabs, of which there must be one. -/
def behindGap (read : List Char → Option (α × List Char)) :
    List Char → Option (α × List Char) :=
  fun text => (dropGap text).bind read

namespace LeavesBlanks

variable {read : List Char → Option (α × List Char)}

/-- A reader that needs some text finds none in blanks. -/
theorem eq_none
    (leaves : LeavesBlanks read)
    (nothing : read [] = none)
    {blanks : List Char}
    (blank : ∀ c ∈ blanks, isBlank c = true) :
    read blanks = none := by
  have found := leaves [] blanks blank
  rwa [nothing, List.nil_append] at found

theorem behindExact
    (leaves : LeavesBlanks read)
    {wanted : List Char}
    (shown : ∀ c ∈ wanted, isBlank c = false) :
    LeavesBlanks (behindExact wanted read) := by
  intro text blanks blank
  induction wanted generalizing text with
  | nil => exact leaves text blanks blank
  | cons c cs inductionHypothesis =>
      obtain ⟨firstShown, restShown⟩ := List.forall_mem_cons.mp shown
      cases text with
      | nil =>
          cases blanks with
          | nil => rfl
          | cons d ds =>
              have other : c ≠ d :=
                Ne.symm (ne_of_isBlank (blank d List.mem_cons_self) firstShown)
              simp [Define.behindExact, dropExact, other]
      | cons d ds =>
          by_cases same : c = d
          · have tail := inductionHypothesis restShown ds
            simpa [Define.behindExact, dropExact, same] using tail
          · simp [Define.behindExact, dropExact, same]

theorem behindIndent
    (leaves : LeavesBlanks read)
    (nothing : read [] = none) :
    LeavesBlanks (behindIndent read) := by
  intro text blanks blank
  rw [Define.behindIndent, Define.behindIndent, List.dropWhile_append]
  split
  · next empty =>
      rw [List.isEmpty_iff.mp empty, nothing, leaves.eq_none nothing
        fun c member => blank c (List.dropWhile_subset _ member)]
      rfl
  · exact leaves _ blanks blank

theorem behindGap
    (leaves : LeavesBlanks read)
    (nothing : read [] = none) :
    LeavesBlanks (behindGap read) := by
  have skips := leaves.behindIndent nothing
  have spaced : ∀ text, Define.behindGap read text =
      if text.head?.any isSpaceOrTab then Define.behindIndent read text
      else none := by
    intro text
    cases text with
    | nil => rfl
    | cons c cs =>
        cases space : isSpaceOrTab c <;>
          simp [Define.behindGap, Define.behindIndent, dropGap, space]
  intro text blanks blank
  rw [spaced, spaced]
  cases text with
  | nil =>
      rw [List.nil_append, skips.eq_none nothing blank, ite_self]
      rfl
  | cons c cs =>
      rw [skips (c :: cs) blanks blank, List.cons_append, List.head?_cons,
        List.head?_cons]
      split <;> rfl

end LeavesBlanks

theorem word_append_blanks
    {blanks : List Char}
    (blank : ∀ c ∈ blanks, isBlank c = true)
    (text : List Char) :
    (text ++ blanks).takeWhile isWord = text.takeWhile isWord ∧
      (text ++ blanks).dropWhile isWord = text.dropWhile isWord ++ blanks := by
  induction text with
  | nil =>
      exact word_of_blank fun c isHead => blank c (List.mem_of_head? isHead)
  | cons c cs inductionHypothesis =>
      cases isLetter : isWord c with
      | true => simpa [isLetter] using inductionHypothesis
      | false => simp [isLetter]

theorem leavesBlanks_takeName : LeavesBlanks takeName := by
  intro text blanks blank
  cases text with
  | nil =>
      cases blanks with
      | nil => rfl
      | cons c cs =>
          simp [takeName, isNameStart_of_isBlank (blank c List.mem_cons_self)]
  | cons c cs =>
      obtain ⟨taken, left⟩ := word_append_blanks blank cs
      rw [List.cons_append, takeName, takeName, taken, left]
      split <;> rfl

theorem leavesBlanks_takeMember : LeavesBlanks takeMember := by
  intro text blanks blank
  cases text with
  | nil =>
      rw [List.nil_append, (takeMember_eq_none_iff blanks).mpr]
      · rfl
      · rintro c rest rfl
        exact absurd (blank '.' List.mem_cons_self) (by decide)
  | cons c cs =>
      by_cases dot : c = '.'
      · subst dot
        exact leavesBlanks_takeName cs blanks blank
      · simp [takeMember, dot]

/-- A name and what follows it, with the member that it selects. -/
def withMember (base rest : List Char) : List Char × List Char :=
  match takeMember rest with
  | none => (base, rest)
  | some (member, left) => (base ++ '.' :: member, left)

theorem takeReference_eq (text : List Char) :
    takeReference text =
      (takeName text).map fun taken => withMember taken.1 taken.2 := by
  rw [takeReference]
  cases takeName text with
  | none => rfl
  | some taken =>
      obtain ⟨base, rest⟩ := taken
      cases rest with
      | nil => rfl
      | cons c cs =>
          by_cases dot : c = '.'
          · subst dot
            cases found : takeName cs <;> simp [withMember, takeMember, found]
          · simp [withMember, takeMember, dot]

theorem leavesBlanks_takeReference : LeavesBlanks takeReference := by
  intro text blanks blank
  rw [takeReference_eq, takeReference_eq,
    leavesBlanks_takeName text blanks blank]
  cases takeName text with
  | none => rfl
  | some taken =>
      simp only [Option.map_some, Option.some.injEq, withMember]
      rw [leavesBlanks_takeMember taken.2 blanks blank]
      cases takeMember taken.2 <;> rfl

/-! ## Directives -/

/-- The text is one comment that reaches the end of the line. -/
def isClosingComment : List Char → Bool
  | '/' :: '/' :: remark => !remark.contains '\n'
  | '/' :: '*' :: remark =>
      !remark.contains '\n' &&
        ['*', '/'].isSuffixOf (dropTrailing isPadding remark)
  | _ => false

theorem isEnding_eq (text : List Char) :
    isEnding text =
      (text.all isPadding || isClosingComment (text.dropWhile isSpaceOrTab)) :=
  rfl

/-- A mark of two characters that closing text does not hold stands before
it. -/
theorem exists_of_mark
    {c d : Char}
    {text closing behind : List Char}
    (noFirst : ∀ e ∈ closing, e ≠ c)
    (noSecond : ∀ e ∈ closing, e ≠ d)
    (equal : text ++ closing = c :: d :: behind) :
    ∃ rest, text = c :: d :: rest := by
  cases text with
  | nil =>
      rw [List.nil_append] at equal
      exact absurd rfl (noFirst c (by simp [equal]))
  | cons e es =>
      rw [List.cons_append, List.cons.injEq] at equal
      obtain ⟨rfl, equal⟩ := equal
      cases es with
      | nil =>
          rw [List.nil_append] at equal
          exact absurd rfl (noSecond d (by simp [equal]))
      | cons f fs =>
          rw [List.cons_append, List.cons.injEq] at equal
          exact ⟨fs, by rw [equal.1]⟩

theorem isClosingComment_append
    {closing : List Char}
    (padding : IsPadding closing)
    (text : List Char) :
    isClosingComment (text ++ closing) = isClosingComment text := by
  have other : ∀ c ∈ closing, c ≠ '/' ∧ c ≠ '*' := fun c member =>
    ⟨ne_of_isBlank (padding.blank c member) (by decide),
      ne_of_isBlank (padding.blank c member) (by decide)⟩
  have oneLine : ∀ remark : List Char,
      (remark ++ closing).contains '\n' = remark.contains '\n' := by
    intro remark
    simp [padding.oneLine]
  fun_cases isClosingComment text with
  | case1 remark =>
      rw [List.cons_append, List.cons_append, isClosingComment, oneLine]
  | case2 remark =>
      rw [List.cons_append, List.cons_append, isClosingComment, oneLine,
        dropTrailing_append padding]
  | case3 text noRemark noBlock =>
      rw [isClosingComment]
      · intro remark equal
        obtain ⟨rest, opened⟩ := exists_of_mark (fun c member =>
          (other c member).1) (fun c member => (other c member).1) equal
        exact noRemark rest opened
      · intro remark equal
        obtain ⟨rest, opened⟩ := exists_of_mark (fun c member =>
          (other c member).1) (fun c member => (other c member).2) equal
        exact noBlock rest opened

theorem isEnding_append
    {closing : List Char}
    (padding : IsPadding closing)
    (text : List Char) :
    isEnding (text ++ closing) = isEnding text := by
  have all : closing.all isPadding = true := List.all_eq_true.mpr padding
  rw [isEnding_eq, isEnding_eq, List.all_append, all, Bool.and_true,
    List.dropWhile_append]
  congr 1
  split
  · next empty =>
      have rest : IsPadding (closing.dropWhile isSpaceOrTab) :=
        fun c member => padding c (List.dropWhile_subset _ member)
      rw [List.isEmpty_iff.mp empty]
      exact isClosingComment_append rest []
  · exact isClosingComment_append padding _

/-- The reader of the name that a directive defines. -/
def readName : List Char → Option (List Char × List Char) :=
  behindIndent (behindExact keyword (behindGap takeName))

theorem ofDirective?_eq (directive : List Char) :
    ofDirective? directive =
      (readName directive).bind fun named =>
        (behindGap takeReference named.2).bind fun valued =>
          if isEnding valued.2 then
            some ⟨String.ofList named.1, String.ofList valued.1⟩
          else none := by
  rw [ofDirective?, readName, behindIndent, behindExact, Option.bind_assoc]
  congr 1
  funext rest
  rw [behindGap, Option.bind_assoc]
  congr 1
  funext rest
  congr 1
  funext named
  rw [behindGap, Option.bind_assoc]
  rfl

theorem isBlank_keyword : ∀ c ∈ keyword, isBlank c = false := by
  have shown : keyword.all (fun c => !isBlank c) = true := by decide
  simpa using shown

theorem ofDirective?_append
    {closing : List Char}
    (padding : IsPadding closing)
    (directive : List Char) :
    ofDirective? (directive ++ closing) = ofDirective? directive := by
  have names : LeavesBlanks readName :=
    ((leavesBlanks_takeName.behindGap rfl).behindExact
      isBlank_keyword).behindIndent rfl
  have values : LeavesBlanks (behindGap takeReference) :=
    leavesBlanks_takeReference.behindGap rfl
  rw [ofDirective?_eq, ofDirective?_eq, names directive closing padding.blank]
  cases readName directive with
  | none => rfl
  | some named =>
      simp only [Option.map_some, Option.bind_some]
      rw [values named.2 closing padding.blank]
      cases behindGap takeReference named.2 with
      | none => rfl
      | some valued =>
          simp only [Option.map_some, Option.bind_some,
            isEnding_append padding]

/-- The reader of the word that opens a directive. -/
def readKeyword : List Char → Option (Unit × List Char) :=
  behindIndent (behindExact keyword fun rest => some ((), rest))

theorem isDefineLine_eq (line : List Char) :
    isDefineLine line =
      (readKeyword line).any fun opened => !opened.2.head?.any isWord := by
  rw [isDefineLine, readKeyword, behindIndent, behindExact]
  cases dropExact keyword (line.dropWhile isSpaceOrTab) <;> rfl

theorem isDefineLine_append
    {blanks : List Char}
    (blank : ∀ c ∈ blanks, isBlank c = true)
    (line : List Char) :
    isDefineLine (line ++ blanks) = isDefineLine line := by
  have plain : LeavesBlanks fun rest => some ((), rest) := fun _ _ _ => rfl
  have words : LeavesBlanks readKeyword :=
    (plain.behindExact isBlank_keyword).behindIndent rfl
  rw [isDefineLine_eq, isDefineLine_eq, words line blanks blank]
  cases readKeyword line with
  | none => rfl
  | some opened =>
      obtain ⟨-, rest⟩ := opened
      cases rest with
      | nil =>
          cases blanks with
          | nil => rfl
          | cons c cs => simp [isWord_of_isBlank (blank c List.mem_cons_self)]
      | cons c cs => rfl

/-- What ignores both margins of a line may be asked of its core. -/
theorem apply_lineCore
    {ask : List Char → β}
    (indents : ∀ line, ask (line.dropWhile isSpaceOrTab) = ask line)
    (pads : ∀ closing, IsPadding closing →
      ∀ line, ask (line ++ closing) = ask line)
    (line : List Char) :
    ask (lineCore line) = ask line := by
  obtain ⟨closing, equal, padding⟩ := exists_dropped_of_dropTrailing
    isPadding (line.dropWhile isSpaceOrTab)
  calc
    ask (lineCore line)
      = ask (lineCore line ++ closing) := (pads closing padding _).symm
    _ = ask (line.dropWhile isSpaceOrTab) := by rw [lineCore, ← equal]
    _ = ask line := indents line

theorem isDefineLine_lineCore (line : List Char) :
    isDefineLine (lineCore line) = isDefineLine line := by
  refine apply_lineCore (fun line => ?_)
    (fun closing padding => isDefineLine_append padding.blank) line
  rw [isDefineLine, isDefineLine, List.dropWhile_idempotent]

theorem ofDirective?_lineCore (line : List Char) :
    ofDirective? (lineCore line) = ofDirective? line := by
  refine apply_lineCore (fun line => ?_)
    (fun closing padding => ofDirective?_append padding) line
  rw [ofDirective?, ofDirective?, List.dropWhile_idempotent]

/-! ## Directives of one line -/

theorem isContinued_of_not_mem
    {line : List Char}
    (plain : '\\' ∉ line) : isContinued line = false := by
  have noSuffix : ∀ ending : List Char, '\\' ∈ ending →
      ending.isSuffixOf line = false := by
    intro ending member
    rw [← Bool.not_eq_true, List.isSuffixOf_iff_suffix]
    exact fun isSuffix => plain (isSuffix.subset member)
  rw [isContinued, noSuffix _ (by simp), noSuffix _ (by simp), Bool.or_false]

theorem closedLines_append_newline
    {line : List Char}
    (oneLine : '\n' ∉ line)
    (rest : List Char) :
    closedLines (line ++ '\n' :: rest) =
      (line ++ ['\n']) :: closedLines rest := by
  induction line with
  | nil => rw [List.nil_append, closedLines, if_pos rfl, List.nil_append]
  | cons c cs inductionHypothesis =>
      rw [List.mem_cons, not_or] at oneLine
      rw [List.cons_append, closedLines, if_neg (Ne.symm oneLine.1),
        inductionHypothesis oneLine.2, List.cons_append]

theorem closedLines_of_not_mem
    {line : List Char}
    (oneLine : '\n' ∉ line)
    (nonempty : line ≠ []) :
    closedLines line = [line] := by
  induction line with
  | nil => contradiction
  | cons c cs inductionHypothesis =>
      rw [List.mem_cons, not_or] at oneLine
      rw [closedLines, if_neg (Ne.symm oneLine.1)]
      cases cs with
      | nil => rfl
      | cons d ds =>
          rw [inductionHypothesis oneLine.2 (List.cons_ne_nil d ds)]

theorem dropTrailing_newline_of_not_mem
    {line : List Char}
    (oneLine : '\n' ∉ line) :
    dropTrailing (· == '\n') line = line := by
  obtain ⟨dropped, equal, all⟩ :=
    exists_dropped_of_dropTrailing (· == '\n') line
  cases dropped with
  | nil => rw [List.append_nil] at equal; exact equal.symm
  | cons c cs =>
      have isEnd : c = '\n' := by simpa using all c List.mem_cons_self
      exact absurd (by rw [equal, isEnd]; simp) oneLine

section Line

variable {line : List Char}

/-- A line without a backslash is a part of its own. -/
theorem parts_append_newline
    (oneLine : '\n' ∉ line)
    (plain : '\\' ∉ line)
    (rest : List Char) :
    parts (line ++ '\n' :: rest) =
      (if isDefineLine line then .directive (line ++ ['\n'])
        else .line (line ++ ['\n'])) :: parts rest := by
  have ended : '\\' ∉ line ++ ['\n'] := by simpa using plain
  rw [parts, closedLines_append_newline oneLine, partsOfLines,
    isContinued_of_not_mem ended, isDefineLine_append (by simp)]
  cases isDefineLine line <;> rfl

theorem parts_of_not_mem
    (oneLine : '\n' ∉ line)
    (plain : '\\' ∉ line)
    (nonempty : line ≠ []) :
    parts line =
      [if isDefineLine line then .directive line else .line line] := by
  rw [parts, closedLines_of_not_mem oneLine nonempty, partsOfLines,
    isContinued_of_not_mem plain]
  cases isDefineLine line <;> rfl

theorem strip_append_newline
    (oneLine : '\n' ∉ line)
    (plain : '\\' ∉ line)
    (rest : List Char) :
    strip (line ++ '\n' :: rest) =
      if isDefineLine line then strip rest else line ++ '\n' :: strip rest := by
  rw [strip, parts_append_newline oneLine plain, strip]
  cases isDefineLine line with
  | true => exact congrArg List.flatten (List.filterMap_cons_none rfl)
  | false => simp [List.filterMap_cons_some, Part.line?]

theorem strip_of_not_mem
    (oneLine : '\n' ∉ line)
    (plain : '\\' ∉ line) : strip line = if isDefineLine line then [] else line := by
  by_cases nonempty : line = []
  · rw [nonempty]
    rfl
  · rw [strip, parts_of_not_mem oneLine plain nonempty]
    cases isDefineLine line <;> simp [Part.line?]

theorem directives_append_newline
    (oneLine : '\n' ∉ line)
    (plain : '\\' ∉ line)
    (rest : List Char) :
    directives (line ++ '\n' :: rest) =
      if isDefineLine line then line :: directives rest
      else directives rest := by
  have ended : dropTrailing (· == '\n') (line ++ ['\n']) = line := by
    rw [dropTrailing_append (by simp), dropTrailing_newline_of_not_mem oneLine]
  rw [directives, parts_append_newline oneLine plain, directives]
  cases isDefineLine line with
  | true => simp [List.filterMap_cons_some, Part.directive?, ended]
  | false => exact congrArg (List.map _) (List.filterMap_cons_none rfl)

theorem directives_of_not_mem
    (oneLine : '\n' ∉ line)
    (plain : '\\' ∉ line) :
    directives line = if isDefineLine line then [line] else [] := by
  by_cases nonempty : line = []
  · rw [nonempty]
    rfl
  · rw [directives, parts_of_not_mem oneLine plain nonempty]
    cases isDefineLine line <;>
      simp [Part.directive?, dropTrailing_newline_of_not_mem oneLine]

end Line

/-! ## Two texts -/

/-- The aliases that are recorded depend only on what the directives say. -/
theorem value_record_congr
    {directives directives' : List (List Char)}
    (same : directives.map ofDirective? = directives'.map ofDirective?)
    (table : Table) :
    (record table directives).value = (record table directives').value := by
  induction directives generalizing directives' table with
  | nil =>
      obtain rfl := List.map_eq_nil_iff.mp same.symm
      rfl
  | cons directive rest inductionHypothesis =>
      cases directives' with
      | nil => contradiction
      | cons directive' rest' =>
          rw [List.map_cons, List.map_cons, List.cons.injEq] at same
          rw [value_record_cons, value_record_cons, same.1,
            inductionHypothesis same.2]

end Define

/-- Two texts have the same lines but for their margins. -/
inductive SameLines : List Char → List Char → Prop
  | last {line line' : List Char}
      (oneLine : '\n' ∉ line)
      (oneLine' : '\n' ∉ line')
      (same : lineCore line = lineCore line') :
      SameLines line line'
  | more {line line' rest rest' : List Char}
      (oneLine : '\n' ∉ line)
      (oneLine' : '\n' ∉ line')
      (same : lineCore line = lineCore line')
      (tail : SameLines rest rest') :
      SameLines (line ++ '\n' :: rest) (line' ++ '\n' :: rest')

theorem sameLines_joinFields
    {lines lines' : List (List Char)}
    (oneLine : ∀ line ∈ lines, '\n' ∉ line)
    (oneLine' : ∀ line ∈ lines', '\n' ∉ line)
    (same : lines.map lineCore = lines'.map lineCore) :
    SameLines (joinFields ['\n'] lines) (joinFields ['\n'] lines') := by
  induction lines generalizing lines' with
  | nil =>
      obtain rfl := List.map_eq_nil_iff.mp same.symm
      exact .last (by simp [joinFields]) (by simp [joinFields]) rfl
  | cons line rest inductionHypothesis =>
      cases lines' with
      | nil => contradiction
      | cons line' rest' =>
          rw [List.map_cons, List.map_cons, List.cons.injEq] at same
          obtain ⟨first, later⟩ := List.forall_mem_cons.mp oneLine
          obtain ⟨first', later'⟩ := List.forall_mem_cons.mp oneLine'
          by_cases single : rest = []
          · subst single
            obtain rfl := List.map_eq_nil_iff.mp same.2.symm
            exact .last first first' same.1
          · have single' : rest' ≠ [] := by
              rintro rfl
              exact single (List.map_eq_nil_iff.mp same.2)
            rw [joinFields_cons line single, joinFields_cons line' single']
            exact .more first first' same.1
              (inductionHypothesis later later' same.2)

theorem sameLines_of_fields
    {first second : List Char}
    (same : (fields '\n' first).map lineCore =
      (fields '\n' second).map lineCore) :
    SameLines first second := by
  have joined := sameLines_joinFields (fun _ => not_mem_of_mem_fields)
    (fun _ => not_mem_of_mem_fields) same
  rwa [joinFields_fields, joinFields_fields] at joined

namespace SameLines

variable {first second : List Char}

theorem isDefineLine_eq
    {line line' : List Char}
    (same : lineCore line = lineCore line') :
    Define.isDefineLine line = Define.isDefineLine line' := by
  rw [← Define.isDefineLine_lineCore, same, Define.isDefineLine_lineCore]

theorem ofDirective?_eq
    {line line' : List Char}
    (same : lineCore line = lineCore line') :
    Define.ofDirective? line = Define.ofDirective? line' := by
  rw [← Define.ofDirective?_lineCore, same, Define.ofDirective?_lineCore]

/-- The directives of both texts say the same. -/
theorem map_ofDirective?
    (same : SameLines first second)
    (plain : '\\' ∉ first)
    (plain' : '\\' ∉ second) :
    (Define.directives first).map Define.ofDirective? =
      (Define.directives second).map Define.ofDirective? := by
  induction same with
  | last oneLine oneLine' same =>
      rw [Define.directives_of_not_mem oneLine plain,
        Define.directives_of_not_mem oneLine' plain', isDefineLine_eq same]
      split
      · rw [List.map_singleton, List.map_singleton, ofDirective?_eq same]
      · rfl
  | more oneLine oneLine' same _ inductionHypothesis =>
      simp only [List.mem_append, List.mem_cons, not_or] at plain plain'
      rw [Define.directives_append_newline oneLine plain.1,
        Define.directives_append_newline oneLine' plain'.1,
        isDefineLine_eq same]
      have tail := inductionHypothesis plain.2.2 plain'.2.2
      split
      · rw [List.map_cons, List.map_cons, ofDirective?_eq same, tail]
      · exact tail

/-- The same aliases are recorded. -/
theorem table_eq
    (same : SameLines first second)
    (plain : '\\' ∉ first)
    (plain' : '\\' ∉ second) :
    (Define.extract first).value.1 = (Define.extract second).value.1 :=
  Define.value_record_congr (same.map_ofDirective? plain plain') []

/-- The texts without their directives are alike. -/
theorem alikeText_strip
    (same : SameLines first second)
    (plain : '\\' ∉ first)
    (plain' : '\\' ∉ second) :
    AlikeText (Define.strip first) (Define.strip second) := by
  induction same with
  | @last line line' oneLine oneLine' same =>
      rw [Define.strip_of_not_mem oneLine plain,
        Define.strip_of_not_mem oneLine' plain', isDefineLine_eq same]
      split
      · exact .intro isIndent_nil isIndent_nil
          (.done isPadding_nil isPadding_nil)
      · obtain ⟨opening, closing, equal, indent, padding⟩ :=
          exists_margins_of_lineCore line
        obtain ⟨opening', closing', equal', indent', padding'⟩ :=
          exists_margins_of_lineCore line'
        rw [equal, equal', same]
        exact .intro indent indent'
          ((Alike.done padding padding').append_left _)
  | @more line line' _ _ oneLine oneLine' same _ inductionHypothesis =>
      simp only [List.mem_append, List.mem_cons, not_or] at plain plain'
      rw [Define.strip_append_newline oneLine plain.1,
        Define.strip_append_newline oneLine' plain'.1, isDefineLine_eq same]
      have tail := inductionHypothesis plain.2.2 plain'.2.2
      split
      · exact tail
      · obtain ⟨opening, closing, equal, indent, padding⟩ :=
          exists_margins_of_lineCore line
        obtain ⟨opening', closing', equal', indent', padding'⟩ :=
          exists_margins_of_lineCore line'
        generalize Define.strip _ = rest at tail ⊢
        generalize Define.strip _ = rest' at tail ⊢
        obtain ⟨inner, inner', alike⟩ := tail
        rw [equal, equal', same]
        simp only [List.append_assoc]
        exact .intro indent indent'
          ((Alike.line padding padding' inner inner' alike).append_left _)

end SameLines

end Shader
end ShaderLift
