import ShaderLift.Proofs.FormattedCode

/-!
# The layout of braces

In code without comments and directives, a piece of a line has at most one
closing brace, at its start, and at most one opening brace, at its end.  So the
two tests that the indenter makes on a piece count its braces, and the level of
a line is the number of braces that the lines above it leave open.  Blank lines
have no braces, hence none of this changes when they go.
-/

namespace ShaderLift
namespace Shader

open Text

/-- No comment starts in the text. -/
def IsCommentFree (text : List Char) : Prop :=
  ¬ ['/', '/'] <:+: text ∧ ¬ ['/', '*'] <:+: text

/-- A closing brace can only be the first character and an opening brace only
the last one. -/
structure IsBraced (text : List Char) : Prop where
  closing : '}' ∉ text.tail
  opening : '{' ∉ text.dropLast

/-- How many more braces a text opens than it closes. -/
def balance (text : List Char) : Int :=
  text.count '{' - text.count '}'

/-- The layout of code without comments and directives. -/
structure IsLaidOut (text : List Char) : Prop where
  /-- An opening brace is the last character of its line. -/
  opening : ∀ line ∈ fields '\n' text, ∀ before after,
    line = before ++ '{' :: after → after = []
  /-- A closing brace is the first character of its line but for spaces. -/
  closing : ∀ line ∈ fields '\n' text, ∀ before after,
    line = before ++ '}' :: after → ∀ c ∈ before, c = ' '
  /-- A line with text is indented by four spaces for every brace that the lines
  above it leave open, where a brace that closes at its start counts too. -/
  indented : ∀ above line below, fields '\n' text = above ++ line :: below →
    isAllBlank line = false → ∃ c rest, isBlank c = false ∧
      line = List.replicate (4 * (balance above.flatten -
        if c = '}' then 1 else 0).toNat) ' ' ++ c :: rest
  /-- No line ends in a blank. -/
  lineEnds : ∀ line ∈ fields '\n' text, ∀ c ∈ line.getLast?, isBlank c = false
  /-- No two empty lines follow each other. -/
  compact : ¬ ['\n', '\n', '\n'] <:+: text
  /-- The text does not start with a blank. -/
  starts : ∀ c ∈ text.head?, isBlank c = false
  /-- The text does not end in a blank. -/
  ends : ∀ c ∈ text.getLast?, isBlank c = false

/-! ## Pieces -/

theorem IsCommentFree.of_isInfix
    {part text : List Char}
    (bare : IsCommentFree text)
    (isPart : part <:+: text) : IsCommentFree part :=
  ⟨fun marked => bare.1 (marked.trans isPart),
    fun marked => bare.2 (marked.trans isPart)⟩

theorem isBraced_of_not_mem
    {piece : List Char}
    (noClosing : '}' ∉ piece)
    (opening : '{' ∉ piece.dropLast) : IsBraced piece :=
  ⟨fun member => noClosing (List.mem_of_mem_tail member), opening⟩

/-- The pieces of a line without comments are braced, and the first one has no
closing brace. -/
theorem isBraced_of_broken
    {line first : List Char}
    {more : List (List Char)}
    {left : Bool}
    (broken : Broken false line first more left)
    (bare : IsCommentFree line) :
    left = false ∧ '}' ∉ first ∧ '{' ∉ first.dropLast ∧
      ∀ piece ∈ more, IsBraced piece := by
  -- Outside comments and without their marks, only braces end a piece.
  generalize outside : false = inside at broken
  induction broken with
  | done => simp
  | leave => contradiction
  | within => contradiction
  | remark => exact absurd (List.prefix_append _ _).isInfix bare.1
  | enter => exact absurd (List.prefix_append _ _).isInfix bare.2
  | @openingRemark between line _ =>
      exact absurd ⟨'{' :: between, line, by simp⟩ bare.1
  | @opening line first more left _ _ inductionHypothesis =>
      obtain ⟨closed, noClosing, opening, others⟩ :=
        inductionHypothesis (bare.of_isInfix (List.suffix_cons _ _).isInfix) rfl
      refine ⟨closed, by simp, by simp, List.forall_mem_cons.mpr ⟨?_, others⟩⟩
      exact isBraced_of_not_mem noClosing opening
  | @closing line first more left _ inductionHypothesis =>
      obtain ⟨closed, noClosing, opening, others⟩ :=
        inductionHypothesis (bare.of_isInfix (List.suffix_cons _ _).isInfix) rfl
      refine ⟨closed, by simp, by simp, List.forall_mem_cons.mpr ⟨?_, others⟩⟩
      refine ⟨noClosing, fun member => opening ?_⟩
      cases first with
      | nil => simp at member
      | cons d ds => simpa using member
  | @plain c line first more left noBrace _ _ inductionHypothesis =>
      obtain ⟨closed, noClosing, opening, others⟩ :=
        inductionHypothesis (bare.of_isInfix (List.suffix_cons _ _).isInfix) rfl
      refine ⟨closed, ?_, ?_, others⟩
      · simpa [Ne.symm noBrace.2] using noClosing
      · cases first with
        | nil => simp
        | cons d ds => simpa [Ne.symm noBrace.1] using opening

theorem isBraced_of_splitLine
    {line : List Char}
    (bare : IsCommentFree line)
    (code : isPreprocessor line = false) :
    (splitLine false line).2 = false ∧
      ∀ piece ∈ (splitLine false line).1, IsBraced piece := by
  have broken := broken_pieces false line
  obtain ⟨closed, noClosing, opening, others⟩ := isBraced_of_broken broken bare
  rw [splitLine_eq broken (by simp [code])]
  refine ⟨closed, fun piece kept => ?_⟩
  rcases mem_keepText kept with rfl | isPiece
  · exact ⟨by simp, by simp⟩
  · rcases List.mem_cons.mp isPiece with rfl | later
    · exact isBraced_of_not_mem noClosing opening
    · exact others piece later

theorem isBraced_of_splitLines
    {lines : List (List Char)}
    (bare : ∀ line ∈ lines, IsCommentFree line)
    (code : ∀ line ∈ lines, isPreprocessor line = false) :
    ∀ piece ∈ (splitLines false lines).1, IsBraced piece := by
  induction lines with
  | nil => simp [splitLines]
  | cons line rest inductionHypothesis =>
      obtain ⟨bareFirst, bareLater⟩ := List.forall_mem_cons.mp bare
      obtain ⟨codeFirst, codeLater⟩ := List.forall_mem_cons.mp code
      obtain ⟨closed, braced⟩ := isBraced_of_splitLine bareFirst codeFirst
      rw [fst_splitLines_cons, closed]
      exact List.forall_mem_append.mpr
        ⟨braced, inductionHypothesis bareLater codeLater⟩

/-- A part of a braced text is braced. -/
theorem IsBraced.of_isInfix
    {part text : List Char}
    (braced : IsBraced text)
    (isPart : part <:+: text) : IsBraced part := by
  obtain ⟨front, back, rfl⟩ := isPart
  constructor
  · intro member
    refine braced.closing ?_
    cases front with
    | nil =>
        rw [List.nil_append, List.tail_append_of_ne_nil (by
          rintro rfl; simp at member)]
        exact List.mem_append_left back member
    | cons c cs =>
        rw [List.cons_append, List.cons_append, List.tail_cons]
        simp [List.mem_of_mem_tail member]
  · intro member
    refine braced.opening ?_
    cases back with
    | nil =>
        rw [List.append_nil, List.dropLast_append_of_ne_nil (by
          rintro rfl; simp at member)]
        exact List.mem_append_right front member
    | cons c cs =>
        rw [List.dropLast_append_of_ne_nil (List.cons_ne_nil c cs)]
        simp [List.dropLast_subset part member]

/-! ## Levels -/

theorem balance_append (first second : List Char) :
    balance (first ++ second) = balance first + balance second := by
  simp only [balance, List.count_append]
  omega

theorem balance_of_blank
    {text : List Char}
    (blank : ∀ c ∈ text, isBlank c = true) : balance text = 0 := by
  have none : ∀ brace, isBlank brace = false → text.count brace = 0 :=
    fun brace shown => List.count_eq_zero.mpr fun member =>
      ne_of_isBlank (blank brace member) shown rfl
  rw [balance, none '{' (by decide), none '}' (by decide)]
  rfl

theorem balance_trim (line : List Char) : balance (trim line) = balance line := by
  obtain ⟨before, after, divided, blankBefore, blankAfter⟩ :=
    exists_blanks_of_trim line
  have parts := congrArg balance divided
  rw [balance_append, balance_append, balance_of_blank blankBefore,
    balance_of_blank blankAfter] at parts
  omega

theorem levelOf_cons
    {c : Char}
    {rest : List Char}
    (braced : IsBraced (c :: rest))
    (level : Int) :
    levelOf level (c :: rest) = level - if c = '}' then 1 else 0 := by
  have later : '}' ∉ rest := braced.closing
  by_cases brace : c = '}'
  · simp [levelOf, brace]
  · simp [levelOf, brace, later, Ne.symm brace]

theorem levelOf_eq
    {text : List Char}
    (braced : IsBraced text)
    (level : Int) : levelOf level text = level - text.count '}' := by
  cases text with
  | nil => simp [levelOf]
  | cons c rest =>
      have later : rest.count '}' = 0 := List.count_eq_zero.mpr braced.closing
      rw [levelOf_cons braced, List.count_cons, later]
      split <;> simp_all

theorem count_opening
    {text : List Char}
    (braced : IsBraced text) :
    text.count '{' = if text.contains '{' then 1 else 0 := by
  rcases List.eq_nil_or_concat text with rfl | ⟨front, last, whole⟩
  · rfl
  · rw [List.concat_eq_append] at whole
    subst whole
    have earlier : '{' ∉ front := by simpa using braced.opening
    have none : front.count '{' = 0 := List.count_eq_zero.mpr earlier
    by_cases brace : last = '{'
    · simp [List.count_append, none, brace]
    · simp [List.count_append, none, brace, earlier, Ne.symm brace]

/-- Behind a braced text the level has changed by its balance: it has at most one
brace of each kind, so that to find one is to count them. -/
theorem levelAfter_eq
    {text : List Char}
    (braced : IsBraced text)
    (level : Int) : levelAfter level text = level + balance text := by
  rw [levelAfter, levelOf_eq braced, balance, count_opening braced]
  split <;> simp <;> omega

/-- The level at which a line stands is what the lines above it leave open. -/
theorem IsIndented.indentLine_eq
    {level : Int}
    {above below : List (List Char)}
    {line : List Char}
    (indented : IsIndented level (above ++ line :: below))
    (braced : ∀ other ∈ above, IsBraced (trim other)) :
    (indentLine (level + balance above.flatten) line).1 = line := by
  induction above generalizing level with
  | nil => simpa [balance] using (isIndented_cons.mp indented).1
  | cons first rest inductionHypothesis =>
      obtain ⟨bracedFirst, bracedLater⟩ := List.forall_mem_cons.mp braced
      have later := (isIndented_cons.mp indented).2
      have passed : (indentLine level first).2 = level + balance first := by
        rw [indentLine, levelAfter_eq bracedFirst, balance_trim]
      rw [passed] at later
      rw [List.flatten_cons, balance_append, ← Int.add_assoc]
      exact inductionHypothesis later bracedLater

/-! ## Formatted code -/

theorem map_trim_indentLines
    (level : Int)
    (lines : List (List Char)) :
    (indentLines level lines).1.map trim = lines.map trim := by
  induction lines generalizing level with
  | nil => rfl
  | cons line rest inductionHypothesis =>
      rw [fst_indentLines_cons, List.map_cons, List.map_cons, trim_indentLine,
        inductionHypothesis]

theorem Thinned.forall_mem
    {lines kept : List (List Char)}
    (thinned : Thinned lines kept)
    {holds : List Char → Prop}
    (empty : holds [])
    (all : ∀ line ∈ lines, holds line) : ∀ line ∈ kept, holds line := by
  induction thinned with
  | nil => exact all
  | keep _ inductionHypothesis =>
      obtain ⟨first, later⟩ := List.forall_mem_cons.mp all
      exact List.forall_mem_cons.mpr ⟨first, inductionHypothesis later⟩
  | clear _ _ inductionHypothesis =>
      obtain ⟨-, later⟩ := List.forall_mem_cons.mp all
      exact List.forall_mem_cons.mpr ⟨empty, inductionHypothesis later⟩
  | drop _ _ inductionHypothesis =>
      exact inductionHypothesis (List.forall_mem_cons.mp all).2

theorem isInfix_joinFields
    {lines : List (List Char)}
    {line : List Char}
    (member : line ∈ lines) : line <:+: joinFields ['\n'] lines := by
  induction lines with
  | nil => exact nomatch member
  | cons first rest inductionHypothesis =>
      by_cases single : rest = []
      · subst single
        obtain rfl := List.mem_singleton.mp member
        exact List.infix_refl line
      · rw [joinFields_cons first single]
        rcases List.mem_cons.mp member with rfl | later
        · exact (List.prefix_append line _).isInfix
        · exact (inductionHypothesis later).trans
            ⟨first ++ ['\n'], [], by simp⟩

/-- A line of a text is a part of the text. -/
theorem isInfix_of_mem_fields
    {text line : List Char}
    (member : line ∈ fields '\n' text) : line <:+: text := by
  rw [← joinFields_fields '\n' text]
  exact isInfix_joinFields member

theorem isBraced_trim_of_mem_format
    {code : List Char}
    (bare : IsCommentFree code)
    (noDirective : ∀ line ∈ fields '\n' code, isPreprocessor line = false) :
    ∀ line ∈ fields '\n' (format code), IsBraced (trim line) := by
  have pieces : ∀ piece ∈ (layoutBraces code).1, IsBraced piece :=
    isBraced_of_splitLines
      (fun line member => bare.of_isInfix (isInfix_of_mem_fields member))
      noDirective
  refine (thinned_format code).forall_mem ⟨by decide, by decide⟩ ?_
  intro line member
  have trimmed : trim line ∈ (indentLines 0 (layoutBraces code).1).1.map trim :=
    List.mem_map.mpr ⟨line, member, rfl⟩
  rw [map_trim_indentLines] at trimmed
  obtain ⟨piece, isPiece, same⟩ := List.mem_map.mp trimmed
  obtain ⟨before, after, divided, -⟩ := exists_blanks_of_trim piece
  rw [← same]
  exact (pieces piece isPiece).of_isInfix ⟨before, after, divided.symm⟩

theorem head?_trim (text : List Char) :
    ∀ c ∈ (trim text).head?, isBlank c = false := by
  intro c first
  obtain ⟨dropped, divided, -⟩ :=
    exists_dropped_of_dropTrailing isBlank (text.dropWhile isBlank)
  obtain ⟨rest, starts⟩ := List.head?_eq_some_iff.mp first
  have shown := List.head?_dropWhile_not isBlank text
  rw [divided, ← trim, starts] at shown
  simpa using shown

/-- A line that stands at its level is indented by spaces. -/
theorem exists_spaces_of_indentLine
    {level : Int}
    {line : List Char}
    (stands : (indentLine level line).1 = line) :
    ∃ n, line = List.replicate n ' ' ++ trim line := by
  simp only [indentLine] at stands
  split at stands
  · exact ⟨0, by rw [← stands]; rfl⟩
  · exact ⟨_, stands.symm⟩

theorem exists_text_of_indentLine
    {level : Int}
    {line : List Char}
    (stands : (indentLine level line).1 = line)
    (braced : IsBraced (trim line))
    (text : isAllBlank line = false) :
    ∃ c rest, isBlank c = false ∧
      line = List.replicate (4 * (level - if c = '}' then 1 else 0).toNat) ' ' ++
        c :: rest := by
  cases trimmed : trim line with
  | nil =>
      rw [isAllBlank_iff.mpr trimmed] at text
      contradiction
  | cons c rest =>
      refine ⟨c, rest, head?_trim line c (by simp [trimmed]), ?_⟩
      rw [trimmed] at braced
      simp only [indentLine, trimmed] at stands
      rw [if_neg (by simp), indentation, levelOf_cons braced] at stands
      exact stands.symm

/-- An opening brace ends an indented line. -/
theorem IsBraced.eq_nil_of_opening
    {text before after : List Char}
    (braced : IsBraced text)
    {n : Nat}
    (divided : List.replicate n ' ' ++ text = before ++ '{' :: after) :
    after = [] := by
  cases after with
  | nil => rfl
  | cons c cs =>
      have early : '{' ∈ (List.replicate n ' ' ++ text).dropLast := by
        rw [divided, List.dropLast_append_of_ne_nil (List.cons_ne_nil _ _)]
        simp
      have noSpace : '{' ∉ List.replicate n ' ' := fun member =>
        absurd (List.eq_of_mem_replicate member) (by decide)
      by_cases empty : text = []
      · rw [empty, List.append_nil] at early
        exact absurd (List.dropLast_subset _ early) noSpace
      · rw [List.dropLast_append_of_ne_nil empty] at early
        rcases List.mem_append.mp early with space | inText
        · exact absurd space noSpace
        · exact absurd inText braced.opening

/-- Only spaces stand before a closing brace of an indented line. -/
theorem IsBraced.eq_space_of_closing
    {text before after : List Char}
    (braced : IsBraced text)
    {n : Nat}
    (divided : List.replicate n ' ' ++ text = before ++ '}' :: after) :
    ∀ c ∈ before, c = ' ' := by
  intro c member
  rcases List.append_eq_append_iff.mp divided with
    ⟨passed, rfl, inText⟩ | ⟨passed, spaces, -⟩
  · cases passed with
    | nil => exact List.eq_of_mem_replicate (by simpa using member)
    | cons d ds => exact absurd (by simp [inText]) braced.closing
  · have space : c ∈ List.replicate n ' ' := by
      rw [spaces]
      exact List.mem_append_left passed member
    exact List.eq_of_mem_replicate space

theorem IsCompact.not_isInfix
    {text : List Char}
    (compact : IsCompact text) : ¬ ['\n', '\n', '\n'] <:+: text := by
  rintro ⟨before, after, rfl⟩
  have ends := compact ('\n' :: '\n' :: after) ⟨before, by simp⟩
  rw [leadingLineEnds_newline, leadingLineEnds_newline] at ends
  omega

/-- Formatted code is laid out, if the code has no comments and no
directives. -/
theorem isLaidOut_format
    (code : List Char)
    (noRemark : ¬ ['/', '/'] <:+: code)
    (noBlock : ¬ ['/', '*'] <:+: code)
    (noDirective : ∀ line ∈ fields '\n' code,
      (line.dropWhile isBlank).head? ≠ some '#') :
    IsLaidOut (format code) := by
  have braced := isBraced_trim_of_mem_format ⟨noRemark, noBlock⟩
    fun line member => by simpa [isPreprocessor] using noDirective line member
  have indented := isIndented_format code
  have stand : ∀ line ∈ fields '\n' (format code),
      ∃ n, line = List.replicate n ' ' ++ trim line := by
    intro line member
    obtain ⟨level, stands⟩ := indented.exists_level member
    exact exists_spaces_of_indentLine stands
  constructor
  case opening =>
    intro line member before after divided
    obtain ⟨n, spaced⟩ := stand line member
    exact (braced line member).eq_nil_of_opening (spaced.symm.trans divided)
  case closing =>
    intro line member before after divided
    obtain ⟨n, spaced⟩ := stand line member
    exact (braced line member).eq_space_of_closing (spaced.symm.trans divided)
  case indented =>
    intro above line below divided text
    rw [divided] at indented braced
    have stands := indented.indentLine_eq fun other member =>
      braced other (List.mem_append_left _ member)
    rw [Int.zero_add] at stands
    exact exists_text_of_indentLine stands (braced line (by simp)) text
  case lineEnds =>
    intro line member
    obtain ⟨level, stands⟩ := indented.exists_level member
    rw [← stands]
    exact getLast?_indentLine level line
  case compact => exact (isCompact_format code).not_isInfix
  case starts => exact head?_trim _
  case ends => exact getLast?_dropTrailing isBlank _

/-- Stray braces, several of them on a line, wide blanks, and a `#` behind an
opening brace. -/
def strayBraces : List Char :=
  ("a \x7bb\x7bc;\x7d\n\n \u2003\n\n\x7d\x7d\x7d else \x7b\r\n" ++
    "\td \x7b\x7b\x7b # e").toList

theorem isLaidOut_format_strayBraces :
    ¬ ['/', '/'] <:+: strayBraces ∧ ¬ ['/', '*'] <:+: strayBraces ∧
      (∀ line ∈ fields '\n' strayBraces,
        (line.dropWhile isBlank).head? ≠ some '#') ∧
      IsLaidOut (format strayBraces) := by
  have noRemark : ¬ ['/', '/'] <:+: strayBraces := by decide +kernel
  have noBlock : ¬ ['/', '*'] <:+: strayBraces := by decide +kernel
  have noDirective : ∀ line ∈ fields '\n' strayBraces,
      (line.dropWhile isBlank).head? ≠ some '#' := by decide +kernel
  exact ⟨noRemark, noBlock, noDirective,
    isLaidOut_format strayBraces noRemark noBlock noDirective⟩

end Shader
end ShaderLift
