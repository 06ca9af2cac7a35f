import Mathlib.Data.List.Induction
import ShaderLift.Proofs.BraceBreaks
import ShaderLift.Proofs.FormattedCode

/-!
# Braces in comments

The layout breaks a line behind an opening brace and before a closing one, and
leaves braces in comments alone.  It follows the comments of the text from line
to line, but it does not look for them on directives.  So lines are broken at
the braces outside comments as long as no directive leaves a block comment open;
behind such a directive the comment is taken for code.
-/

namespace ShaderLift
namespace Shader

open Text

/-- The first line of a text. -/
def firstLine (text : List Char) : List Char :=
  (fields '\n' text).headD []

/-- The last line of a text. -/
def lastLine (text : List Char) : List Char :=
  (fields '\n' text).getLastD []

/-- The layout breaks a line where two parts of a text meet: both parts have
text on that line, and the lines of the layout are divided there. -/
structure BreaksLine (before behind : List Char) : Prop where
  textBefore : visible (lastLine before) ≠ []
  textBehind : visible (firstLine behind) ≠ []
  divided : DividesAt (layoutBraces (before ++ behind)).1 (visible before)

/-- A text ends on the line of a directive. -/
def EndsOnDirective (text : List Char) : Prop :=
  regionAfterLines .code (fields '\n' text).dropLast = .code ∧
    isPreprocessor (lastLine text) = true

/-- No line is broken at a brace in a comment. -/
def SparesComments (code : List Char) : Prop :=
  ∀ front rest,
    (code = front ++ '{' :: rest → BreaksLine (front ++ ['{']) rest →
      regionAfter .code front = .code) ∧
    (code = front ++ '}' :: rest → BreaksLine front ('}' :: rest) →
      regionAfter .code front = .code)

/-- Lines are broken behind the opening braces and before the closing braces
that are in code and not on directives, where they have text on the other side
of the brace.  A `//` comment stays with the opening brace before it. -/
def BreaksAtCodeBraces (code : List Char) : Prop :=
  ∀ front rest,
    (code = front ++ '{' :: rest →
      (BreaksLine (front ++ ['{']) rest ↔
        regionAfter .code front = .code ∧ ¬ EndsOnDirective front ∧
          visible (firstLine rest) ≠ [] ∧
          ¬ StartsWithRemark (firstLine rest))) ∧
    (code = front ++ '}' :: rest →
      (BreaksLine front ('}' :: rest) ↔
        regionAfter .code front = .code ∧ ¬ EndsOnDirective front ∧
          visible (lastLine front) ≠ []))

/-- No directive outside comments leaves a block comment open. -/
def ClosesDirectives (lines : List (List Char)) : Prop :=
  ∀ front line, front ++ [line] <+: lines →
    regionAfterLines .code front = .code → ClosesComments line

/-- The directives are looked at one line after another. -/
theorem closesDirectives_iff (lines : List (List Char)) :
    ClosesDirectives lines ↔
      ∀ index < lines.length,
        regionAfterLines .code (lines.take index) = .code →
          ∀ line ∈ lines[index]?, ClosesComments line := by
  constructor
  · intro closed index bound inCode line found
    have next : lines.take (index + 1) = lines.take index ++ [line] := by
      rw [List.take_add_one, Option.mem_def.mp found]
      rfl
    exact closed (lines.take index) line (next ▸ List.take_prefix _ _) inCode
  · rintro closed front line ⟨rest, rfl⟩ inCode
    refine closed front.length (by simp) ?_ line ?_
    · simpa using inCode
    · simp

instance (lines : List (List Char)) : Decidable (ClosesDirectives lines) :=
  decidable_of_iff' _ (closesDirectives_iff lines)

theorem BreaksAtCodeBraces.sparesComments
    {code : List Char}
    (exact : BreaksAtCodeBraces code) : SparesComments code := by
  intro front rest
  obtain ⟨opening, closing⟩ := exact front rest
  exact ⟨fun divided breaks => ((opening divided).mp breaks).1,
    fun divided breaks => ((closing divided).mp breaks).1⟩

/-! ## Comments from line to line -/

/-- A line leads to the region that the layout goes on with, unless it is a
directive that leaves a block comment open. -/
theorem nextLine_regionAfter_splitLine
    {inside : Bool}
    {line : List Char}
    (oneLine : '\n' ∉ line)
    (directive : inside = false → ClosesComments line) :
    (regionAfter (regionOf inside) line).nextLine =
      regionOf (splitLine inside line).2 := by
  rcases splitLine_cases inside line with
    ⟨rfl, -, -⟩ | ⟨first, more, left, broken, split⟩
  · exact (regionAfter_of_splitLine oneLine (directive rfl) false).2
  · rw [split]
    exact (regionAfter_of_broken broken oneLine).2

theorem regionOf_eq_code_iff (inside : Bool) :
    regionOf inside = .code ↔ inside = false := by
  cases inside <;> simp [regionOf]

theorem splitLines_concat
    (inside : Bool)
    (front : List (List Char))
    (line : List Char) :
    (splitLines inside (front ++ [line])).2 =
      (splitLine (splitLines inside front).2 line).2 := by
  rw [splitLines_append]
  rfl

theorem regionAfterLines_concat
    (region : Region)
    (front : List (List Char))
    (line : List Char) :
    regionAfterLines region (front ++ [line]) =
      (regionAfter (regionAfterLines region front) line).nextLine := by
  rw [regionAfterLines_append, regionAfterLines_cons, regionAfterLines_nil]

theorem ClosesDirectives.of_isPrefix
    {front lines : List (List Char)}
    (closed : ClosesDirectives lines)
    (isPrefix : front <+: lines) : ClosesDirectives front :=
  fun earlier line starts => closed earlier line (starts.trans isPrefix)

theorem closesDirectives_concat_iff
    (front : List (List Char))
    (line : List Char) :
    ClosesDirectives (front ++ [line]) ↔
      ClosesDirectives front ∧
        (regionAfterLines .code front = .code → ClosesComments line) := by
  constructor
  · intro closed
    exact ⟨closed.of_isPrefix (List.prefix_append front [line]),
      closed front line (List.prefix_refl _)⟩
  · rintro ⟨closed, last⟩ earlier other starts inCode
    rcases List.prefix_concat_iff.mp starts with same | inside
    · obtain ⟨rfl, sameLine⟩ := List.append_inj' same rfl
      obtain rfl := List.singleton_inj.mp sameLine
      exact last inCode
    · exact closed earlier other inside inCode

/-- Behind directives that leave no comment open the layout is in the region of
the text. -/
theorem ClosesDirectives.regionOf_splitLines
    {lines : List (List Char)}
    (closed : ClosesDirectives lines)
    (oneLine : ∀ line ∈ lines, '\n' ∉ line) :
    regionOf (splitLines false lines).2 = regionAfterLines .code lines := by
  induction lines using List.reverseRecOn with
  | nil => rfl
  | append_singleton front line inductionHypothesis =>
      obtain ⟨earlier, last⟩ := (closesDirectives_concat_iff front line).mp closed
      have inStep := inductionHypothesis earlier fun other member =>
        oneLine other (List.mem_append_left _ member)
      rw [← inStep, regionOf_eq_code_iff] at last
      rw [splitLines_concat, regionAfterLines_concat, ← inStep]
      exact (nextLine_regionAfter_splitLine (oneLine line (by simp)) last).symm

/-- Behind the first directive that leaves a comment open the layout takes the
comment for code. -/
theorem exists_unseen_comment
    {lines : List (List Char)}
    (unclosed : ¬ ClosesDirectives lines)
    (oneLine : ∀ line ∈ lines, '\n' ∉ line) :
    ∃ taken, taken <+: lines ∧ (splitLines false taken).2 = false ∧
      regionAfterLines .code taken = .block := by
  induction lines using List.reverseRecOn with
  | nil => exact absurd (fun _ _ starts => by simp at starts) unclosed
  | append_singleton front line inductionHypothesis =>
      have oneLines : ∀ other ∈ front, '\n' ∉ other := fun other member =>
        oneLine other (List.mem_append_left _ member)
      by_cases closed : ClosesDirectives front
      · rw [closesDirectives_concat_iff, not_and, Classical.not_imp] at unclosed
        obtain ⟨inCode, isOpen⟩ := unclosed closed
        obtain ⟨isDirective, block⟩ :
            isPreprocessor line = true ∧ regionAfter .code line = .block := by
          simpa [ClosesComments] using isOpen
        have inStep := closed.regionOf_splitLines oneLines
        rw [inCode, regionOf_eq_code_iff] at inStep
        refine ⟨front ++ [line], List.prefix_refl _, ?_, ?_⟩
        · rw [splitLines_concat, inStep, splitLine,
            if_pos (by simp [isDirective])]
        · rw [regionAfterLines_concat, inCode, block]
          rfl
      · obtain ⟨taken, isPrefix, unseen⟩ := inductionHypothesis closed oneLines
        exact ⟨taken, isPrefix.trans (List.prefix_append front [line]), unseen⟩

/-! ## Places of a text -/

theorem fields_eq_concat (text : List Char) :
    fields '\n' text = (fields '\n' text).dropLast ++ [lastLine text] := by
  have empty : fields '\n' [] = [[]] := rfl
  obtain ⟨front, last, parts, -⟩ := exists_fields_append empty text
  rw [lastLine, parts, List.dropLast_concat, List.getLastD_concat]

/-- The lines of a text around one of its characters. -/
theorem exists_fields_place
    {c : Char}
    (noEnd : c ≠ '\n')
    (front rest : List Char) :
    ∃ back, fields '\n' (front ++ c :: rest) =
      (fields '\n' front).dropLast ++
        (lastLine front ++ c :: firstLine rest) :: back := by
  obtain ⟨behind, back, parts⟩ :=
    List.exists_cons_of_ne_nil (fields_ne_nil '\n' rest)
  have oneLine : '\n' ∉ [c] := by simpa using Ne.symm noEnd
  obtain ⟨lines, last, fronts, both⟩ :=
    exists_fields_append (fields_append oneLine parts) front
  refine ⟨back, ?_⟩
  rw [firstLine, lastLine, fronts, parts, List.dropLast_concat,
    List.getLastD_concat]
  exact both

theorem regionAfter_eq_lastLine (text : List Char) :
    regionAfter .code text =
      regionAfter (regionAfterLines .code (fields '\n' text).dropLast)
        (lastLine text) := by
  rw [← regionAfter_joinFields, ← fields_eq_concat, joinFields_fields]

theorem visible_eq_lastLine (text : List Char) :
    visible text =
      visible (fields '\n' text).dropLast.flatten ++ visible (lastLine text) := by
  have whole : visible text = visible (fields '\n' text).flatten := by
    rw [visible_flatten, flatMap_glyphs_fields, glyphs, map_char_glyphsFrom]
  rw [whole, ← visible_append, fields_eq_concat, List.flatten_append,
    List.dropLast_concat, List.flatten_singleton]

theorem lastLine_append
    {text : List Char}
    (oneLine : '\n' ∉ text)
    (front : List Char) : lastLine (front ++ text) = lastLine front ++ text := by
  obtain ⟨lines, last, fronts, both⟩ :=
    exists_fields_append (fields_of_not_mem oneLine) front
  rw [lastLine, lastLine, fronts, both, List.getLastD_concat,
    List.getLastD_concat]

theorem firstLine_cons
    {c : Char}
    (noEnd : c ≠ '\n')
    (rest : List Char) : firstLine (c :: rest) = c :: firstLine rest := by
  obtain ⟨line, back, parts⟩ :=
    List.exists_cons_of_ne_nil (fields_ne_nil '\n' rest)
  have oneLine : '\n' ∉ [c] := by simpa using Ne.symm noEnd
  have whole : fields '\n' (c :: rest) = (c :: line) :: back :=
    fields_append oneLine parts
  rw [firstLine, firstLine, whole, parts]
  rfl

/-- Whether a block comment is open for the layout before the last line of a
text. -/
def opensInside (text : List Char) : Bool :=
  (splitLines false (fields '\n' text).dropLast).2

section Places

variable {inside : Bool} {front rest : List Char} {c : Char}

theorem not_mem_line
    (noEnd : c ≠ '\n')
    (front rest : List Char) : '\n' ∉ lastLine front ++ c :: firstLine rest := by
  obtain ⟨back, parts⟩ := exists_fields_place noEnd front rest
  have member : lastLine front ++ c :: firstLine rest ∈
      fields '\n' (front ++ c :: rest) := by
    rw [parts]
    simp
  exact not_mem_of_mem_fields member

/-- A text is divided on the line of a character as this line is. -/
theorem dividesAt_layoutBraces
    (noEnd : c ≠ '\n')
    {next : List Char}
    (text : visible (lastLine front) ++ next ≠ [])
    (short : (visible (lastLine front) ++ next).length <
      (visible (lastLine front ++ c :: firstLine rest)).length) :
    DividesAt (layoutBraces (front ++ c :: rest)).1 (visible front ++ next) ↔
      DividesAt (splitLine (opensInside front)
        (lastLine front ++ c :: firstLine rest)).1
        (visible (lastLine front) ++ next) := by
  obtain ⟨back, parts⟩ := exists_fields_place noEnd front rest
  rw [layoutBraces, parts, visible_eq_lastLine front, List.append_assoc]
  exact dividesAt_splitLines _ back text short false

/-- The layout divides a line behind an opening brace with text behind it if it
takes the brace for one in code. -/
theorem dividesAt_opening (text : visible (firstLine rest) ≠ []) :
    DividesAt (layoutBraces (front ++ '{' :: rest)).1
        (visible front ++ ['{']) ↔
      regionAfter (regionOf (opensInside front)) (lastLine front) = .code ∧
        ¬ (opensInside front = false ∧
          isPreprocessor (lastLine front) = true) ∧
        ¬ StartsWithRemark (firstLine rest) := by
  have broken := broken_pieces (opensInside front)
    (lastLine front ++ '{' :: firstLine rest)
  have short : (visible (lastLine front) ++ ['{']).length <
      (visible (lastLine front ++ '{' :: firstLine rest)).length := by
    have positive := List.length_pos_iff.mpr text
    rw [visible_append, visible_cons (by decide)]
    simpa using positive
  rw [dividesAt_layoutBraces (by decide) (by simp) short,
    dividesAt_splitLine broken (by simp) short,
    endsAt_opening broken (not_mem_line (by decide) front rest) rfl text,
    isPreprocessor_append (Or.inl rfl)]
  exact and_left_comm

/-- The layout divides a line before a closing brace with text before it if it
takes the brace for one in code. -/
theorem dividesAt_closing (text : visible (lastLine front) ≠ []) :
    DividesAt (layoutBraces (front ++ '}' :: rest)).1 (visible front) ↔
      regionAfter (regionOf (opensInside front)) (lastLine front) = .code ∧
        ¬ (opensInside front = false ∧
          isPreprocessor (lastLine front) = true) := by
  have broken := broken_pieces (opensInside front)
    (lastLine front ++ '}' :: firstLine rest)
  have short : (visible (lastLine front)).length <
      (visible (lastLine front ++ '}' :: firstLine rest)).length := by
    rw [visible_append, visible_cons (by decide)]
    simp
  rw [← List.append_nil (visible front),
    dividesAt_layoutBraces (by decide) (by simpa using text) (by simpa using short),
    List.append_nil, dividesAt_splitLine broken text short,
    endsAt_closing broken (not_mem_line (by decide) front rest) rfl,
    isPreprocessor_append (Or.inr rfl)]
  exact and_comm

end Places

/-! ## The layout -/

/-- Where no directive before it leaves a block comment open, a place is in code
and on a directive if the layout takes it so. -/
theorem place_of_closesDirectives
    {front : List Char}
    (closed : ClosesDirectives (fields '\n' front).dropLast) :
    (regionAfter (regionOf (opensInside front)) (lastLine front) =
        regionAfter .code front) ∧
      (opensInside front = false ∧ isPreprocessor (lastLine front) = true ↔
        EndsOnDirective front) := by
  have inStep : regionOf (opensInside front) =
      regionAfterLines .code (fields '\n' front).dropLast :=
    closed.regionOf_splitLines fun line member =>
      not_mem_of_mem_fields (List.dropLast_subset _ member)
  constructor
  · rw [inStep, ← regionAfter_eq_lastLine]
  · rw [EndsOnDirective, ← inStep, regionOf_eq_code_iff]

theorem isPrefix_dropLast_fields
    {c : Char}
    (noEnd : c ≠ '\n')
    (front rest : List Char) :
    (fields '\n' front).dropLast <+: (fields '\n' (front ++ c :: rest)).dropLast := by
  obtain ⟨back, parts⟩ := exists_fields_place noEnd front rest
  rw [parts, List.dropLast_append_cons]
  exact List.prefix_append _ _

/-- If no directive before the last line leaves a block comment open, lines are
broken at the braces in code. -/
theorem breaksAtCodeBraces_of_closesDirectives
    {code : List Char}
    (closed : ClosesDirectives (fields '\n' code).dropLast) :
    BreaksAtCodeBraces code := by
  intro front rest
  constructor
  · rintro rfl
    obtain ⟨region, directive⟩ := place_of_closesDirectives
      (closed.of_isPrefix (isPrefix_dropLast_fields (by decide) front rest))
    have shown : visible (front ++ ['{']) = visible front ++ ['{'] :=
      visible_append front ['{']
    rw [← region, ← directive]
    constructor
    · rintro ⟨-, text, divided⟩
      rw [shown, List.append_assoc] at divided
      obtain ⟨inCode, noDirective, bare⟩ := (dividesAt_opening text).mp divided
      exact ⟨inCode, noDirective, text, bare⟩
    · rintro ⟨inCode, noDirective, text, bare⟩
      refine ⟨?_, text, ?_⟩
      · rw [lastLine_append (by decide), visible_append]
        exact List.append_ne_nil_of_right_ne_nil _ (by decide)
      · rw [shown, List.append_assoc]
        exact (dividesAt_opening text).mpr ⟨inCode, noDirective, bare⟩
  · rintro rfl
    obtain ⟨region, directive⟩ := place_of_closesDirectives
      (closed.of_isPrefix (isPrefix_dropLast_fields (by decide) front rest))
    rw [← region, ← directive]
    constructor
    · rintro ⟨text, -, divided⟩
      obtain ⟨inCode, noDirective⟩ := (dividesAt_closing text).mp divided
      exact ⟨inCode, noDirective, text⟩
    · rintro ⟨inCode, noDirective, text⟩
      refine ⟨text, ?_, (dividesAt_closing text).mpr ⟨inCode, noDirective⟩⟩
      rw [firstLine_cons (by decide), visible_cons (by decide)]
      exact List.cons_ne_nil _ _

theorem joinFields_concat_append
    (front : List (List Char))
    (line more : List Char) :
    joinFields ['\n'] (front ++ [line ++ more]) =
      joinFields ['\n'] (front ++ [line]) ++ more := by
  induction front with
  | nil => rfl
  | cons first rest inductionHypothesis =>
      rw [List.cons_append, List.cons_append, joinFields_cons first (by simp),
        joinFields_cons first (by simp), inductionHypothesis]
      simp

/-- Behind lines that end in a comment unseen by the layout, a line is broken at
a brace in the comment. -/
theorem not_sparesComments_of_unseen
    {taken : List (List Char)}
    (oneLine : ∀ line ∈ taken, '\n' ∉ line)
    (unseen : (splitLines false taken).2 = false)
    (block : regionAfterLines .code taken = .block) :
    ¬ SparesComments (joinFields ['\n'] (taken ++ [['a', '}']])) := by
  let front := joinFields ['\n'] (taken ++ [['a']])
  have parts : fields '\n' front = taken ++ [['a']] := by
    apply fields_joinFields (by simp)
    simpa [or_imp, forall_and] using oneLine
  have last : lastLine front = ['a'] := by
    rw [lastLine, parts, List.getLastD_concat]
  have taken_eq : (fields '\n' front).dropLast = taken := by
    rw [parts, List.dropLast_concat]
  have inBlock : regionAfter .code front = .block := by
    rw [regionAfter_eq_lastLine, last, taken_eq, block]
    rfl
  have breaks : BreaksLine front ['}'] := by
    have text : visible (lastLine front) ≠ [] := by
      rw [last]
      decide
    refine ⟨text, by decide, (dividesAt_closing text).mpr ?_⟩
    rw [last, opensInside, taken_eq, unseen]
    decide
  intro spares
  have inCode := (spares front []).2
    (joinFields_concat_append taken ['a'] ['}']) breaks
  rw [inBlock] at inCode
  contradiction

/-- No directive before the last line leaves a block comment open exactly if no
line is broken at a brace in a comment, even if the text is cut off behind one
of its lines and ended by another line.  Then lines are broken at the braces
outside comments and directives, and nowhere else at a brace. -/
theorem layoutBraces_spares_comments (code : List Char) :
    (ClosesDirectives (fields '\n' code).dropLast ↔
      ∀ taken last, taken <+: (fields '\n' code).dropLast → '\n' ∉ last →
        SparesComments (joinFields ['\n'] (taken ++ [last]))) ∧
    (ClosesDirectives (fields '\n' code).dropLast →
      SparesComments code ∧ BreaksAtCodeBraces code) := by
  have oneLine : ∀ line ∈ (fields '\n' code).dropLast, '\n' ∉ line :=
    fun line member => not_mem_of_mem_fields (List.dropLast_subset _ member)
  refine ⟨⟨fun closed taken last isPrefix ended => ?_, fun spares => ?_⟩,
    fun closed => ?_⟩
  · have parts : fields '\n' (joinFields ['\n'] (taken ++ [last])) =
        taken ++ [last] := by
      refine fields_joinFields (by simp) fun line member => ?_
      rcases List.mem_append.mp member with early | isLast
      · exact oneLine line (isPrefix.subset early)
      · rwa [List.mem_singleton.mp isLast]
    apply (breaksAtCodeBraces_of_closesDirectives _).sparesComments
    rw [parts, List.dropLast_concat]
    exact closed.of_isPrefix isPrefix
  · by_contra unclosed
    obtain ⟨taken, isPrefix, unseen, block⟩ :=
      exists_unseen_comment unclosed oneLine
    exact not_sparesComments_of_unseen
      (fun line member => oneLine line (isPrefix.subset member)) unseen block
      (spares taken ['a', '}'] isPrefix (by decide))
  · have breaks := breaksAtCodeBraces_of_closesDirectives closed
    exact ⟨breaks.sparesComments, breaks⟩

/-- A directive with a brace and a whole comment, and a block comment whose
lines look like a directive and a `//` comment. -/
def closedDirectives : List Char :=
  ("#define OPEN \x7b /* \x7d */\n" ++
    "if (a) \x7b b; /* \x7b c\n" ++
    "# /* \x7d d\n" ++
    "// e */ \x7d f;").toList

theorem layoutBraces_spares_comments_closedDirectives :
    ClosesDirectives (fields '\n' closedDirectives).dropLast ∧
      SparesComments closedDirectives ∧
      BreaksAtCodeBraces closedDirectives := by
  have closed : ClosesDirectives (fields '\n' closedDirectives).dropLast := by
    decide +kernel
  exact ⟨closed, (layoutBraces_spares_comments closedDirectives).2 closed⟩

/-- A directive that leaves a block comment open. -/
def openedDirective : List Char :=
  "#define A /*\na \x7d b */".toList

theorem not_sparesComments_openedDirective :
    (layoutBraces openedDirective).1.map String.ofList =
        ["#define A /*", "a ", "\x7d b */"] ∧
      ¬ SparesComments openedDirective := by
  have lines : (layoutBraces openedDirective).1.map String.ofList =
      ["#define A /*", "a ", "\x7d b */"] := by
    decide +kernel
  refine ⟨lines, fun spares => ?_⟩
  have breaks : BreaksLine "#define A /*\na ".toList "\x7d b */".toList := by
    refine ⟨by decide +kernel, by decide +kernel,
      ["#define A /*".toList, "a ".toList], ?_, by decide +kernel⟩
    decide +kernel
  have inCode := (spares "#define A /*\na ".toList " b */".toList).2
    (by decide +kernel) breaks
  exact absurd inCode (by decide +kernel)

end Shader
end ShaderLift
