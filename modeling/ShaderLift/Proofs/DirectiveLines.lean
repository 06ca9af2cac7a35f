import ShaderLift.Proofs.MarginDefine

/-!
# The lines of directives

Which lines of a source belong to directives is said line by line: a line opens a
directive, or it continues one because the line before it belongs to it and ends
in a backslash.  The lines outside are what is left of the source, and there is
no directive among them.
-/

namespace ShaderLift
namespace Shader
namespace Define

open Text

/-- The line starts with spaces and tabs and the word `#define`, which no word
character follows. -/
def OpensDirective (line : List Char) : Prop :=
  ∃ indent rest, line = indent ++ keyword ++ rest ∧ IsIndent indent ∧
    Name.EndsWord rest

/-- The line ends in a backslash before its line end. -/
def EndsInBackslash (line : List Char) : Prop :=
  ['\\', '\n'] <:+ line ∨ ['\\', '\r', '\n'] <:+ line

/-- The line with this number continues a directive: the line before it ends in
a backslash, and it opens a directive or continues one itself. -/
def IsContinuation (lines : List (List Char)) : Nat → Prop
  | 0 => False
  | number + 1 =>
      ∃ line ∈ lines[number]?, EndsInBackslash line ∧
        (OpensDirective line ∨ IsContinuation lines number)

/-- The line with this number opens a directive, outside all others. -/
def IsOpening (lines : List (List Char)) (number : Nat) : Prop :=
  ¬ IsContinuation lines number ∧ ∃ line ∈ lines[number]?, OpensDirective line

/-! ## Lines on their own -/

/-- The keyword is found behind spaces and tabs. -/
theorem dropWhile_indent_keyword
    {indent : List Char}
    (isIndent : IsIndent indent)
    (rest : List Char) :
    (indent ++ keyword ++ rest).dropWhile isSpaceOrTab = keyword ++ rest := by
  rw [List.append_assoc, List.dropWhile_append_of_pos isIndent]
  rfl

theorem isDefineLine_iff (line : List Char) :
    isDefineLine line = true ↔ OpensDirective line := by
  constructor
  · intro opens
    rw [isDefineLine] at opens
    split at opens
    · contradiction
    · next rest found =>
        refine ⟨line.takeWhile isSpaceOrTab, rest, ?_, ?_,
          by simpa [Name.EndsWord] using opens⟩
        · rw [List.append_assoc, ← (dropExact_eq_some_iff _ _ _).mp found,
            List.takeWhile_append_dropWhile]
        · exact fun c member => List.mem_takeWhile_imp member
  · rintro ⟨indent, rest, rfl, isIndent, ends⟩
    rw [isDefineLine, dropWhile_indent_keyword isIndent,
      (dropExact_eq_some_iff keyword _ rest).mpr rfl]
    simpa [Name.EndsWord] using ends

theorem isContinued_iff (line : List Char) :
    isContinued line = true ↔ EndsInBackslash line := by
  rw [isContinued, Bool.or_eq_true, List.isSuffixOf_iff_suffix,
    List.isSuffixOf_iff_suffix, EndsInBackslash]

instance (line : List Char) : Decidable (OpensDirective line) :=
  decidable_of_iff _ (isDefineLine_iff line)

instance (line : List Char) : Decidable (EndsInBackslash line) :=
  decidable_of_iff _ (isContinued_iff line)

instance decidableIsContinuation (lines : List (List Char)) :
    (number : Nat) → Decidable (IsContinuation lines number)
  | 0 => isFalse id
  | number + 1 =>
      have := decidableIsContinuation lines number
      inferInstanceAs (Decidable (∃ line ∈ lines[number]?, _ ∧ _))

instance (lines : List (List Char)) (number : Nat) :
    Decidable (IsOpening lines number) :=
  inferInstanceAs (Decidable (_ ∧ ∃ line ∈ lines[number]?, _))

/-- The lines that neither open nor continue a directive, in order. -/
def linesOutside (lines : List (List Char)) : List (List Char) :=
  (lines.zipIdx.filter fun numbered =>
    ¬ IsOpening lines numbered.2 ∧ ¬ IsContinuation lines numbered.2).map Prod.fst

/-! ## Sorting lines -/

/-- The lines outside directives, where a directive may be open at first. -/
def skipDirectives : Bool → List (List Char) → List (List Char)
  | _, [] => []
  | inside, line :: rest =>
      if inside || isDefineLine line then skipDirectives (isContinued line) rest
      else line :: skipDirectives false rest

theorem filterMap_partsOfLines
    (begun : Option (List Char))
    (lines : List (List Char)) :
    (partsOfLines begun lines).filterMap Part.line? =
      skipDirectives begun.isSome lines := by
  fun_induction partsOfLines begun lines with
  | case1 => rfl
  | case2 begun => rfl
  | case3 line rest opens goesOn inductionHypothesis =>
      rw [inductionHypothesis, skipDirectives, opens, goesOn]
      rfl
  | case4 line rest opens ends inductionHypothesis =>
      rw [skipDirectives, opens, eq_false_of_ne_true ends]
      exact inductionHypothesis
  | case5 line rest other inductionHypothesis =>
      rw [skipDirectives, eq_false_of_ne_true other]
      exact congrArg (line :: ·) inductionHypothesis
  | case6 begun line rest goesOn inductionHypothesis =>
      rw [inductionHypothesis, skipDirectives, goesOn]
      rfl
  | case7 begun line rest ends inductionHypothesis =>
      rw [skipDirectives, eq_false_of_ne_true ends]
      exact inductionHypothesis

section Below

variable {above rest : List (List Char)} {line : List Char} {inside : Bool}

theorem isContinuation_succ
    (continued : inside = true ↔
      IsContinuation (above ++ line :: rest) above.length) :
    IsContinuation (above ++ line :: rest) (above.length + 1) ↔
      isContinued line = true ∧ (inside || isDefineLine line) = true := by
  rw [IsContinuation, isContinued_iff, Bool.or_comm, Bool.or_eq_true,
    isDefineLine_iff, continued]
  simp

theorem isOutside_iff
    (continued : inside = true ↔
      IsContinuation (above ++ line :: rest) above.length) :
    (¬ IsOpening (above ++ line :: rest) above.length ∧
      ¬ IsContinuation (above ++ line :: rest) above.length) ↔
      (inside || isDefineLine line) = false := by
  have opens : IsOpening (above ++ line :: rest) above.length ↔
      ¬ inside = true ∧ isDefineLine line = true := by
    rw [IsOpening, ← continued, isDefineLine_iff]
    simp
  rw [opens, ← continued]
  cases inside <;> simp

/-- What is skipped below some lines is what opens or continues a directive
there. -/
theorem skipDirectives_eq
    (above below : List (List Char))
    {inside : Bool}
    (continued : inside = true ↔ IsContinuation (above ++ below) above.length) :
    skipDirectives inside below =
      ((below.zipIdx above.length).filter fun numbered =>
        ¬ IsOpening (above ++ below) numbered.2 ∧
          ¬ IsContinuation (above ++ below) numbered.2).map Prod.fst := by
  induction below generalizing above inside with
  | nil => rfl
  | cons line rest inductionHypothesis =>
      -- The line goes to the lines above, where the numbers count on.
      have next := isContinuation_succ continued
      have outside := isOutside_iff continued
      have later := fun goesOn =>
        @inductionHypothesis (above ++ [line]) goesOn
      simp only [List.append_assoc, List.singleton_append, List.length_append,
        List.length_singleton, next] at later
      rw [List.zipIdx_cons, List.filter_cons, skipDirectives]
      cases skipped : inside || isDefineLine line with
      | true =>
          rw [if_pos rfl, if_neg (by
            rw [decide_eq_true_eq, outside, skipped]; simp)]
          exact later _ (by simp [skipped])
      | false =>
          rw [if_neg (by simp), if_pos (decide_eq_true (outside.mpr skipped))]
          exact congrArg (line :: ·) (later false (by simp [skipped]))

end Below

theorem skipDirectives_eq_linesOutside (lines : List (List Char)) :
    skipDirectives false lines = linesOutside lines :=
  skipDirectives_eq [] lines (by simp [IsContinuation])

/-! ## Lines of a text -/

/-- A line of a text: a line end can only be its last character. -/
def IsLine (line : List Char) : Prop :=
  ∃ front, '\n' ∉ front ∧ (line = front ++ ['\n'] ∨ line = front ∧ front ≠ [])

theorem isLine_closedLines (text : List Char) :
    ∀ line ∈ closedLines text, IsLine line := by
  induction text with
  | nil => simp [closedLines]
  | cons c cs inductionHypothesis =>
      rw [closedLines]
      split
      · exact List.forall_mem_cons.mpr
          ⟨⟨[], List.not_mem_nil, Or.inl rfl⟩, inductionHypothesis⟩
      · next inLine =>
          split
          · refine List.forall_mem_singleton.mpr ⟨[c], ?_, Or.inr ⟨rfl, by simp⟩⟩
            simpa using Ne.symm inLine
          · next line rest lines =>
              rw [lines] at inductionHypothesis
              obtain ⟨⟨front, oneLine, ending⟩, others⟩ :=
                List.forall_mem_cons.mp inductionHypothesis
              refine List.forall_mem_cons.mpr ⟨⟨c :: front, ?_, ?_⟩, others⟩
              · simpa [Ne.symm inLine] using oneLine
              · rcases ending with rfl | ⟨rfl, -⟩
                · exact Or.inl rfl
                · exact Or.inr ⟨rfl, List.cons_ne_nil c _⟩

/-- Lines of which only the last one may lack its end are the lines of their
text. -/
theorem closedLines_flatten
    {lines : List (List Char)}
    (closed : Name.Closed lines)
    (areLines : ∀ line ∈ lines, IsLine line) :
    closedLines lines.flatten = lines := by
  induction lines with
  | nil => rfl
  | cons line rest inductionHypothesis =>
      obtain ⟨first, others⟩ := List.pairwise_cons.mp closed
      obtain ⟨⟨front, oneLine, ending⟩, areLater⟩ :=
        List.forall_mem_cons.mp areLines
      have later := inductionHypothesis others areLater
      rw [List.flatten_cons]
      rcases ending with rfl | ⟨rfl, present⟩
      · rw [List.append_assoc, List.singleton_append,
          closedLines_append_newline oneLine, later]
      · cases rest with
        | nil =>
            rw [List.flatten_nil, List.append_nil,
              closedLines_of_not_mem oneLine present]
        | cons next more =>
            obtain ⟨start, rfl⟩ := first next List.mem_cons_self
            exact absurd (by simp) oneLine

/-! ## What is left -/

theorem isDefineLine_of_mem_skipDirectives
    (inside : Bool)
    (lines : List (List Char)) :
    ∀ line ∈ skipDirectives inside lines, isDefineLine line = false := by
  fun_induction skipDirectives inside lines with
  | case1 => simp
  | case2 inside line rest _ inductionHypothesis => exact inductionHypothesis
  | case3 inside line rest kept inductionHypothesis =>
      refine List.forall_mem_cons.mpr ⟨?_, inductionHypothesis⟩
      simp_all

/-- Lines that open no directive are all outside. -/
theorem partsOfLines_of_not_isDefineLine
    {lines : List (List Char)}
    (plain : ∀ line ∈ lines, isDefineLine line = false) :
    partsOfLines none lines = lines.map .line := by
  induction lines with
  | nil => rfl
  | cons line rest inductionHypothesis =>
      obtain ⟨first, later⟩ := List.forall_mem_cons.mp plain
      rw [partsOfLines, if_neg (by simp [first]), inductionHypothesis later,
        List.map_cons]

theorem strip_eq (source : List Char) :
    strip source = (skipDirectives false (closedLines source)).flatten := by
  rw [strip, parts, filterMap_partsOfLines]
  rfl

theorem closedLines_strip (source : List Char) :
    closedLines (strip source) = skipDirectives false (closedLines source) := by
  have kept : (skipDirectives false (closedLines source)).Sublist
      (closedLines source) := by
    have some := Name.exists_sublist_of_partsOfLines none (closedLines source)
    rwa [filterMap_partsOfLines] at some
  rw [strip_eq]
  exact closedLines_flatten ((Name.closed_closedLines source).sublist kept)
    fun line member => isLine_closedLines source line (kept.subset member)

/-- A text in which no line opens a directive is left as it is. -/
theorem extract_of_not_isDefineLine
    {source : List Char}
    (plain : ∀ line ∈ closedLines source, isDefineLine line = false) :
    extract source = pure ([], source) := by
  have lines : parts source = (closedLines source).map .line :=
    partsOfLines_of_not_isDefineLine plain
  have none : directives source = [] := by
    rw [directives, lines, List.filterMap_map]
    simp [Function.comp_def, Part.directive?]
  have all : strip source = source := by
    rw [strip, lines, List.filterMap_map]
    simp [Function.comp_def, Part.line?, flatten_closedLines]
  rw [extract, none, all]
  rfl

/-- What is left of a source is its lines outside directives, in order.  They
are the lines of the text that is left, none of them opens a directive, and there
is nothing more to take out. -/
theorem extract_removes_directives (source : List Char) :
    (extract source).value.2 = (linesOutside (closedLines source)).flatten ∧
      closedLines (extract source).value.2 = linesOutside (closedLines source) ∧
      (∀ line ∈ closedLines (extract source).value.2, ¬ OpensDirective line) ∧
      extract (extract source).value.2 = pure ([], (extract source).value.2) := by
  have left : (extract source).value.2 = strip source := rfl
  have plain : ∀ line ∈ closedLines (strip source), isDefineLine line = false := by
    rw [closedLines_strip]
    exact isDefineLine_of_mem_skipDirectives false _
  rw [left, ← skipDirectives_eq_linesOutside]
  refine ⟨strip_eq source, closedLines_strip source, ?_,
    extract_of_not_isDefineLine plain⟩
  intro line member opens
  rw [← isDefineLine_iff, plain line member] at opens
  contradiction

/-- A line that would open a directive may continue one. -/
example :
    linesOutside ["#define a \\\r\n".toList, "#define b \\\n".toList, "c\n".toList,
      "#defined\n".toList, "\t#define".toList] = ["#defined\n".toList] := by
  decide +kernel

end Define
end Shader
end ShaderLift
