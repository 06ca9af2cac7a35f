import ShaderLift.Proofs.BlankLines
import ShaderLift.Proofs.MarginLayout
import ShaderLift.Proofs.PlaceLayout

/-!
# Formatted code

Formatted code is a normal form of the layout: no line of it is broken again,
every line stands at its level, there is no run of blank lines, and no blank is
left at either end.  A text of this form is not changed by formatting, and code
formats to such a text unless a `#` comes to the start of a line, where it would
make a directive of what was none.
-/

namespace ShaderLift
namespace Shader

open Text

/-! ## Lines that stay whole -/

/-- A line is not broken.  The flags say whether a block comment is open before
and behind it. -/
def StaysWhole (inside : Bool) (line : List Char) (left : Bool) : Prop :=
  (splitLine inside line).1.map trim = [trim line] ∧
    (splitLine inside line).2 = left

/-- Lines that follow each other are not broken. -/
inductive StayWhole : Bool → List (List Char) → Bool → Prop
  | nil {inside : Bool} : StayWhole inside [] inside
  | cons {inside middle left : Bool} {line : List Char}
      {rest : List (List Char)}
      (whole : StaysWhole inside line middle)
      (tail : StayWhole middle rest left) :
      StayWhole inside (line :: rest) left

theorem StaysWhole.of_trim
    {inside left : Bool}
    {line line' : List Char}
    (whole : StaysWhole inside line left)
    (same : trim line = trim line') : StaysWhole inside line' left := by
  obtain ⟨texts, open?⟩ := breaksAlike_of_trim same inside
  rw [StaysWhole, ← texts, ← open?, ← same]
  exact whole

theorem trim_trim (text : List Char) : trim (trim text) = trim text := by
  obtain ⟨before, after, divided, blankBefore, blankAfter⟩ :=
    exists_blanks_of_trim text
  calc
    trim (trim text) = trim (before ++ trim text ++ after) := by
      rw [trim_append_blank blankAfter, trim_blank_append blankBefore]
    _ = trim text := by rw [← divided]

theorem trim_of_blank
    {text : List Char}
    (blank : ∀ c ∈ text, isBlank c = true) : trim text = [] := by
  have nothing := trim_append_blank blank []
  rwa [List.nil_append] at nothing

/-- A blank line stays whole and changes no comment. -/
theorem staysWhole_blank_iff
    {inside left : Bool}
    {line : List Char}
    (blank : ∀ c ∈ line, isBlank c = true) :
    StaysWhole inside line left ↔ left = inside := by
  have empty : StaysWhole inside [] inside := by
    cases inside <;> exact ⟨rfl, rfl⟩
  have whole : StaysWhole inside line inside :=
    empty.of_trim (trim_of_blank blank).symm
  constructor
  · exact fun other => other.2.symm.trans whole.2
  · rintro rfl
    exact whole

namespace StayWhole

variable {inside middle left : Bool} {lines lines' : List (List Char)}

theorem append
    (front : StayWhole inside lines middle)
    (back : StayWhole middle lines' left) :
    StayWhole inside (lines ++ lines') left := by
  induction front with
  | nil => exact back
  | cons whole _ inductionHypothesis =>
      exact .cons whole (inductionHypothesis back)

/-- Breaking changes no line that stays whole. -/
theorem map_trim_splitLines (whole : StayWhole inside lines left) :
    (splitLines inside lines).1.map trim = lines.map trim := by
  induction whole with
  | nil => rfl
  | cons whole _ inductionHypothesis =>
      simp only [splitLines, List.map_append]
      rw [whole.1, whole.2, inductionHypothesis, List.map_cons,
        List.singleton_append]

/-- Whether lines stay whole depends only on their trimmed texts. -/
theorem shownPieces_iff :
    StayWhole inside (shownPieces lines) left ↔ StayWhole inside lines left := by
  induction lines generalizing inside with
  | nil => exact Iff.rfl
  | cons line rest inductionHypothesis =>
      cases blank : isAllBlank line with
      | true =>
          have skipped : shownPieces (line :: rest) = shownPieces rest := by
            simp [shownPieces, blank]
          rw [skipped, inductionHypothesis]
          have noText : ∀ c ∈ line, isBlank c = true := List.all_eq_true.mp blank
          constructor
          · exact .cons ((staysWhole_blank_iff noText).mpr rfl)
          · rintro (_ | ⟨whole, tail⟩)
            rwa [(staysWhole_blank_iff noText).mp whole] at tail
      | false =>
          have kept : shownPieces (line :: rest) =
              trim line :: shownPieces rest := by
            simp [shownPieces, blank]
          rw [kept]
          constructor
          · rintro (_ | ⟨whole, tail⟩)
            exact .cons (whole.of_trim (trim_trim line))
              (inductionHypothesis.mp tail)
          · rintro (_ | ⟨whole, tail⟩)
            exact .cons (whole.of_trim (trim_trim line).symm)
              (inductionHypothesis.mpr tail)

end StayWhole

/-! ## Directives -/

/-- No `#` stands behind an opening brace of the line. -/
def NoHashBehindBrace (line : List Char) : Prop :=
  '#' ∉ line.dropWhile (· != '{')

instance (line : List Char) : Decidable (NoHashBehindBrace line) :=
  inferInstanceAs (Decidable (¬ _))

theorem NoHashBehindBrace.tail
    {c : Char}
    {line : List Char}
    (noHash : NoHashBehindBrace (c :: line)) : NoHashBehindBrace line := by
  by_cases brace : c = '{'
  · subst brace
    exact fun member => noHash
      (List.mem_cons_of_mem '{' (List.dropWhile_subset _ member))
  · rwa [NoHashBehindBrace, List.dropWhile_cons_of_pos (by simpa using brace)]
      at noHash

theorem isPreprocessor_cons
    (c : Char)
    (line : List Char) :
    isPreprocessor (c :: line) =
      if isBlank c then isPreprocessor line else c == '#' := by
  rw [isPreprocessor, List.dropWhile_cons]
  split
  · rfl
  · rw [List.head?_cons]
    rfl

theorem isPreprocessor_of_not_mem
    {line : List Char}
    (noHash : '#' ∉ line) : isPreprocessor line = false := by
  rw [← Bool.not_eq_true, isPreprocessor, beq_iff_eq]
  exact fun starts =>
    noHash (List.dropWhile_subset _ (List.mem_of_mem_head? starts))

theorem isPreprocessor_visible
    {c : Char}
    (shown : isBlank c = false)
    (noHash : c ≠ '#')
    (line : List Char) : isPreprocessor (c :: line) = false := by
  rw [isPreprocessor_cons, if_neg (by simp [shown])]
  simpa using noHash

/-- The first piece of a line is a directive only if the line is. -/
theorem isPreprocessor_of_broken
    {inside left : Bool}
    {line first : List Char}
    {more : List (List Char)}
    (broken : Broken inside line first more left)
    (starts : isPreprocessor first = true) : isPreprocessor line = true := by
  induction broken with
  | done => exact starts
  | within _ _ inductionHypothesis =>
      rw [isPreprocessor_cons] at starts ⊢
      split
      · next blank => exact inductionHypothesis (by rwa [if_pos blank] at starts)
      · next shown => rwa [if_neg shown] at starts
  | plain _ _ _ inductionHypothesis =>
      rw [isPreprocessor_cons] at starts ⊢
      split
      · next blank => exact inductionHypothesis (by rwa [if_pos blank] at starts)
      · next shown => rwa [if_neg shown] at starts
  | closing _ _ => exact absurd starts (by decide)
  | _ =>
      -- The piece starts with a brace or with the mark of a comment.
      rw [isPreprocessor_visible (by decide) (by decide)] at starts
      contradiction

/-! ## Pieces -/

/-- The characters of the pieces are those of the line and spaces before
remarks. -/
theorem mem_of_broken
    {inside left : Bool}
    {line first : List Char}
    {more : List (List Char)}
    (broken : Broken inside line first more left)
    {piece : List Char}
    (isPiece : piece ∈ first :: more)
    {c : Char}
    (among : c ∈ piece) : c ∈ line ∨ c = ' ' := by
  induction broken generalizing piece with
  | _ => grind

/-- A piece is not broken, but for pieces without text behind it. -/
def IsUnbroken (inside : Bool) (piece : List Char) (left : Bool) : Prop :=
  ∃ more, Broken inside piece piece more left ∧ shownPieces more = []

/-- The pieces of a line behind the first one, each of which starts behind an
opening brace or with a closing one.  The flags say whether a block comment is
open before and behind them. -/
inductive Rejoined : Bool → List (List Char) → Bool → Prop
  | nil {left : Bool} : Rejoined left [] left
  | behind {middle left : Bool} {piece : List Char} {more : List (List Char)}
      (unbroken : IsUnbroken false piece middle)
      (noHash : '#' ∉ piece)
      (tail : Rejoined middle more left) :
      Rejoined false (piece :: more) left
  | closing {middle left : Bool} {piece : List Char} {more : List (List Char)}
      (unbroken : IsUnbroken false piece middle)
      (tail : Rejoined middle more left) :
      Rejoined false (('}' :: piece) :: more) left

/-- No piece of a line is broken again. -/
theorem exists_rejoined_of_broken
    {inside left : Bool}
    {line first : List Char}
    {more : List (List Char)}
    (broken : Broken inside line first more left)
    (noHash : NoHashBehindBrace line) :
    ∃ middle, IsUnbroken inside first middle ∧ Rejoined middle more left := by
  -- What is read of a line goes to its first piece, until a brace ends it.  The
  -- piece is then read by the same steps, since no mark of a comment goes across
  -- its end.
  induction broken with
  | @done inside => exact ⟨inside, ⟨[], .done, rfl⟩, .nil⟩
  | leave _ inductionHypothesis =>
      obtain ⟨middle, ⟨behind, again, noText⟩, rejoined⟩ :=
        inductionHypothesis noHash.tail.tail
      exact ⟨middle, ⟨behind, .leave again, noText⟩, rejoined⟩
  | within stays tail inductionHypothesis =>
      obtain ⟨middle, ⟨behind, again, noText⟩, rejoined⟩ :=
        inductionHypothesis noHash.tail
      exact ⟨middle, ⟨behind, .within
        (fun star => tail.head?_ne (by decide) (stays star)) again, noText⟩,
        rejoined⟩
  | remark => exact ⟨false, ⟨[], .remark, rfl⟩, .nil⟩
  | enter _ inductionHypothesis =>
      obtain ⟨middle, ⟨behind, again, noText⟩, rejoined⟩ :=
        inductionHypothesis noHash.tail.tail
      exact ⟨middle, ⟨behind, .enter again, noText⟩, rejoined⟩
  | openingRemark _ =>
      have oneSpace : ∀ c ∈ [' '], isBlank c = true := by simp
      exact ⟨false, ⟨[], .openingRemark oneSpace, rfl⟩, .nil⟩
  | @opening line first more left _ tail inductionHypothesis =>
      obtain ⟨middle, unbroken, rejoined⟩ := inductionHypothesis noHash.tail
      have bare : ¬ StartsWithRemark [] := by
        rintro ⟨between, remark, -, divided⟩
        simp at divided
      have clear : '#' ∉ first := by
        intro member
        rcases mem_of_broken tail List.mem_cons_self member with inLine | space
        · exact noHash (List.mem_cons_of_mem '{' inLine)
        · exact absurd space (by decide)
      exact ⟨false, ⟨[[]], .opening bare .done, rfl⟩,
        .behind unbroken clear rejoined⟩
  | closing _ inductionHypothesis =>
      obtain ⟨middle, unbroken, rejoined⟩ := inductionHypothesis noHash.tail
      exact ⟨false, ⟨[], .done, rfl⟩, .closing unbroken rejoined⟩
  | plain noBrace stays tail inductionHypothesis =>
      obtain ⟨middle, ⟨behind, again, noText⟩, rejoined⟩ :=
        inductionHypothesis noHash.tail
      exact ⟨middle, ⟨behind, .plain noBrace
        (fun slash => ⟨tail.head?_ne (by decide) (stays slash).1,
          tail.head?_ne (by decide) (stays slash).2⟩) again, noText⟩,
        rejoined⟩

/-- A line that is no directive stays whole if only one of its pieces has
text. -/
theorem staysWhole_of_broken
    {inside left : Bool}
    {line first : List Char}
    {more : List (List Char)}
    (broken : Broken inside line first more left)
    (code : (!inside && isPreprocessor line) = false)
    (same : shownPieces (first :: more) = shownPieces [line]) :
    StaysWhole inside line left := by
  have single : (keepText [line]).map trim = [trim line] := by
    rw [keepText]
    cases blank : isAllBlank line with
    | true =>
        have nothing : trim line = trim [] :=
          trim_of_blank (List.all_eq_true.mp blank)
        simp [blank, nothing]
    | false => simp [blank]
  rw [StaysWhole, splitLine_eq broken code, map_trim_keepText_congr same, single]
  exact ⟨rfl, rfl⟩

theorem IsUnbroken.staysWhole
    {inside left : Bool}
    {piece : List Char}
    (unbroken : IsUnbroken inside piece left)
    (code : (!inside && isPreprocessor piece) = false) :
    StaysWhole inside piece left := by
  obtain ⟨more, broken, noText⟩ := unbroken
  exact staysWhole_of_broken broken code (shownPieces_cons_congr rfl rfl noText)

theorem Rejoined.stayWhole
    {inside left : Bool}
    {more : List (List Char)}
    (rejoined : Rejoined inside more left) : StayWhole inside more left := by
  induction rejoined with
  | nil => exact .nil
  | behind unbroken noHash _ inductionHypothesis =>
      refine .cons (unbroken.staysWhole ?_) inductionHypothesis
      rw [isPreprocessor_of_not_mem noHash, Bool.and_false]
  | @closing middle left piece more unbroken _ inductionHypothesis =>
      obtain ⟨behind, broken, noText⟩ := unbroken
      refine .cons (staysWhole_of_broken (.closing broken) ?_ ?_)
        inductionHypothesis
      · rw [isPreprocessor_visible (by decide) (by decide), Bool.and_false]
      · change shownPieces (('}' :: piece) :: behind) = _
        exact shownPieces_cons_congr rfl rfl noText

theorem shownPieces_keepText (broken : List (List Char)) :
    shownPieces (keepText broken) = shownPieces broken := by
  unfold shownPieces keepText
  split
  · next none => rw [none]; rfl
  · rw [List.filter_filter]
    simp

/-- The pieces of a line stay whole, if no `#` stands behind an opening brace. -/
theorem stayWhole_splitLine
    {line : List Char}
    (noHash : NoHashBehindBrace line)
    (inside : Bool) :
    StayWhole inside (splitLine inside line).1 (splitLine inside line).2 := by
  cases code : !inside && isPreprocessor line with
  | true =>
      have kept : splitLine inside line = ([line], inside) := by
        rw [splitLine, if_pos code]
      rw [kept]
      refine .cons ⟨?_, ?_⟩ .nil <;> rw [kept]
      rfl
  | false =>
      have broken := broken_pieces inside line
      obtain ⟨middle, unbroken, rejoined⟩ :=
        exists_rejoined_of_broken broken noHash
      rw [splitLine_eq broken code, ← StayWhole.shownPieces_iff,
        shownPieces_keepText, StayWhole.shownPieces_iff]
      refine .cons (unbroken.staysWhole ?_) rejoined.stayWhole
      rw [Bool.and_eq_false_iff] at code ⊢
      refine code.imp_right fun noDirective => ?_
      rw [← Bool.not_eq_true] at noDirective ⊢
      exact mt (isPreprocessor_of_broken broken) noDirective

theorem fst_splitLines_cons
    (inside : Bool)
    (line : List Char)
    (rest : List (List Char)) :
    (splitLines inside (line :: rest)).1 =
      (splitLine inside line).1 ++
        (splitLines (splitLine inside line).2 rest).1 :=
  rfl

theorem stayWhole_splitLines
    {lines : List (List Char)}
    (noHash : ∀ line ∈ lines, NoHashBehindBrace line)
    (inside : Bool) :
    StayWhole inside (splitLines inside lines).1 (splitLines inside lines).2 := by
  induction lines generalizing inside with
  | nil => exact .nil
  | cons line rest inductionHypothesis =>
      obtain ⟨first, later⟩ := List.forall_mem_cons.mp noHash
      exact (stayWhole_splitLine first inside).append
        (inductionHypothesis later _)

/-! ## Indentation -/

/-- Every line stands at its level. -/
def IsIndented (level : Int) (lines : List (List Char)) : Prop :=
  (indentLines level lines).1 = lines

theorem fst_indentLines_cons
    (level : Int)
    (line : List Char)
    (rest : List (List Char)) :
    (indentLines level (line :: rest)).1 =
      (indentLine level line).1 ::
        (indentLines (indentLine level line).2 rest).1 :=
  rfl

theorem isIndented_cons
    {level : Int}
    {line : List Char}
    {rest : List (List Char)} :
    IsIndented level (line :: rest) ↔
      (indentLine level line).1 = line ∧
        IsIndented (indentLine level line).2 rest := by
  rw [IsIndented, fst_indentLines_cons, List.cons.injEq, ← IsIndented]

theorem trim_indentLine
    (level : Int)
    (line : List Char) : trim (indentLine level line).1 = trim line := by
  obtain ⟨blanks, written, blank⟩ := exists_blanks_of_indentLine level line
  rw [written, trim_blank_append blank, trim_trim]

/-- Indented lines stand at their levels. -/
theorem isIndented_indentLines
    (level : Int)
    (lines : List (List Char)) : IsIndented level (indentLines level lines).1 := by
  induction lines generalizing level with
  | nil => rfl
  | cons line rest inductionHypothesis =>
      have again : indentLine level (indentLine level line).1 =
          indentLine level line := by
        rw [indentLine, trim_indentLine, ← indentLine]
      rw [fst_indentLines_cons, isIndented_cons, again]
      exact ⟨rfl, inductionHypothesis _⟩

theorem indentLine_blank
    {line : List Char}
    (blank : ∀ c ∈ line, isBlank c = true)
    (level : Int) : indentLine level line = ([], level) := by
  rw [indentLine, trim_of_blank blank]
  rfl

/-- Blank lines change no level. -/
theorem IsIndented.thinned
    {level : Int}
    {lines kept : List (List Char)}
    (indented : IsIndented level lines)
    (thinned : Thinned lines kept) : IsIndented level kept := by
  induction thinned generalizing level with
  | nil => exact indented
  | keep _ inductionHypothesis =>
      obtain ⟨first, later⟩ := isIndented_cons.mp indented
      exact isIndented_cons.mpr ⟨first, inductionHypothesis later⟩
  | clear blank _ inductionHypothesis =>
      obtain ⟨-, later⟩ := isIndented_cons.mp indented
      rw [indentLine_blank blank] at later
      exact isIndented_cons.mpr ⟨rfl, inductionHypothesis later⟩
  | drop blank _ inductionHypothesis =>
      obtain ⟨-, later⟩ := isIndented_cons.mp indented
      rw [indentLine_blank blank] at later
      exact inductionHypothesis later

theorem IsIndented.exists_level
    {level : Int}
    {lines : List (List Char)}
    (indented : IsIndented level lines)
    {line : List Char}
    (member : line ∈ lines) : ∃ level, (indentLine level line).1 = line := by
  induction lines generalizing level with
  | nil => exact nomatch member
  | cons first rest inductionHypothesis =>
      obtain ⟨stands, later⟩ := isIndented_cons.mp indented
      rcases List.mem_cons.mp member with rfl | among
      · exact ⟨level, stands⟩
      · exact inductionHypothesis later among

/-- An indented line does not end in a blank. -/
theorem getLast?_indentLine
    (level : Int)
    (line : List Char) :
    ∀ c ∈ (indentLine level line).1.getLast?, isBlank c = false := by
  intro c last
  simp only [indentLine] at last
  split at last
  · exact absurd last (by simp)
  · next text =>
      rw [List.getLast?_append_of_ne_nil _ (by simpa using text)] at last
      exact getLast?_dropTrailing isBlank _ c last

/-- No line is moved to the right at the outermost level. -/
theorem indentLine_outermost (line : List Char) :
    (indentLine 0 line).1 = trim line := by
  have flush : indentation (levelOf 0 (trim line)) = [] := by
    rw [indentation, levelOf]
    split <;> rfl
  simp only [indentLine, flush, List.nil_append]
  split
  · next empty => rw [List.isEmpty_iff.mp empty]
  · rfl

/-! ## Trimming -/

theorem length_trim_le (text : List Char) : (trim text).length ≤ text.length := by
  obtain ⟨before, after, divided, -⟩ := exists_blanks_of_trim text
  have lengths := congrArg List.length divided
  rw [List.length_append, List.length_append] at lengths
  omega

/-- Blanks before indented lines are blank lines. -/
theorem thinned_fields_blanks_append
    {before text : List Char}
    (blank : ∀ c ∈ before, isBlank c = true)
    (indented : IsIndented 0 (fields '\n' (before ++ text))) :
    Thinned (fields '\n' (before ++ text)) (fields '\n' text) := by
  cases parts : fields '\n' text with
  | nil => exact absurd parts (fields_ne_nil '\n' text)
  | cons line more =>
      obtain ⟨front, last, fronts, both⟩ := exists_fields_append parts before
      have blanks : ∀ line ∈ front ++ [last], ∀ c ∈ line, isBlank c = true :=
        fun line member c among =>
          blank c (mem_of_mem_fields (fronts ▸ member) among)
      obtain ⟨blankFront, blankLast⟩ := List.forall_mem_append.mp blanks
      rw [both] at indented ⊢
      have drops : ∀ rest, Thinned (front ++ rest) rest := fun rest =>
        (Thinned.refl rest).drop_blank blankFront
      -- The first line with text starts at the margin.
      have flush : trim line = last ++ line := by
        rw [← trim_blank_append (blankLast last List.mem_cons_self),
          ← indentLine_outermost]
        exact (isIndented_cons.mp (indented.thinned (drops _))).1
      have shorter := length_trim_le line
      rw [flush, List.length_append] at shorter
      obtain rfl : last = [] := List.eq_nil_of_length_eq_zero (by omega)
      exact drops _

/-- Blanks behind indented lines are blank lines. -/
theorem thinned_fields_append_blanks
    {text after : List Char}
    (blank : ∀ c ∈ after, isBlank c = true)
    {level : Int}
    (indented : IsIndented level (fields '\n' (text ++ after))) :
    Thinned (fields '\n' (text ++ after)) (fields '\n' text) := by
  cases parts : fields '\n' after with
  | nil => exact absurd parts (fields_ne_nil '\n' after)
  | cons line more =>
      obtain ⟨front, last, fronts, both⟩ := exists_fields_append parts text
      have blanks : ∀ other ∈ line :: more, ∀ c ∈ other, isBlank c = true :=
        fun other member c among =>
          blank c (mem_of_mem_fields (parts ▸ member) among)
      obtain ⟨blankLine, blankMore⟩ := List.forall_mem_cons.mp blanks
      rw [both] at indented ⊢
      -- The last line with text ends in a visible character.
      have closed : line = [] := by
        obtain ⟨level, stands⟩ := indented.exists_level
          (List.mem_append_right front List.mem_cons_self)
        have ends := getLast?_indentLine level (last ++ line)
        rw [stands, List.getLast?_append] at ends
        cases final : line.getLast? with
        | none => exact List.getLast?_eq_none_iff.mp final
        | some c =>
            have shown := ends c (by rw [final]; rfl)
            rw [blankLine c (List.mem_of_getLast? final)] at shown
            contradiction
      rw [closed, List.append_nil, fronts]
      have drops := Thinned.nil.drop_blank blankMore
      rw [List.append_nil] at drops
      exact (Thinned.keep drops).append_left front

/-- Trimming indented lines drops blank lines only. -/
theorem thinned_trim
    {text : List Char}
    (indented : IsIndented 0 (fields '\n' text)) :
    Thinned (fields '\n' text) (fields '\n' (trim text)) := by
  obtain ⟨before, after, divided, blankBefore, blankAfter⟩ :=
    exists_blanks_of_trim text
  rw [divided] at indented
  have behind := thinned_fields_append_blanks blankAfter indented
  have front := thinned_fields_blanks_append blankBefore
    (indented.thinned behind)
  rw [← divided] at behind
  exact behind.trans front

/-! ## Lines of the formatted text -/

theorem isAllBlank_iff {text : List Char} :
    isAllBlank text = true ↔ trim text = [] := by
  constructor
  · exact fun blank => trim_of_blank (List.all_eq_true.mp blank)
  · intro nothing
    obtain ⟨before, after, divided, blankBefore, blankAfter⟩ :=
      exists_blanks_of_trim text
    rw [nothing, List.append_nil] at divided
    rw [divided, isAllBlank, List.all_eq_true]
    exact List.forall_mem_append.mpr ⟨blankBefore, blankAfter⟩

theorem shownPieces_indentLines
    (level : Int)
    (lines : List (List Char)) :
    shownPieces (indentLines level lines).1 = shownPieces lines := by
  induction lines generalizing level with
  | nil => rfl
  | cons line rest inductionHypothesis =>
      refine shownPieces_cons_congr ?_ (trim_indentLine level line)
        (inductionHypothesis _)
      rw [Bool.eq_iff_iff, isAllBlank_iff, isAllBlank_iff]
      exact iff_of_eq (congrArg (· = []) (trim_indentLine level line))

theorem Thinned.shownPieces_eq
    {lines kept : List (List Char)}
    (thinned : Thinned lines kept) : shownPieces kept = shownPieces lines := by
  have skipped : ∀ {line : List Char}, (∀ c ∈ line, isBlank c = true) →
      ∀ rest, shownPieces (line :: rest) = shownPieces rest := by
    intro line blank rest
    have noText : isAllBlank line = true := List.all_eq_true.mpr blank
    simp [shownPieces, noText]
  induction thinned with
  | nil => rfl
  | keep _ inductionHypothesis =>
      exact shownPieces_cons_congr rfl rfl inductionHypothesis
  | clear blank _ inductionHypothesis =>
      rw [skipped blank, skipped (by simp), inductionHypothesis]
  | drop blank _ inductionHypothesis =>
      rw [skipped blank, inductionHypothesis]

theorem fields_joinFields
    {lines : List (List Char)}
    (present : lines ≠ [])
    (oneLine : ∀ line ∈ lines, '\n' ∉ line) :
    fields '\n' (joinFields ['\n'] lines) = lines := by
  induction lines with
  | nil => exact absurd rfl present
  | cons line rest inductionHypothesis =>
      obtain ⟨first, later⟩ := List.forall_mem_cons.mp oneLine
      cases rest with
      | nil => exact fields_of_not_mem first
      | cons next more =>
          have others := List.cons_ne_nil next more
          rw [joinFields_cons line others, fields_append_newline first,
            inductionHypothesis others later]

theorem mem_keepText
    {broken : List (List Char)}
    {piece : List Char}
    (kept : piece ∈ keepText broken) : piece = [] ∨ piece ∈ broken := by
  rw [keepText] at kept
  split at kept
  · exact Or.inl (List.mem_singleton.mp kept)
  · exact Or.inr (List.mem_filter.mp kept).1

/-- Pieces of lines hold no line end. -/
theorem not_mem_of_mem_splitLines
    {lines : List (List Char)}
    (oneLine : ∀ line ∈ lines, '\n' ∉ line)
    (inside : Bool) :
    ∀ piece ∈ (splitLines inside lines).1, '\n' ∉ piece := by
  induction lines generalizing inside with
  | nil => simp [splitLines]
  | cons line rest inductionHypothesis =>
      obtain ⟨first, later⟩ := List.forall_mem_cons.mp oneLine
      rw [fst_splitLines_cons]
      refine List.forall_mem_append.mpr ⟨?_, inductionHypothesis later _⟩
      intro piece member
      rcases splitLine_cases inside line with
        ⟨-, -, whole⟩ | ⟨start, more, left, broken, split⟩
      · rw [whole] at member
        rwa [List.mem_singleton.mp member]
      · rw [split] at member
        rcases mem_keepText member with rfl | isPiece
        · simp
        · intro lineEnd
          rcases mem_of_broken broken isPiece lineEnd with inLine | space
          · exact first inLine
          · exact absurd space (by decide)

theorem not_mem_of_mem_indentLines
    {lines : List (List Char)}
    (oneLine : ∀ line ∈ lines, '\n' ∉ line)
    (level : Int) :
    ∀ line ∈ (indentLines level lines).1, '\n' ∉ line := by
  induction lines generalizing level with
  | nil => simp [indentLines]
  | cons line rest inductionHypothesis =>
      obtain ⟨first, later⟩ := List.forall_mem_cons.mp oneLine
      rw [fst_indentLines_cons]
      refine List.forall_mem_cons.mpr ⟨?_, inductionHypothesis later _⟩
      obtain ⟨before, after, divided, -⟩ := exists_blanks_of_trim line
      have trimmed : '\n' ∉ trim line := fun member =>
        first (by rw [divided]; simp [member])
      simp only [indentLine]
      split
      · simp
      · rw [List.mem_append, not_or]
        refine ⟨fun member => ?_, trimmed⟩
        exact absurd (List.eq_of_mem_replicate member) (by decide)

theorem layoutBraces_ne_nil (code : List Char) : (layoutBraces code).1 ≠ [] := by
  have kept : ∀ broken, keepText broken ≠ [] := by
    intro broken
    rw [keepText]
    split
    · simp
    · next filled => exact filled
  rw [layoutBraces]
  cases parts : fields '\n' code with
  | nil => exact absurd parts (fields_ne_nil '\n' code)
  | cons line rest =>
      rw [fst_splitLines_cons]
      refine List.append_ne_nil_of_left_ne_nil ?_ _
      rcases splitLine_cases false line with
        ⟨-, -, whole⟩ | ⟨first, more, left, -, split⟩
      · rw [whole]
        exact List.cons_ne_nil line []
      · rw [split]
        exact kept _

/-! ## The normal form -/

/-- A text that formatting has nothing to do with: no line is broken, every
line stands at its level, no blank lines follow each other, and there are no
blanks at the ends. -/
structure IsFormatted (text : List Char) : Prop where
  whole : ∃ left, StayWhole false (fields '\n' text) left
  indented : IsIndented 0 (fields '\n' text)
  compact : IsCompact text
  trimmed : trim text = text

/-- Formatting keeps a formatted text. -/
theorem IsFormatted.format_eq
    {text : List Char}
    (formatted : IsFormatted text) : format text = text := by
  obtain ⟨left, whole⟩ := formatted.whole
  have pieces : (layoutBraces text).1.map trim = (fields '\n' text).map trim :=
    whole.map_trim_splitLines
  have lines : (indentLines 0 (layoutBraces text).1).1 = fields '\n' text := by
    rw [indentLines_congr pieces]
    exact formatted.indented
  calc
    format text = trim (collapseBlankLines (joinFields ['\n']
        (indentLines 0 (layoutBraces text).1).1)) := rfl
    _ = trim (collapseBlankLines text) := by rw [lines, joinFields_fields]
    _ = text := by rw [formatted.compact.collapseBlankLines_eq, formatted.trimmed]

/-- The lines of formatted code are the indented pieces, but for blank lines. -/
theorem thinned_format (code : List Char) :
    Thinned (indentLines 0 (layoutBraces code).1).1
      (fields '\n' (format code)) := by
  let pieces := (layoutBraces code).1
  let lines := (indentLines 0 pieces).1
  have pieceLines : ∀ piece ∈ pieces, '\n' ∉ piece :=
    not_mem_of_mem_splitLines (fun line => not_mem_of_mem_fields) false
  have present : lines ≠ [] := by
    obtain ⟨piece, rest, filled⟩ :=
      List.exists_cons_of_ne_nil (layoutBraces_ne_nil code)
    change (indentLines 0 (layoutBraces code).1).1 ≠ []
    rw [filled, fst_indentLines_cons]
    exact List.cons_ne_nil _ _
  have parts : fields '\n' (joinFields ['\n'] lines) = lines :=
    fields_joinFields present (not_mem_of_mem_indentLines pieceLines 0)
  have thinned := thinned_collapseBlankLines (joinFields ['\n'] lines)
  rw [parts] at thinned
  exact thinned.trans
    (thinned_trim ((isIndented_indentLines 0 pieces).thinned thinned))

theorem isIndented_format (code : List Char) :
    IsIndented 0 (fields '\n' (format code)) :=
  (isIndented_indentLines 0 _).thinned (thinned_format code)

theorem isCompact_format (code : List Char) : IsCompact (format code) := by
  let shrunk := collapseBlankLines (joinFields ['\n']
    (indentLines 0 (layoutBraces code).1).1)
  obtain ⟨before, after, divided, -⟩ := exists_blanks_of_trim shrunk
  exact (isCompact_collapseBlankLines _).of_isInfix ⟨before, after, divided.symm⟩

/-- Formatting leads to a formatted text, if no line of the code has a `#`
behind an opening brace. -/
theorem isFormatted_format
    {code : List Char}
    (noHash : ∀ line ∈ fields '\n' code, NoHashBehindBrace line) :
    IsFormatted (format code) := by
  refine ⟨⟨(layoutBraces code).2, ?_⟩, isIndented_format code,
    isCompact_format code, trim_trim _⟩
  rw [← StayWhole.shownPieces_iff, (thinned_format code).shownPieces_eq,
    shownPieces_indentLines, StayWhole.shownPieces_iff]
  exact stayWhole_splitLines noHash false

/-- Formatting twice is formatting once, for code in which no line has a `#`
behind an opening brace. -/
theorem format_format
    (code : List Char)
    (noHash : ∀ line ∈ fields '\n' code, NoHashBehindBrace line) :
    format (format code) = format code :=
  (isFormatted_format noHash).format_eq

/-- Stray braces, a directive with a brace and half a comment, a comment over
several lines with a brace and a `#` in it, and wide blanks. -/
def unevenCode : List Char :=
  ("\x7d # a \x7b\u3000// b \x7d\n#define OPEN \x7b /*\n\n \u2003\n\n" ++
    "c; /* d \x7d\n # \x7d e\n*/ \x7d \x7d; f \x7b\u3000g \x7b /* h").toList

theorem format_format_unevenCode :
    (∀ line ∈ fields '\n' unevenCode, NoHashBehindBrace line) ∧
      format unevenCode ≠ unevenCode ∧
      format (format unevenCode) = format unevenCode := by
  have noHash : ∀ line ∈ fields '\n' unevenCode, NoHashBehindBrace line := by
    decide +kernel
  exact ⟨noHash, by decide +kernel, format_format unevenCode noHash⟩

end Shader
end ShaderLift
