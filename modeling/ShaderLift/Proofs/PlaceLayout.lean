import ShaderLift.Proofs.Layout
import ShaderLift.Proofs.Place

/-!
# Layout moves no phrase to another region

A line may be broken before and behind a phrase but not in it, and each stage of
the layout changes only blanks that stand at line ends.  So a phrase stays where
it is, in code or in a comment, unless a directive before it opens a block
comment that the layout does not see.
-/

namespace ShaderLift
namespace Shader

open Text

/-- A phrase that is visible at both ends and has no mark of a comment, no
brace and no line end. -/
structure IsPhrase (phrase : List Char) : Prop where
  plain : ∀ c ∈ phrase, c ∉ ['/', '*', '{', '}', '\n']
  starts : ∃ c ∈ phrase.head?, isBlank c = false
  ends : ∃ c ∈ phrase.getLast?, isBlank c = false

/-- If the line is a directive, no block comment is open behind it. -/
def ClosesComments (line : List Char) : Prop :=
  isPreprocessor line = true → regionAfter .code line ≠ .block

instance (line : List Char) : Decidable (ClosesComments line) :=
  inferInstanceAs (Decidable (_ → _))

namespace IsPhrase

variable {phrase : List Char}

theorem oneLine (isPhrase : IsPhrase phrase) : '\n' ∉ phrase := fun member =>
  isPhrase.plain '\n' member (by decide)

theorem unmarked (isPhrase : IsPhrase phrase) :
    ∀ c ∈ phrase, c ≠ '/' ∧ c ≠ '*' := by
  intro c member
  have plain := isPhrase.plain c member
  simp only [List.mem_cons, not_or] at plain
  exact ⟨plain.1, plain.2.1⟩

theorem head?_ne
    (isPhrase : IsPhrase phrase)
    {c : Char}
    (mark : c ∈ ['/', '*', '{', '}', '\n'] ∨ isBlank c = true) :
    phrase.head? ≠ some c := by
  intro leads
  rcases mark with listed | blank
  · exact isPhrase.plain c (List.mem_of_mem_head? leads) listed
  · obtain ⟨d, first, shown⟩ := isPhrase.starts
    obtain rfl : d = c := Option.some.inj (first.symm.trans leads)
    rw [blank] at shown
    contradiction

/-- The phrase starts behind characters that it cannot start with. -/
theorem exists_rest
    (isPhrase : IsPhrase phrase)
    {rest before behind : List Char}
    (taken : List Char)
    (marks : ∀ c ∈ taken,
      c ∈ ['/', '*', '{', '}', '\n'] ∨ isBlank c = true)
    (divided : taken ++ rest = before ++ (phrase ++ behind)) :
    ∃ left, before = taken ++ left ∧ rest = left ++ (phrase ++ behind) := by
  induction taken generalizing before with
  | nil => exact ⟨before, rfl, divided⟩
  | cons c cs inductionHypothesis =>
      obtain ⟨mark, later⟩ := List.forall_mem_cons.mp marks
      cases before with
      | nil =>
          obtain ⟨d, first, -⟩ := isPhrase.starts
          obtain ⟨ds, rfl⟩ := List.head?_eq_some_iff.mp first
          rw [List.nil_append, List.cons_append, List.cons_append,
            List.cons.injEq] at divided
          exact absurd (by rw [divided.1]; rfl) (isPhrase.head?_ne mark)
      | cons d ds =>
          rw [List.cons_append, List.cons_append, List.cons.injEq] at divided
          obtain ⟨rfl, divided⟩ := divided
          obtain ⟨left, rfl, rest⟩ := inductionHypothesis later divided
          exact ⟨left, rfl, rest⟩

end IsPhrase

/-! ## One line -/

theorem head?_ne_of_starts
    {text whole : List Char}
    (starts : text <+: whole)
    {c : Char}
    (absent : whole.head? ≠ some c) :
    text.head? ≠ some c := by
  obtain ⟨rest, rfl⟩ := starts
  cases text with
  | nil => simp
  | cons d ds => exact absent

theorem Broken.head?_ne
    {inside left : Bool}
    {line first : List Char}
    {more : List (List Char)}
    (broken : Broken inside line first more left)
    {c : Char}
    (noEnd : c ≠ '\n')
    (absent : line.head? ≠ some c) :
    first.head? ≠ some c := by
  have like := startsLike_of_broken broken (Or.inl rfl : AtLineEnd [])
  exact head?_ne_of_starts (List.prefix_append first _)
    (like.head?_ne noEnd absent)

theorem regionAfter_code_starts
    {c : Char}
    {text whole : List Char}
    (starts : text <+: whole)
    (stays : c = '/' → whole.head? ≠ some '/' ∧ whole.head? ≠ some '*') :
    regionAfter .code (c :: text) = regionAfter .code text :=
  regionAfter_code_cons fun slash =>
    ⟨head?_ne_of_starts starts (stays slash).1,
      head?_ne_of_starts starts (stays slash).2⟩

theorem regionAfter_block_starts
    {c : Char}
    {text whole : List Char}
    (starts : text <+: whole)
    (stays : c = '*' → whole.head? ≠ some '/') :
    regionAfter .block (c :: text) = regionAfter .block text :=
  regionAfter_block_cons fun star => head?_ne_of_starts starts (stays star)

theorem regionAfter_openingRemark
    {between : List Char}
    (blank : ∀ c ∈ between, isBlank c = true)
    (rest : List Char) :
    regionAfter .code ('{' :: (between ++ '/' :: '/' :: rest)) =
      regionAfter .remark rest := by
  rw [regionAfter_code_cons (by simp), regionAfter_blanks blank (by simp),
    regionAfter]

theorem regionAfter_brace
    {c : Char}
    (noSlash : c ≠ '/')
    (text : List Char) :
    regionAfter .code (c :: text) = regionAfter .code text :=
  regionAfter_code_cons (absurd · noSlash)

/-- A phrase at the start of a line is at the start of its first piece. -/
theorem exists_first_of_broken
    {inside left : Bool}
    {phrase behind first : List Char}
    {more : List (List Char)}
    (plain : ∀ c ∈ phrase, c ∉ ['/', '*', '{', '}', '\n'])
    (broken : Broken inside (phrase ++ behind) first more left) :
    ∃ rest, first = phrase ++ rest := by
  induction phrase generalizing inside first with
  | nil => exact ⟨first, rfl⟩
  | cons c cs inductionHypothesis =>
      obtain ⟨noMark, later⟩ := List.forall_mem_cons.mp plain
      rw [List.cons_append] at broken
      generalize equal : cs ++ behind = line at broken
      cases broken with
      | within _ tail =>
          obtain ⟨rest, rfl⟩ := inductionHypothesis later (equal ▸ tail)
          exact ⟨rest, rfl⟩
      | plain _ _ tail =>
          obtain ⟨rest, rfl⟩ := inductionHypothesis later (equal ▸ tail)
          exact ⟨rest, rfl⟩
      | _ => simp at noMark

theorem placedIn_of_broken_start
    {inside left : Bool}
    {line phrase behind first : List Char}
    {more : List (List Char)}
    (isPhrase : IsPhrase phrase)
    (broken : Broken inside line first more left)
    (divided : line = [] ++ (phrase ++ behind)) :
    PlacedIn (regionOf inside) (regionAfter (regionOf inside) []) phrase
      (first :: more) := by
  rw [divided, List.nil_append] at broken
  obtain ⟨rest, rfl⟩ := exists_first_of_broken isPhrase.plain broken
  exact ⟨[], [], rest, more, rfl, rfl⟩

/-- The pieces of a line hold a phrase where the line held it. -/
theorem placedIn_of_broken
    {inside left : Bool}
    {line phrase before behind first : List Char}
    {more : List (List Char)}
    (isPhrase : IsPhrase phrase)
    (broken : Broken inside line first more left)
    (divided : line = before ++ (phrase ++ behind)) :
    PlacedIn (regionOf inside) (regionAfter (regionOf inside) before) phrase
      (first :: more) := by
  induction broken generalizing before with
  | done =>
      obtain ⟨c, first, -⟩ := isPhrase.starts
      obtain ⟨cs, rfl⟩ := List.head?_eq_some_iff.mp first
      simp at divided
  | leave tail inductionHypothesis =>
      obtain ⟨rest, rfl, equal⟩ :=
        isPhrase.exists_rest ['*', '/'] (by simp) divided
      exact (inductionHypothesis equal).append_first ['*', '/'] fun _ _ => rfl
  | @within c line first more left stays tail inductionHypothesis =>
      cases before with
      | nil =>
          exact placedIn_of_broken_start isPhrase (.within stays tail) divided
      | cons d rest =>
          rw [List.cons_append, List.cons.injEq] at divided
          obtain ⟨rfl, rfl⟩ := divided
          have passed : regionAfter (regionOf true) (c :: rest) =
              regionAfter (regionOf true) rest :=
            regionAfter_block_starts (List.prefix_append rest _) stays
          rw [passed]
          exact (inductionHypothesis rfl).append_first [c] fun text starts =>
            regionAfter_block_starts starts fun star =>
              tail.head?_ne (by decide) (stays star)
  | remark => exact ⟨[], before, behind, [], by rw [divided]; rfl, rfl⟩
  | enter tail inductionHypothesis =>
      obtain ⟨rest, rfl, equal⟩ :=
        isPhrase.exists_rest ['/', '*'] (by simp) divided
      exact (inductionHypothesis equal).append_first ['/', '*'] fun _ _ => rfl
  | @openingRemark between line blank =>
      have marks : ∀ c ∈ '{' :: (between ++ ['/', '/']),
          c ∈ ['/', '*', '{', '}', '\n'] ∨ isBlank c = true := by
        intro c member
        simp only [List.mem_cons, List.mem_append] at member
        grind
      obtain ⟨rest, rfl, rfl⟩ := isPhrase.exists_rest
        ('{' :: (between ++ ['/', '/'])) marks (by simpa using divided)
      have oneSpace : ∀ c ∈ [' '], isBlank c = true := by simp
      refine ⟨[], '{' :: ' ' :: '/' :: '/' :: rest, behind, [], by simp, ?_⟩
      rw [List.cons_append, List.append_assoc]
      exact (regionAfter_openingRemark oneSpace rest).trans
        (regionAfter_openingRemark blank rest).symm
  | opening bare tail inductionHypothesis =>
      obtain ⟨rest, rfl, equal⟩ :=
        isPhrase.exists_rest ['{'] (by simp) divided
      have placed := inductionHypothesis equal
      have passed : regionAfter (regionOf false) (['{'] ++ rest) =
          regionAfter (regionOf false) rest :=
        regionAfter_brace (by decide) rest
      rw [passed]
      exact PlacedIn.append_left [['{']] placed
  | closing tail inductionHypothesis =>
      obtain ⟨rest, rfl, equal⟩ :=
        isPhrase.exists_rest ['}'] (by simp) divided
      have placed := (inductionHypothesis equal).append_first ['}']
        fun text _ => regionAfter_brace (by decide) text
      have passed : regionAfter (regionOf false) (['}'] ++ rest) =
          regionAfter (regionOf false) rest :=
        regionAfter_brace (by decide) rest
      rw [passed]
      exact PlacedIn.append_left [[]] placed
  | @plain c line first more left noBrace stays tail inductionHypothesis =>
      cases before with
      | nil =>
          exact placedIn_of_broken_start isPhrase (.plain noBrace stays tail)
            divided
      | cons d rest =>
          rw [List.cons_append, List.cons.injEq] at divided
          obtain ⟨rfl, rfl⟩ := divided
          have passed : regionAfter (regionOf false) (c :: rest) =
              regionAfter (regionOf false) rest :=
            regionAfter_code_starts (List.prefix_append rest _) stays
          rw [passed]
          exact (inductionHypothesis rfl).append_first [c] fun text starts =>
            regionAfter_code_starts starts fun slash =>
              ⟨tail.head?_ne (by decide) (stays slash).1,
                tail.head?_ne (by decide) (stays slash).2⟩

theorem regionAfter_remark
    {line : List Char}
    (oneLine : '\n' ∉ line) : regionAfter .remark line = .remark := by
  induction line with
  | nil => rfl
  | cons c cs inductionHypothesis =>
      rw [List.mem_cons, not_or] at oneLine
      rw [regionAfter_remark_cons (Ne.symm oneLine.1),
        inductionHypothesis oneLine.2]

theorem regionAfterLines_append_first
    {start start' : Region}
    {taken first : List Char}
    (passes : regionAfter start (taken ++ first) = regionAfter start' first)
    (more : List (List Char)) :
    regionAfterLines start ((taken ++ first) :: more) =
      regionAfterLines start' (first :: more) := by
  rw [regionAfterLines_cons, passes, regionAfterLines_cons]

/-- A line and its pieces lead to the comment that is open behind it. -/
theorem regionAfter_of_broken
    {inside left : Bool}
    {line first : List Char}
    {more : List (List Char)}
    (broken : Broken inside line first more left)
    (oneLine : '\n' ∉ line) :
    regionAfterLines (regionOf inside) (first :: more) = regionOf left ∧
      (regionAfter (regionOf inside) line).nextLine = regionOf left := by
  induction broken with
  | @done inside => cases inside <;> exact ⟨rfl, rfl⟩
  | leave _ inductionHypothesis =>
      exact inductionHypothesis (by simpa using oneLine)
  | @within c line first more left stays tail inductionHypothesis =>
      rw [List.mem_cons, not_or] at oneLine
      obtain ⟨pieces, whole⟩ := inductionHypothesis oneLine.2
      have passed : regionAfter .block (c :: line) = regionAfter .block line :=
        regionAfter_block_cons stays
      have split : regionAfter .block ([c] ++ first) =
          regionAfter .block first :=
        regionAfter_block_cons fun star =>
          tail.head?_ne (by decide) (stays star)
      exact ⟨(regionAfterLines_append_first split more).trans pieces,
        (congrArg Region.nextLine passed).trans whole⟩
  | @remark line =>
      have ended : (regionAfter .code ('/' :: '/' :: line)).nextLine =
          .code := by
        rw [regionAfter, regionAfter_remark (by simpa using oneLine)]
        rfl
      exact ⟨ended, ended⟩
  | enter _ inductionHypothesis =>
      exact inductionHypothesis (by simpa using oneLine)
  | @openingRemark between line blank =>
      have commentLine : '\n' ∉ line := fun member => oneLine (by simp [member])
      have oneSpace : ∀ c ∈ [' '], isBlank c = true := by simp
      have ended : ∀ {between : List Char},
          (∀ c ∈ between, isBlank c = true) →
          (regionAfter .code
            ('{' :: (between ++ '/' :: '/' :: line))).nextLine = .code := by
        intro between blank
        rw [regionAfter_openingRemark blank, regionAfter_remark commentLine]
        rfl
      exact ⟨ended oneSpace, ended blank⟩
  | @opening line first more left _ _ inductionHypothesis =>
      rw [List.mem_cons, not_or] at oneLine
      obtain ⟨pieces, whole⟩ := inductionHypothesis oneLine.2
      have passed : regionAfter .code ('{' :: line) = regionAfter .code line :=
        regionAfter_brace (by decide) line
      exact ⟨pieces, (congrArg Region.nextLine passed).trans whole⟩
  | @closing line first more left _ inductionHypothesis =>
      rw [List.mem_cons, not_or] at oneLine
      obtain ⟨pieces, whole⟩ := inductionHypothesis oneLine.2
      have passed : regionAfter .code ('}' :: line) = regionAfter .code line :=
        regionAfter_brace (by decide) line
      have split : regionAfter .code (['}'] ++ first) =
          regionAfter .code first :=
        regionAfter_brace (by decide) first
      exact ⟨(regionAfterLines_append_first split more).trans pieces,
        (congrArg Region.nextLine passed).trans whole⟩
  | @plain c line first more left _ stays tail inductionHypothesis =>
      rw [List.mem_cons, not_or] at oneLine
      obtain ⟨pieces, whole⟩ := inductionHypothesis oneLine.2
      have passed : regionAfter .code (c :: line) = regionAfter .code line :=
        regionAfter_code_cons stays
      have split : regionAfter .code ([c] ++ first) =
          regionAfter .code first :=
        regionAfter_code_cons fun slash =>
          ⟨tail.head?_ne (by decide) (stays slash).1,
            tail.head?_ne (by decide) (stays slash).2⟩
      exact ⟨(regionAfterLines_append_first split more).trans pieces,
        (congrArg Region.nextLine passed).trans whole⟩

/-! ## Pieces without text -/

theorem regionAfterLines_filter
    {start : Region}
    (noRemark : start ≠ .remark)
    (lines : List (List Char)) :
    regionAfterLines start (lines.filter fun line => !isAllBlank line) =
      regionAfterLines start lines := by
  induction lines generalizing start with
  | nil => rfl
  | cons line rest inductionHypothesis =>
      rw [List.filter_cons, regionAfterLines_cons]
      cases blank : isAllBlank line with
      | false => exact inductionHypothesis (Region.nextLine_ne_remark _)
      | true =>
          have passed := regionAfter_blanks (List.all_eq_true.mp blank)
            noRemark []
          rw [List.append_nil] at passed
          rw [passed, regionAfter, Region.nextLine_of_ne_remark noRemark]
          exact inductionHypothesis noRemark

theorem regionAfterLines_keepText
    {start : Region}
    (noRemark : start ≠ .remark)
    (broken : List (List Char)) :
    regionAfterLines start (keepText broken) =
      regionAfterLines start broken := by
  rw [← regionAfterLines_filter noRemark broken, keepText]
  split
  · next none =>
      rw [none]
      exact Region.nextLine_of_ne_remark noRemark
  · rfl

theorem PlacedIn.keepText
    {start place : Region}
    {phrase : List Char}
    {broken : List (List Char)}
    (isPhrase : IsPhrase phrase)
    (noRemark : start ≠ .remark)
    (placed : PlacedIn start place phrase broken) :
    PlacedIn start place phrase (Shader.keepText broken) := by
  obtain ⟨front, before, behind, back, rfl, reached⟩ := placed
  have shown : isAllBlank (before ++ (phrase ++ behind)) = false := by
    obtain ⟨c, first, visible⟩ := isPhrase.starts
    rw [isAllBlank, List.all_eq_false]
    exact ⟨c, by simp [List.mem_of_mem_head? first], by simp [visible]⟩
  have filtered :
      (front ++ (before ++ (phrase ++ behind)) :: back).filter
          (fun piece => !isAllBlank piece) =
        front.filter (fun piece => !isAllBlank piece) ++
          (before ++ (phrase ++ behind)) ::
            back.filter fun piece => !isAllBlank piece := by
    rw [List.filter_append, List.filter_cons, shown]
    rfl
  rw [Shader.keepText]
  split
  · next none => simp [filtered] at none
  · exact ⟨_, before, behind, _, filtered,
      by rw [regionAfterLines_filter noRemark, reached]⟩

/-! ## All lines -/

/-- A line that is split leads to the same region as before. -/
theorem regionAfter_of_splitLine
    {line : List Char}
    (oneLine : '\n' ∉ line)
    (directive : ClosesComments line)
    (inside : Bool) :
    regionAfterLines (regionOf inside) (splitLine inside line).1 =
        regionOf (splitLine inside line).2 ∧
      (regionAfter (regionOf inside) line).nextLine =
        regionOf (splitLine inside line).2 := by
  have noRemark : ∀ inside, regionOf inside ≠ .remark := by
    intro inside
    cases inside <;> simp [regionOf]
  rcases splitLine_cases inside line with
    ⟨rfl, isDirective, split⟩ | ⟨first, more, left, broken, split⟩
  · have closed := directive isDirective
    have ended : (regionAfter .code line).nextLine = .code := by
      cases reached : regionAfter .code line with
      | block => exact absurd reached closed
      | _ => rfl
    rw [split]
    exact ⟨ended, ended⟩
  · rw [split]
    refine ⟨?_, (regionAfter_of_broken broken oneLine).2⟩
    rw [regionAfterLines_keepText (noRemark inside)]
    exact (regionAfter_of_broken broken oneLine).1

theorem placedIn_splitLine
    {phrase : List Char}
    (isPhrase : IsPhrase phrase)
    (before behind : List Char)
    (inside : Bool) :
    PlacedIn (regionOf inside) (regionAfter (regionOf inside) before) phrase
      (splitLine inside (before ++ (phrase ++ behind))).1 := by
  have noRemark : regionOf inside ≠ .remark := by
    cases inside <;> simp [regionOf]
  rcases splitLine_cases inside (before ++ (phrase ++ behind)) with
    ⟨rfl, -, split⟩ | ⟨first, more, left, broken, split⟩
  · rw [split]
    exact ⟨[], before, behind, [], rfl, rfl⟩
  · rw [split]
    exact (placedIn_of_broken isPhrase broken rfl).keepText isPhrase noRemark

/-- Splitting lines keeps a phrase in its region. -/
theorem placedIn_splitLines
    {phrase : List Char}
    (isPhrase : IsPhrase phrase)
    {front : List (List Char)}
    (oneLine : ∀ line ∈ front, '\n' ∉ line)
    (directives : ∀ line ∈ front, ClosesComments line)
    (before behind : List Char)
    (back : List (List Char))
    (inside : Bool) :
    PlacedIn (regionOf inside)
      (regionAfter (regionAfterLines (regionOf inside) front) before) phrase
      (splitLines inside
        (front ++ (before ++ (phrase ++ behind)) :: back)).1 := by
  induction front generalizing inside with
  | nil =>
      exact (placedIn_splitLine isPhrase before behind inside).append_right _
  | cons line rest inductionHypothesis =>
      obtain ⟨first, later⟩ := List.forall_mem_cons.mp oneLine
      obtain ⟨closed, laterClosed⟩ := List.forall_mem_cons.mp directives
      obtain ⟨pieces, whole⟩ := regionAfter_of_splitLine first closed inside
      have placed := inductionHypothesis later laterClosed
        (splitLine inside line).2
      rw [List.cons_append, regionAfterLines_cons, whole]
      refine PlacedIn.append_left (splitLine inside line).1 ?_
      rw [pieces]
      exact placed

/-! ## Indentation -/

/-- An indented line is the trimmed line behind some blanks. -/
theorem exists_blanks_of_indentLine
    (level : Int)
    (line : List Char) :
    ∃ blanks, (indentLine level line).1 = blanks ++ trim line ∧
      ∀ c ∈ blanks, isBlank c = true := by
  simp only [indentLine]
  split
  · next empty =>
      exact ⟨[], by rw [List.isEmpty_iff.mp empty]; rfl, by simp⟩
  · refine ⟨_, rfl, fun c member => ?_⟩
    rw [List.eq_of_mem_replicate member]
    exact isBlank_space

/-- Indenting a line changes no region behind it. -/
theorem nextLine_regionAfter_indentLine
    {start : Region}
    (noRemark : start ≠ .remark)
    (level : Int)
    (line : List Char) :
    (regionAfter start (indentLine level line).1).nextLine =
      (regionAfter start line).nextLine := by
  obtain ⟨blanks, written, blank⟩ := exists_blanks_of_indentLine level line
  obtain ⟨before, after, divided, blankBefore, blankAfter⟩ :=
    exists_blanks_of_trim line
  have whole : (regionAfter start line).nextLine =
      (regionAfter start (trim line)).nextLine := by
    rw [divided, nextLine_regionAfter_append_blanks blankAfter,
      regionAfter_blanks blankBefore noRemark, ← divided]
  rw [written, regionAfter_blanks blank noRemark, whole]

/-- Trimming a line with a phrase removes blanks before and behind it only. -/
theorem exists_trim_phrase
    {phrase : List Char}
    (isPhrase : IsPhrase phrase)
    (before behind : List Char) :
    ∃ rest, trim (before ++ (phrase ++ behind)) =
      before.dropWhile isBlank ++ (phrase ++ rest) := by
  have started : (phrase ++ behind).dropWhile isBlank = phrase ++ behind := by
    obtain ⟨c, first, shown⟩ := isPhrase.starts
    obtain ⟨cs, rfl⟩ := List.head?_eq_some_iff.mp first
    rw [List.cons_append, List.dropWhile_cons_of_neg (by simp [shown])]
  have trimmed : (before ++ (phrase ++ behind)).dropWhile isBlank =
      (before.dropWhile isBlank ++ phrase) ++ behind := by
    rw [List.dropWhile_append, started]
    split
    · next none => rw [List.isEmpty_iff.mp none]; rfl
    · rw [List.append_assoc]
  have ends : ∃ c ∈ (before.dropWhile isBlank ++ phrase).getLast?,
      isBlank c = false := by
    obtain ⟨c, last, shown⟩ := isPhrase.ends
    refine ⟨c, ?_, shown⟩
    rw [List.getLast?_append, Option.mem_def.mp last]
    rfl
  refine ⟨dropTrailing isBlank behind, ?_⟩
  rw [trim, trimmed, dropTrailing_append_kept ends, List.append_assoc]

theorem regionAfter_dropWhile
    {start : Region}
    (noRemark : start ≠ .remark)
    (text : List Char) :
    regionAfter start (text.dropWhile isBlank) = regionAfter start text := by
  have blank : ∀ c ∈ text.takeWhile isBlank, isBlank c = true :=
    fun c member => List.mem_takeWhile_imp member
  rw [← regionAfter_blanks blank noRemark, List.takeWhile_append_dropWhile]

/-- Indenting lines keeps a phrase in its region. -/
theorem PlacedIn.indentLines
    {start place : Region}
    {phrase : List Char}
    {lines : List (List Char)}
    (isPhrase : IsPhrase phrase)
    (noRemark : start ≠ .remark)
    (placed : PlacedIn start place phrase lines)
    (level : Int) :
    PlacedIn start place phrase (Shader.indentLines level lines).1 := by
  obtain ⟨front, before, behind, back, rfl, rfl⟩ := placed
  induction front generalizing start level with
  | nil =>
      obtain ⟨blanks, written, blank⟩ :=
        exists_blanks_of_indentLine level (before ++ (phrase ++ behind))
      obtain ⟨rest, trimmed⟩ := exists_trim_phrase isPhrase before behind
      let level' := (indentLine level (before ++ (phrase ++ behind))).2
      refine ⟨[], blanks ++ before.dropWhile isBlank, rest,
        (Shader.indentLines level' back).1, ?_, ?_⟩
      · simp only [Shader.indentLines, List.nil_append]
        rw [written, trimmed, List.append_assoc]
      · rw [regionAfterLines_nil, regionAfter_blanks blank noRemark,
          regionAfter_dropWhile noRemark]
  | cons line rest inductionHypothesis =>
      have placed := inductionHypothesis (Region.nextLine_ne_remark
        (regionAfter start line)) (indentLine level line).2
      refine PlacedIn.append_left [(indentLine level line).1] ?_
      rw [regionAfterLines_cons, regionAfterLines_nil,
        nextLine_regionAfter_indentLine noRemark]
      exact placed

/-! ## Blank lines -/

/-- Two runs of blanks with line ends. -/
structure BlankSwap (taken written : List Char) : Prop where
  blank : ∀ c ∈ taken, isBlank c = true
  broken : '\n' ∈ taken
  blank' : ∀ c ∈ written, isBlank c = true
  broken' : '\n' ∈ written

theorem BlankSwap.isNeutral
    {taken written : List Char}
    (swap : BlankSwap taken written) : IsNeutral taken written where
  present := List.ne_nil_of_mem swap.broken
  present' := List.ne_nil_of_mem swap.broken'
  unmarked := startsUnmarked_of_blank swap.blank
  unmarked' := startsUnmarked_of_blank swap.blank'
  leads := fun region => ⟨region.nextLine, fun rest =>
    ⟨regionAfter_blanks_newline swap.blank swap.broken region rest,
      regionAfter_blanks_newline swap.blank' swap.broken' region rest⟩⟩

theorem replaceFrom_blankLines
    {phrase : List Char}
    (oneLine : '\n' ∉ phrase)
    (before : Option Char)
    (rest : List Char) :
    ∃ kept, replaceFrom blankLines 0 before (phrase ++ rest) =
      phrase ++ kept := by
  induction phrase generalizing before with
  | nil => exact ⟨_, rfl⟩
  | cons c cs inductionHypothesis =>
      rw [List.mem_cons, not_or] at oneLine
      obtain ⟨kept, walked⟩ := inductionHypothesis oneLine.2 (some c)
      have absent : blankLines before (c :: (cs ++ rest)) = none := by
        rw [blankLines]
        intro more equal
        exact oneLine.1 (List.cons.inj equal).1.symm
      refine ⟨kept, ?_⟩
      rw [List.cons_append, replaceFrom_kept absent, walked, List.cons_append]

/-- Shrinking runs of blank lines keeps a phrase in its region. -/
theorem Placed.collapseBlankLines
    {start place : Region}
    {phrase text : List Char}
    (isPhrase : IsPhrase phrase)
    (placed : Placed start place phrase text) :
    Placed start place phrase (Shader.collapseBlankLines text) := by
  obtain ⟨front, rest, rfl, reached⟩ := placed
  obtain ⟨kept, stays⟩ := replaceFrom_blankLines isPhrase.oneLine
    (front.getLast?.or none) rest
  have fits : ∀ passed left occurrence, front = passed ++ left → left ≠ [] →
      blankLines (passed.getLast?.or none) (left ++ (phrase ++ rest)) =
        some occurrence →
      ∃ taken behind, left = taken ++ behind ∧ taken ≠ [] ∧
        occurrence.length = taken.length ∧
        BlankSwap taken occurrence.replacement := by
    intro passed left occurrence _ _ found
    obtain ⟨run, behind, divided, length, blank, broken, written⟩ :=
      exists_run_of_blankLines found
    obtain ⟨behind, rfl, -⟩ := isPhrase.exists_rest run
      (fun c member => Or.inr (blank c member)) divided.symm
    refine ⟨run, behind, rfl, List.ne_nil_of_mem broken, length, blank, broken,
      ?_, ?_⟩
    · simp [written]
    · simp [written]
  obtain ⟨front', walked, rewritten⟩ := exists_rewritten_replaceFrom stays fits
  refine ⟨front', kept, walked, ?_⟩
  rw [rewritten.regionAfter_eq fun _ _ swap => swap.isNeutral, reached]

/-! ## The formatter -/

theorem Placed.trim
    {start place : Region}
    {phrase text : List Char}
    (isPhrase : IsPhrase phrase)
    (noRemark : start ≠ .remark)
    (placed : Placed start place phrase text) :
    Placed start place phrase (Text.trim text) := by
  obtain ⟨front, rest, rfl, reached⟩ := placed
  obtain ⟨rest', trimmed⟩ := exists_trim_phrase isPhrase front rest
  exact ⟨_, rest', trimmed, by rw [regionAfter_dropWhile noRemark, reached]⟩

/-- Formatting keeps a phrase in its region, if no directive on a line before it
leaves a block comment open. -/
theorem placed_format
    {phrase : List Char}
    (isPhrase : IsPhrase phrase)
    {front : List Char}
    (directives : ∀ line ∈ (fields '\n' front).dropLast, ClosesComments line)
    (rest : List Char) :
    Placed .code (regionAfter .code front) phrase
      (format (front ++ (phrase ++ rest))) := by
  obtain ⟨lines, last, behind, back, fronts, whole⟩ :=
    exists_fields_phrase isPhrase.oneLine front rest
  have oneLine : ∀ line ∈ lines, '\n' ∉ line := fun line member =>
    not_mem_of_mem_fields (by rw [fronts]; exact List.mem_append_left _ member)
  rw [fronts, List.dropLast_concat] at directives
  have reached : regionAfter .code front =
      regionAfter (regionAfterLines .code lines) last := by
    rw [← regionAfter_joinFields, ← fronts, joinFields_fields]
  have split := placedIn_splitLines isPhrase oneLine directives last behind back
    false
  rw [← whole] at split
  rw [reached]
  exact ((split.indentLines isPhrase (by simp [regionOf]) 0).placed_joinFields
    |>.collapseBlankLines isPhrase).trim isPhrase (by simp)

end Shader
end ShaderLift
