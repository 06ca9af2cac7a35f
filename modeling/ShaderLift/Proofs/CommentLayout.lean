import ShaderLift.Proofs.Breaking
import ShaderLift.Proofs.Comments
import ShaderLift.Proofs.Layout

/-!
# Formatting keeps the code outside comments

Only the breaking of lines moves characters between lines, so it is enough to
follow the scanner of a line next to the rules for comments.  Before and after
a line is broken the same characters show, and the same comment is open behind
it; the whole text follows line by line.
-/

namespace ShaderLift
namespace Shader

open Text

/-! ## Lines behind line ends -/

/-- The text is at its end or at the end of a line. -/
def AtLineEnd (text : List Char) : Prop :=
  text = [] ∨ ∃ rest, text = '\n' :: rest

/-- Lines, each behind a line end. -/
def stacked (lines : List (List Char)) : List Char :=
  lines.flatMap fun line => '\n' :: line

theorem atLineEnd_stacked (lines : List (List Char)) :
    AtLineEnd (stacked lines) := by
  cases lines with
  | nil => exact Or.inl rfl
  | cons line rest => exact Or.inr ⟨line ++ stacked rest, rfl⟩

theorem glyphsFrom_stacked
    (gap : Gap)
    (lines : List (List Char)) :
    glyphsFrom gap (stacked lines) = lines.flatMap glyphs := by
  induction lines generalizing gap with
  | nil => rfl
  | cons line rest inductionHypothesis =>
      have unfolded : stacked (line :: rest) = '\n' :: (line ++ stacked rest) :=
        rfl
      rw [unfolded, glyphsFrom_cons_blank isBlank_newline, Gap.widen_newline,
        glyphsFrom_append, inductionHypothesis, List.flatMap_cons, glyphs]

/-- The region of the code behind a line, by whether a block comment is open. -/
def regionOf (inside : Bool) : Region :=
  if inside then .block else .code

theorem visible_uncomment_newline
    (inside : Bool)
    (rest : List Char) :
    visible (uncomment (regionOf inside) ('\n' :: rest)) =
      visible (uncomment (regionOf inside) rest) := by
  have lineEnd : '\n' :: rest = Gap.text .lineEnd ++ rest := rfl
  rw [lineEnd]
  apply visible_uncomment_gap
  cases inside <;> simp [regionOf]

/-- Stacked lines with the same glyphs have the same text outside comments. -/
theorem visible_uncomment_stacked_congr
    {first second : List (List Char)}
    (same : first.flatMap glyphs = second.flatMap glyphs)
    (inside : Bool) :
    visible (uncomment (regionOf inside) (stacked first)) =
      visible (uncomment (regionOf inside) (stacked second)) := by
  have noRemark : regionOf inside = .remark → Gap.lineEnd ≠ .lineEnd := by
    cases inside <;> simp [regionOf]
  rw [← visible_uncomment_respaced _ (stacked first) .lineEnd noRemark,
    ← visible_uncomment_respaced _ (stacked second) .lineEnd noRemark,
    glyphsFrom_stacked, glyphsFrom_stacked, same]

/-! ## One line -/

/-- A `//` comment is over at the end of its line. -/
theorem uncomment_remark_line
    {line tail : List Char}
    (oneLine : '\n' ∉ line)
    (ended : AtLineEnd tail) :
    uncomment .remark (line ++ tail) = uncomment .code tail := by
  induction line with
  | nil =>
      rcases ended with rfl | ⟨rest, rfl⟩
      · rfl
      · rw [List.nil_append, uncomment_remark_newline, uncomment_code_newline]
  | cons c cs inductionHypothesis =>
      rw [List.mem_cons, not_or] at oneLine
      rw [List.cons_append, uncomment_remark_cons (Ne.symm oneLine.1)]
      exact inductionHypothesis oneLine.2

/-- A text starts as a line does, or with a line end. -/
def StartsLike (line text : List Char) : Prop :=
  ∀ c, text.head? = some c → c = '\n' ∨ line.head? = some c

theorem startsLike_append
    {tail : List Char}
    (ended : AtLineEnd tail)
    (line : List Char) :
    StartsLike line (line ++ tail) := by
  intro c starts
  cases line with
  | nil =>
      rcases ended with rfl | ⟨rest, rfl⟩
      · simp at starts
      · exact Or.inl (Option.some.inj starts).symm
  | cons d ds => exact Or.inr starts

theorem startsLike_of_broken
    {inside left : Bool}
    {line first tail : List Char}
    {more : List (List Char)}
    (broken : Broken inside line first more left)
    (ended : AtLineEnd tail) :
    StartsLike line (first ++ (stacked more ++ tail)) := by
  intro c starts
  cases broken with
  | done => exact startsLike_append ended [] c starts
  | closing _ => exact Or.inl (Option.some.inj starts).symm
  | _ => exact Or.inr starts

theorem StartsLike.head?_ne
    {line text : List Char}
    (like : StartsLike line text)
    {c : Char}
    (noEnd : c ≠ '\n')
    (absent : line.head? ≠ some c) :
    text.head? ≠ some c := by
  intro starts
  rcases like c starts with lineEnd | present
  · exact noEnd lineEnd
  · exact absent present

/-- Outside comments a text shows some characters and then what its tail shows,
where a block comment may be open at either start. -/
def Shows (inside left : Bool) (text tail shown : List Char) : Prop :=
  visible (uncomment (regionOf inside) text) =
    shown ++ visible (uncomment (regionOf left) tail)

namespace Shows

variable {left : Bool} {text tail shown : List Char}

theorem newline
    {inside : Bool}
    (shows : Shows inside left text tail shown) :
    Shows inside left ('\n' :: text) tail shown :=
  (visible_uncomment_newline inside text).trans shows

/-- A character in a block comment does not show. -/
theorem within
    {line : List Char}
    {c : Char}
    (shows : Shows true left text tail shown)
    (like : StartsLike line text)
    (stays : c = '*' → line.head? ≠ some '/') :
    Shows true left (c :: text) tail shown := by
  have passed : uncomment .block (c :: text) = uncomment .block text :=
    uncomment_block_cons fun star => like.head?_ne (by decide) (stays star)
  exact (congrArg visible passed).trans shows

/-- A character of the code shows unless it is blank. -/
theorem plain
    {line : List Char}
    {c : Char}
    (shows : Shows false left text tail shown)
    (like : StartsLike line text)
    (stays : c = '/' → line.head? ≠ some '/' ∧ line.head? ≠ some '*') :
    Shows false left (c :: text) tail (visible [c] ++ shown) := by
  have kept : uncomment .code (c :: text) = [c] ++ uncomment .code text :=
    uncomment_code_cons fun slash =>
      ⟨like.head?_ne (by decide) (stays slash).1,
        like.head?_ne (by decide) (stays slash).2⟩
  change visible (uncomment .code (c :: text)) = _
  rw [kept, visible_append, List.append_assoc]
  exact congrArg (visible [c] ++ ·) shows

/-- Braces start no comment. -/
theorem brace
    {c : Char}
    (shows : Shows false left text tail shown)
    (noSlash : c ≠ '/') :
    Shows false left (c :: text) tail (visible [c] ++ shown) := by
  have like : StartsLike text text := fun _ starts => Or.inr starts
  exact shows.plain like (absurd · noSlash)

theorem blanks
    {between : List Char}
    (shows : Shows false left text tail shown)
    (blank : ∀ c ∈ between, isBlank c = true) :
    Shows false left (between ++ text) tail shown := by
  have kept : visible (uncomment .code (between ++ text)) =
      visible (uncomment .code text) := by
    rw [uncomment_code_blank blank, visible_blank_append blank]
  exact kept.trans shows

/-- Nothing of a `//` comment shows. -/
theorem remark
    {line : List Char}
    (oneLine : '\n' ∉ line)
    (ended : AtLineEnd tail) :
    Shows false false ('/' :: '/' :: (line ++ tail)) tail [] := by
  have passed : uncomment .code ('/' :: '/' :: (line ++ tail)) =
      uncomment .code tail := by
    rw [uncomment, uncomment_remark_line oneLine ended]
  exact congrArg visible passed

end Shows

/-- What shows of a line is the same before and after it is broken, and so is
the comment that is open behind it. -/
theorem exists_shown_of_broken
    {inside left : Bool}
    {line first : List Char}
    {more : List (List Char)}
    (broken : Broken inside line first more left)
    (oneLine : '\n' ∉ line) :
    ∃ shown, ∀ tail, AtLineEnd tail →
      Shows inside left (line ++ tail) tail shown ∧
      Shows inside left (first ++ (stacked more ++ tail)) tail shown := by
  -- What shows is the same for every tail, so that a step only has to say what
  -- it adds; the tail is at a line end because a remark must be over there.
  induction broken with
  | done => exact ⟨[], fun tail _ => ⟨rfl, rfl⟩⟩
  | leave _ inductionHypothesis =>
      exact inductionHypothesis (by simpa using oneLine)
  | @within c line first more left stays broken inductionHypothesis =>
      rw [List.mem_cons, not_or] at oneLine
      obtain ⟨shown, agree⟩ := inductionHypothesis oneLine.2
      refine ⟨shown, fun tail ended => ?_⟩
      obtain ⟨unbroken, split⟩ := agree tail ended
      exact ⟨unbroken.within (startsLike_append ended line) stays,
        split.within (startsLike_of_broken broken ended) stays⟩
  | @remark line =>
      have commentLine : '\n' ∉ line := by simpa using oneLine
      refine ⟨[], fun tail ended => ?_⟩
      have shows := Shows.remark commentLine ended
      exact ⟨shows, shows⟩
  | enter _ inductionHypothesis =>
      exact inductionHypothesis (by simpa using oneLine)
  | @openingRemark between line blank =>
      have commentLine : '\n' ∉ line := fun member => oneLine (by simp [member])
      have oneSpace : ∀ c ∈ [' '], isBlank c = true := by simp
      refine ⟨visible ['{'] ++ [], fun tail ended => ?_⟩
      have shows := Shows.remark commentLine ended
      constructor
      · simpa using (shows.blanks blank).brace (by decide)
      · exact (shows.blanks oneSpace).brace (by decide)
  | @opening line first more left _ _ inductionHypothesis =>
      rw [List.mem_cons, not_or] at oneLine
      obtain ⟨shown, agree⟩ := inductionHypothesis oneLine.2
      refine ⟨visible ['{'] ++ shown, fun tail ended => ?_⟩
      obtain ⟨unbroken, split⟩ := agree tail ended
      constructor
      · exact unbroken.brace (by decide)
      · simpa [stacked] using split.newline.brace (c := '{') (by decide)
  | @closing line first more left _ inductionHypothesis =>
      rw [List.mem_cons, not_or] at oneLine
      obtain ⟨shown, agree⟩ := inductionHypothesis oneLine.2
      refine ⟨visible ['}'] ++ shown, fun tail ended => ?_⟩
      obtain ⟨unbroken, split⟩ := agree tail ended
      constructor
      · exact unbroken.brace (by decide)
      · simpa [stacked] using (split.brace (c := '}') (by decide)).newline
  | @plain c line first more left _ stays broken inductionHypothesis =>
      rw [List.mem_cons, not_or] at oneLine
      obtain ⟨shown, agree⟩ := inductionHypothesis oneLine.2
      refine ⟨visible [c] ++ shown, fun tail ended => ?_⟩
      obtain ⟨unbroken, split⟩ := agree tail ended
      exact ⟨unbroken.plain (startsLike_append ended line) stays,
        split.plain (startsLike_of_broken broken ended) stays⟩

/-- Without an opening mark no block comment is open behind a line. -/
theorem left_eq_false_of_broken
    {inside left : Bool}
    {line first : List Char}
    {more : List (List Char)}
    (broken : Broken inside line first more left)
    (outside : inside = false)
    (unopened : ¬ ['/', '*'] <:+: line) :
    left = false := by
  induction broken with
  | done => exact outside
  | leave _ _ => contradiction
  | within _ _ _ => contradiction
  | remark => rfl
  | @enter line first more left _ _ =>
      exact absurd ⟨[], line, rfl⟩ unopened
  | openingRemark _ => rfl
  | opening _ _ inductionHypothesis =>
      exact inductionHypothesis rfl fun found =>
        unopened (found.trans (List.suffix_cons _ _).isInfix)
  | closing _ inductionHypothesis =>
      exact inductionHypothesis rfl fun found =>
        unopened (found.trans (List.suffix_cons _ _).isInfix)
  | plain _ _ _ inductionHypothesis =>
      exact inductionHypothesis rfl fun found =>
        unopened (found.trans (List.suffix_cons _ _).isInfix)

/-! ## All lines -/

/-- If the line is a directive, no block comment starts on it. -/
def OpensNoComment (line : List Char) : Prop :=
  isPreprocessor line = true → ¬ ['/', '*'] <:+: line

instance (line : List Char) : Decidable (OpensNoComment line) :=
  inferInstanceAs (Decidable (_ → _))

theorem stacked_cons_append
    (line : List Char)
    (more rest : List (List Char)) :
    stacked (line :: more ++ rest) =
      '\n' :: (line ++ (stacked more ++ stacked rest)) := by
  simp [stacked]

/-- What shows of a line is the same before and after it is split. -/
theorem exists_shown_of_splitLine
    {line : List Char}
    (oneLine : '\n' ∉ line)
    (directive : OpensNoComment line)
    (inside : Bool) :
    ∃ shown, ∀ rest,
      Shows inside (splitLine inside line).2 (line ++ stacked rest)
        (stacked rest) shown ∧
      Shows inside (splitLine inside line).2
        (stacked ((splitLine inside line).1 ++ rest)) (stacked rest) shown := by
  rcases splitLine_cases inside line with
    ⟨rfl, isDirective, split⟩ | ⟨first, more, left, broken, split⟩
  · -- A directive is not broken, but it shows what its pieces would show.
    have broken := broken_pieces false line
    rw [left_eq_false_of_broken broken rfl (directive isDirective)] at broken
    obtain ⟨shown, agree⟩ := exists_shown_of_broken broken oneLine
    refine ⟨shown, fun rest => ?_⟩
    have unbroken := (agree (stacked rest) (atLineEnd_stacked rest)).1
    rw [split]
    exact ⟨unbroken, unbroken.newline⟩
  · obtain ⟨shown, agree⟩ := exists_shown_of_broken broken oneLine
    refine ⟨shown, fun rest => ?_⟩
    have kept : (keepText (first :: more) ++ rest).flatMap glyphs =
        (first :: more ++ rest).flatMap glyphs := by
      rw [List.flatMap_append, flatMap_glyphs_keepText, ← List.flatMap_append]
    obtain ⟨unbroken, broken⟩ := agree (stacked rest) (atLineEnd_stacked rest)
    rw [split]
    refine ⟨unbroken, (visible_uncomment_stacked_congr kept inside).trans ?_⟩
    rw [stacked_cons_append]
    exact broken.newline

/-- Splitting all lines keeps what shows outside comments. -/
theorem visible_uncomment_splitLines
    {lines : List (List Char)}
    (oneLine : ∀ line ∈ lines, '\n' ∉ line)
    (directives : ∀ line ∈ lines, OpensNoComment line)
    (inside : Bool) :
    visible (uncomment (regionOf inside)
        (stacked (splitLines inside lines).1)) =
      visible (uncomment (regionOf inside) (stacked lines)) := by
  induction lines generalizing inside with
  | nil => rfl
  | cons line rest inductionHypothesis =>
      obtain ⟨shown, agree⟩ := exists_shown_of_splitLine
        (oneLine line List.mem_cons_self)
        (directives line List.mem_cons_self) inside
      have behind := inductionHypothesis
        (fun other member => oneLine other (List.mem_cons_of_mem line member))
        (fun other member =>
          directives other (List.mem_cons_of_mem line member))
        (splitLine inside line).2
      have unbroken : Shows inside _ (stacked (line :: rest)) _ shown :=
        (agree rest).1.newline
      simp only [splitLines]
      rw [(agree _).2, behind, unbroken]

/-- Formatting keeps the code outside comments, for code in which no directive
opens a block comment. -/
theorem visible_uncomment_format
    (code : List Char)
    (directives : ∀ line ∈ fields '\n' code, OpensNoComment line) :
    visible (uncomment .code (format code)) =
      visible (uncomment .code code) := by
  have ofGlyphs : ∀ text, visible (uncomment .code text) =
      visible (uncomment .code (respaced (glyphs text))) := fun text =>
    (visible_uncomment_respaced .code text .lineEnd (by simp)).symm
  have ofStacked : ∀ lines, visible (uncomment .code (stacked lines)) =
      visible (uncomment .code (respaced (lines.flatMap glyphs))) := by
    intro lines
    rw [ofGlyphs, glyphs, glyphsFrom_stacked]
  calc
    visible (uncomment .code (format code)) =
        visible (uncomment .code (stacked (layoutBraces code).1)) := by
      rw [ofStacked, ← glyphs_format, ← ofGlyphs]
    _ = visible (uncomment .code (stacked (fields '\n' code))) :=
      visible_uncomment_splitLines (fun line => not_mem_of_mem_fields)
        directives false
    _ = visible (uncomment .code code) := by
      rw [ofStacked, flatMap_glyphs_fields, ← ofGlyphs]

/-- Braces inside and outside comments, a mark inside another comment, and a
directive with a brace. -/
def commentedLoop : List Char :=
  ("#define OPEN \x7b // kept whole\n" ++
    "for (;;) \x7b // \x7d /* no mark\n" ++
    "a /*/ \x7d // */ = b; \x7d c; /* open \x7b\n \x7d").toList

theorem visible_uncomment_format_commentedLoop :
    (∀ line ∈ fields '\n' commentedLoop, OpensNoComment line) ∧
      visible (uncomment .code (format commentedLoop)) =
        visible (uncomment .code commentedLoop) := by
  have directives :
      ∀ line ∈ fields '\n' commentedLoop, OpensNoComment line := by
    decide +kernel
  exact ⟨directives, visible_uncomment_format commentedLoop directives⟩

end Shader
end ShaderLift
