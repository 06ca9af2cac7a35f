import ShaderLift.Proofs.Glyph
import ShaderLift.Shader.Layout

/-!
# How a line is broken

A line is read from left to right, one character or one comment mark at a time,
with the block comment that may be open.  One relation says what each step does
to the line and to its pieces; what holds of broken lines is proved by induction
on its steps.
-/

namespace ShaderLift
namespace Shader

open Text

/-- Nothing but blanks stands before a `//` comment. -/
def StartsWithRemark (line : List Char) : Prop :=
  ∃ between remark, (∀ c ∈ between, isBlank c = true) ∧
    line = between ++ '/' :: '/' :: remark

/-- How a line is broken: the first piece, the pieces behind it, and whether a
block comment is open behind the line, if one is open before it or not. -/
inductive Broken :
    Bool → List Char → List Char → List (List Char) → Bool → Prop
  | done {inside : Bool} : Broken inside [] [] [] inside
  | leave {line first : List Char} {more : List (List Char)} {left : Bool}
      (tail : Broken false line first more left) :
      Broken true ('*' :: '/' :: line) ('*' :: '/' :: first) more left
  | within {c : Char} {line first : List Char} {more : List (List Char)}
      {left : Bool}
      (stays : c = '*' → line.head? ≠ some '/')
      (tail : Broken true line first more left) :
      Broken true (c :: line) (c :: first) more left
  | remark {line : List Char} :
      Broken false ('/' :: '/' :: line) ('/' :: '/' :: line) [] false
  | enter {line first : List Char} {more : List (List Char)} {left : Bool}
      (tail : Broken true line first more left) :
      Broken false ('/' :: '*' :: line) ('/' :: '*' :: first) more left
  | openingRemark {between line : List Char}
      (blank : ∀ c ∈ between, isBlank c = true) :
      Broken false ('{' :: (between ++ '/' :: '/' :: line))
        ('{' :: ' ' :: '/' :: '/' :: line) [] false
  | opening {line first : List Char} {more : List (List Char)} {left : Bool}
      (bare : ¬ StartsWithRemark line)
      (tail : Broken false line first more left) :
      Broken false ('{' :: line) ['{'] (first :: more) left
  | closing {line first : List Char} {more : List (List Char)} {left : Bool}
      (tail : Broken false line first more left) :
      Broken false ('}' :: line) [] (('}' :: first) :: more) left
  | plain {c : Char} {line first : List Char} {more : List (List Char)}
      {left : Bool}
      (noBrace : c ≠ '{' ∧ c ≠ '}')
      (stays : c = '/' → line.head? ≠ some '/' ∧ line.head? ≠ some '*')
      (tail : Broken false line first more left) :
      Broken false (c :: line) (c :: first) more left

/-- A character that is no brace and starts no comment is one of the code. -/
theorem Atom.ofLine_plain
    {c : Char}
    {line : List Char}
    (noBrace : c ≠ '{' ∧ c ≠ '}')
    (stays : c = '/' → line.head? ≠ some '/' ∧ line.head? ≠ some '*') :
    Atom.ofLine false (c :: line) =
      (.plain c :: (Atom.ofLine false line).1,
        (Atom.ofLine false line).2) := by
  rw [Atom.ofLine]
  · rintro cs rfl rfl
    exact (stays rfl).1 rfl
  · rintro cs rfl rfl
    exact (stays rfl).2 rfl
  · exact noBrace.1
  · exact noBrace.2

/-- A remark that leads the atoms leads the line. -/
theorem eq_append_of_leadingRemark
    {line text : List Char}
    (leads : leadingRemark (Atom.ofLine false line).1 = some text) :
    ∃ between remark, (∀ c ∈ between, isBlank c = true) ∧
      line = between ++ '/' :: '/' :: remark ∧ text = '/' :: '/' :: remark := by
  generalize outside : false = inside at leads
  fun_induction Atom.ofLine inside line with
  | case4 cs =>
      rw [leadingRemark, Option.some.injEq] at leads
      exact ⟨[], cs, by simp, rfl, leads.symm⟩
  | case8 c cs _ _ _ _ atoms left split inductionHypothesis =>
      rw [split] at inductionHypothesis
      rw [leadingRemark] at leads
      split at leads
      · next blank =>
          obtain ⟨between, remark, allBlank, rfl, equal⟩ :=
            inductionHypothesis rfl leads
          exact ⟨c :: between, remark, by simpa [blank] using allBlank, rfl,
            equal⟩
      · contradiction
  | _ => simp [leadingRemark] at leads outside

/-- Blanks before a remark are characters of the code. -/
theorem Atom.ofLine_blank_remark
    {between : List Char}
    (blank : ∀ c ∈ between, isBlank c = true)
    (remark : List Char) :
    Atom.ofLine false (between ++ '/' :: '/' :: remark) =
      (between.map .plain ++ [.remark ('/' :: '/' :: remark)], false) := by
  induction between with
  | nil => simp [Atom.ofLine]
  | cons c cs inductionHypothesis =>
      have first : isBlank c = true := blank c List.mem_cons_self
      have slash : c ≠ '/' := ne_of_isBlank first (by decide)
      have noBrace : c ≠ '{' ∧ c ≠ '}' :=
        ⟨ne_of_isBlank first (by decide), ne_of_isBlank first (by decide)⟩
      rw [List.cons_append, Atom.ofLine_plain noBrace (absurd · slash),
        inductionHypothesis fun d member =>
          blank d (List.mem_cons_of_mem c member)]
      rfl

/-- Blanks do not hide a remark. -/
theorem leadingRemark_blank_remark
    {between : List Char}
    (blank : ∀ c ∈ between, isBlank c = true)
    (text : List Char) :
    leadingRemark (between.map .plain ++ [.remark text]) = some text := by
  induction between with
  | nil => rfl
  | cons c cs inductionHypothesis =>
      rw [List.map_cons, List.cons_append, leadingRemark,
        if_pos (blank c List.mem_cons_self)]
      exact inductionHypothesis fun d member =>
        blank d (List.mem_cons_of_mem c member)

/-- The pieces of a line are its breaking. -/
theorem broken_pieces
    (inside : Bool)
    (line : List Char) :
    Broken inside line (pieces (Atom.ofLine inside line).1).1
      (pieces (Atom.ofLine inside line).1).2 (Atom.ofLine inside line).2 := by
  fun_induction Atom.ofLine inside line with
  | case1 inside => exact .done
  | case2 cs atoms left split inductionHypothesis =>
      rw [split] at inductionHypothesis
      exact .leave inductionHypothesis
  | case3 c cs stays atoms left split inductionHypothesis =>
      rw [split] at inductionHypothesis
      refine .within (fun star first => ?_) inductionHypothesis
      obtain ⟨more, rfl⟩ := List.head?_eq_some_iff.mp first
      exact stays more star rfl
  | case4 cs => exact .remark
  | case5 cs atoms left split inductionHypothesis =>
      rw [split] at inductionHypothesis
      exact .enter inductionHypothesis
  | case6 cs atoms left split inductionHypothesis =>
      rw [split] at inductionHypothesis
      -- The scanner looks ahead among the atoms, the relation in the line.
      cases leads : leadingRemark atoms with
      | none =>
          have bare : ¬ StartsWithRemark cs := by
            rintro ⟨between, remark, blank, rfl⟩
            rw [Atom.ofLine_blank_remark blank, Prod.mk.injEq] at split
            rw [← split.1, leadingRemark_blank_remark blank] at leads
            contradiction
          rw [pieces, leads]
          exact .opening bare inductionHypothesis
      | some text =>
          obtain ⟨between, remark, blank, rfl, rfl⟩ :=
            eq_append_of_leadingRemark (by rw [split]; exact leads)
          rw [Atom.ofLine_blank_remark blank, Prod.mk.injEq] at split
          rw [pieces, leads, ← split.2]
          exact .openingRemark blank
  | case7 cs atoms left split inductionHypothesis =>
      rw [split] at inductionHypothesis
      exact .closing inductionHypothesis
  | case8 c cs noRemark noBlock noOpening noClosing atoms left split
      inductionHypothesis =>
      rw [split] at inductionHypothesis
      refine .plain ⟨noOpening, noClosing⟩
        (fun slash => ⟨fun first => ?_, fun first => ?_⟩) inductionHypothesis
      · obtain ⟨more, rfl⟩ := List.head?_eq_some_iff.mp first
        exact noRemark more slash rfl
      · obtain ⟨more, rfl⟩ := List.head?_eq_some_iff.mp first
        exact noBlock more slash rfl

theorem leadingRemark_eq_none
    {line : List Char}
    (bare : ¬ StartsWithRemark line) :
    leadingRemark (Atom.ofLine false line).1 = none := by
  cases leads : leadingRemark (Atom.ofLine false line).1 with
  | none => rfl
  | some text =>
      obtain ⟨between, remark, blank, equal, -⟩ :=
        eq_append_of_leadingRemark leads
      exact absurd ⟨between, remark, blank, equal⟩ bare

/-- There is one way to break a line. -/
theorem Broken.pieces_eq
    {inside left : Bool}
    {line first : List Char}
    {more : List (List Char)}
    (broken : Broken inside line first more left) :
    pieces (Atom.ofLine inside line).1 = (first, more) ∧
      (Atom.ofLine inside line).2 = left := by
  induction broken with
  | done => exact ⟨rfl, rfl⟩
  | leave _ inductionHypothesis =>
      simp only [Atom.ofLine, pieces, inductionHypothesis.1,
        inductionHypothesis.2]
      exact ⟨rfl, trivial⟩
  | within stays _ inductionHypothesis =>
      rw [Atom.ofLine]
      · simp only [pieces, inductionHypothesis.1, inductionHypothesis.2]
        exact ⟨rfl, trivial⟩
      · rintro cs rfl rfl
        exact stays rfl rfl
  | remark => exact ⟨rfl, rfl⟩
  | enter _ inductionHypothesis =>
      simp only [Atom.ofLine, pieces, inductionHypothesis.1,
        inductionHypothesis.2]
      exact ⟨rfl, trivial⟩
  | openingRemark blank =>
      simp only [Atom.ofLine, Atom.ofLine_blank_remark blank, pieces,
        leadingRemark_blank_remark blank, and_self]
  | opening bare _ inductionHypothesis =>
      simp only [Atom.ofLine, pieces, leadingRemark_eq_none bare,
        inductionHypothesis.1, inductionHypothesis.2, and_self]
  | closing _ inductionHypothesis =>
      simp only [Atom.ofLine, pieces, inductionHypothesis.1,
        inductionHypothesis.2, and_self]
  | plain noBrace stays _ inductionHypothesis =>
      rw [Atom.ofLine_plain noBrace stays]
      simp only [pieces, inductionHypothesis.1, inductionHypothesis.2, and_self]

/-! ## Pieces with text -/

/-- The pieces that hold text, or one empty piece if none does. -/
def keepText (broken : List (List Char)) : List (List Char) :=
  match broken.filter (fun piece => !isAllBlank piece) with
  | [] => [[]]
  | kept => kept

/-- A line that is no directive leaves the pieces of its breaking. -/
theorem splitLine_eq
    {inside left : Bool}
    {line first : List Char}
    {more : List (List Char)}
    (broken : Broken inside line first more left)
    (code : (!inside && isPreprocessor line) = false) :
    splitLine inside line = (keepText (first :: more), left) := by
  have none : ¬ (!inside && isPreprocessor line) = true := by simp [code]
  simp only [splitLine, if_neg none, broken.pieces_eq.1, broken.pieces_eq.2,
    keepText]
  generalize List.filter (fun piece => !isAllBlank piece) _ = kept
  cases kept <;> rfl

/-- A directive outside comments stays one line; every other line leaves the
pieces of its breaking. -/
theorem splitLine_cases
    (inside : Bool)
    (line : List Char) :
    (inside = false ∧ isPreprocessor line = true ∧
      splitLine inside line = ([line], false)) ∨
    ∃ first more left, Broken inside line first more left ∧
      splitLine inside line = (keepText (first :: more), left) := by
  by_cases directive : (!inside && isPreprocessor line) = true
  · rw [Bool.and_eq_true, Bool.not_eq_true'] at directive
    obtain ⟨rfl, isDirective⟩ := directive
    exact Or.inl ⟨rfl, isDirective, by simp [splitLine, isDirective]⟩
  · have broken := broken_pieces inside line
    exact Or.inr ⟨_, _, _, broken,
      splitLine_eq broken (Bool.not_eq_true _ |>.mp directive)⟩

/-- Dropping pieces without text changes no glyph. -/
theorem flatMap_glyphs_keepText (broken : List (List Char)) :
    (keepText broken).flatMap glyphs = broken.flatMap glyphs := by
  have filtered :
      (broken.filter fun piece => !isAllBlank piece).flatMap glyphs =
      broken.flatMap glyphs := by
    induction broken with
    | nil => rfl
    | cons piece rest inductionHypothesis =>
        rw [List.filter_cons, List.flatMap_cons]
        cases blank : isAllBlank piece with
        | false => simp [inductionHypothesis]
        | true =>
            have nothing : glyphs piece = [] :=
              glyphsFrom_of_blank (List.all_eq_true.mp blank) .lineEnd
            simpa [nothing] using inductionHypothesis
  rw [keepText]
  split
  · next none => rw [none] at filtered; exact filtered
  · exact filtered

end Shader
end ShaderLift
