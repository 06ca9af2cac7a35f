import ShaderLift.Proofs.PlaceLayout
import ShaderLift.Proofs.Spacing

/-!
# Where lines are divided

The pieces of a line end before its closing braces and behind its opening ones,
but not in comments.  A breaking is followed up to a brace, and what happens
there is read off the region of the brace.  Where a text is divided is then
decided on the line of the brace, from the comment that is open before it.
-/

namespace ShaderLift
namespace Shader

open Text

/-- Lines are divided behind the characters that the first of them show. -/
def DividesAt (lines : List (List Char)) (shown : List Char) : Prop :=
  ∃ upper, upper <+: lines ∧ visible upper.flatten = shown

theorem visible_cons
    {c : Char}
    (shown : isBlank c = false)
    (rest : List Char) : visible (c :: rest) = c :: visible rest :=
  List.filter_cons_of_pos (by simp [shown])

/-! ## Pieces that end at a place -/

/-- A piece ends behind the characters that it and the pieces before it show. -/
def EndsAt
    (first : List Char)
    (more : List (List Char))
    (shown : List Char) : Prop :=
  ∃ upper, upper <+: more ∧ visible (first ++ upper.flatten) = shown

section EndsAt

variable {first shown : List Char} {more : List (List Char)}

theorem endsAt_append (taken : List Char) :
    EndsAt (taken ++ first) more (visible taken ++ shown) ↔
      EndsAt first more shown := by
  simp only [EndsAt, List.append_assoc, visible_append taken,
    List.append_cancel_left_eq]

theorem endsAt_cons (first next : List Char) :
    EndsAt first (next :: more) (visible first ++ shown) ↔
      shown = [] ∨ EndsAt next more shown := by
  simp only [EndsAt, List.prefix_cons_iff, visible_append first,
    List.append_cancel_left_eq]
  constructor
  · rintro ⟨upper, rfl | ⟨lower, rfl, starts⟩, same⟩
    · exact Or.inl same.symm
    · exact Or.inr ⟨lower, starts, same⟩
  · rintro (rfl | ⟨lower, starts, same⟩)
    · exact ⟨[], Or.inl rfl, rfl⟩
    · exact ⟨next :: lower, Or.inr ⟨lower, rfl, starts⟩, same⟩

/-- No piece ends before text of the first piece. -/
theorem not_endsAt
    (taken : List Char)
    (text : visible first ≠ []) :
    ¬ EndsAt (taken ++ first) more (visible taken) := by
  rintro ⟨upper, -, same⟩
  rw [List.append_assoc, visible_append, List.append_right_eq_self,
    visible_append, List.append_eq_nil_iff] at same
  exact text same.1

end EndsAt

/-! ## A brace of a line -/

/-- Behind some characters of its line, in a region, a breaking comes to the
rest.  The rest is broken in turn or is part of a `//` comment, and the pieces
end where those of the rest end. -/
def ComesTo
    (region : Region)
    (first : List Char)
    (more : List (List Char))
    (left : Bool)
    (before rest : List Char) : Prop :=
  ∃ first' more',
    (region = .remark ∧ first' = rest ∧ more' = [] ∨
      ∃ inside, region = regionOf inside ∧
        Broken inside rest first' more' left) ∧
    ∀ next, (next = [] → rest.head? = some '}') →
      (EndsAt first more (visible before ++ next) ↔ EndsAt first' more' next)

/-- A character that is not among the first ones stands behind them. -/
theorem exists_rest_of_not_mem
    {c : Char}
    {rest before behind : List Char}
    (taken : List Char)
    (absent : c ∉ taken)
    (divided : taken ++ rest = before ++ c :: behind) :
    ∃ middle, before = taken ++ middle ∧ rest = middle ++ c :: behind := by
  rcases List.append_eq_append_iff.mp divided with
    found | ⟨overlap, rfl, same⟩
  · exact found
  · cases overlap with
    | nil => exact ⟨[], by simp, same.symm⟩
    | cons d ds =>
        obtain ⟨rfl, -⟩ := List.cons.inj same
        exact absurd (by simp) absent

namespace ComesTo

variable {region : Region} {first before rest : List Char}
  {more : List (List Char)} {left : Bool}

/-- Characters of the first piece are passed. -/
theorem append
    (comes : ComesTo region first more left before rest)
    (taken : List Char) :
    ComesTo region (taken ++ first) more left (taken ++ before) rest := by
  obtain ⟨first', more', reached, ends⟩ := comes
  refine ⟨first', more', reached, fun next atClosing => ?_⟩
  rw [visible_append, List.append_assoc, endsAt_append]
  exact ends next atClosing

/-- An opening brace ends a piece. -/
theorem opening
    (comes : ComesTo region first more left before rest)
    (inCode : visible before = [] → region = .code) :
    ComesTo region ['{'] (first :: more) left ('{' :: before) rest := by
  obtain ⟨first', more', reached, ends⟩ := comes
  refine ⟨first', more', reached, fun next atClosing => ?_⟩
  rw [← ends next atClosing]
  refine (endsAt_cons ['{'] first).trans (or_iff_right_of_imp ?_)
  -- With nothing between this brace and the next one, the rest starts with an
  -- empty piece before its closing brace.
  intro nothing
  obtain ⟨blank, rfl⟩ := List.append_eq_nil_iff.mp nothing
  obtain ⟨tail, rfl⟩ := List.head?_eq_some_iff.mp (atClosing rfl)
  refine (ends [] atClosing).mpr ?_
  rcases reached with ⟨remark, -⟩ | ⟨inside, place, broken⟩
  · rw [inCode blank] at remark
    contradiction
  · cases broken with
    | within =>
        exact absurd (place.symm.trans (inCode blank)) (by simp [regionOf])
    | closing => exact ⟨[], by simp, rfl⟩
    | plain noBrace => exact absurd rfl noBrace.2

/-- A closing brace starts a piece. -/
theorem closing (comes : ComesTo region first more left before rest) :
    ComesTo region [] (('}' :: first) :: more) left ('}' :: before) rest := by
  obtain ⟨first', more', reached, ends⟩ := comes.append ['}']
  refine ⟨first', more', reached, fun next atClosing => ?_⟩
  rw [← ends next atClosing]
  exact (endsAt_cons [] ('}' :: first)).trans
    (or_iff_right (by simp))

end ComesTo

theorem comesTo_remark
    {before : List Char}
    (taken : List Char)
    (same : visible taken = visible before)
    (rest : List Char)
    (left : Bool) :
    ComesTo .remark (taken ++ rest) [] left before rest :=
  ⟨rest, [], Or.inl ⟨rfl, rfl, rfl⟩, fun _ _ => by rw [← same, endsAt_append]⟩

/-- A `//` comment stays with the opening brace before it. -/
theorem comesTo_openingRemark
    {between middle : List Char}
    (blank : ∀ c ∈ between, isBlank c = true)
    (oneLine : '\n' ∉ middle)
    (rest : List Char) :
    ComesTo (regionAfter .code ('{' :: (between ++ ['/', '/'] ++ middle)))
      ('{' :: ' ' :: '/' :: '/' :: (middle ++ rest)) [] false
      ('{' :: (between ++ ['/', '/'] ++ middle)) rest := by
  have inRemark : regionAfter .code
      ('{' :: (between ++ ['/', '/'] ++ middle)) = .remark := by
    rw [List.append_assoc]
    exact (regionAfter_openingRemark blank middle).trans
      (regionAfter_remark oneLine)
  have same : visible ('{' :: ' ' :: '/' :: '/' :: middle) =
      visible ('{' :: (between ++ ['/', '/'] ++ middle)) := by
    rw [List.append_assoc, visible_cons (by decide) (between ++ _),
      visible_blank_append blank]
    rfl
  rw [inRemark]
  exact comesTo_remark _ same rest false

theorem comesTo_start
    {inside left : Bool}
    {line rest first : List Char}
    {more : List (List Char)}
    (broken : Broken inside line first more left)
    (divided : line = [] ++ rest) :
    ComesTo (regionAfter (regionOf inside) []) first more left [] rest :=
  ⟨first, more, Or.inr ⟨inside, by rw [regionAfter], by rwa [divided] at broken⟩,
    fun _ _ => Iff.rfl⟩

/-- A breaking stands at the first character of its line, or it has passed that
character. -/
theorem comesTo_cons
    {inside left : Bool}
    {d : Char}
    {line before rest first : List Char}
    {more : List (List Char)}
    (broken : Broken inside (d :: line) first more left)
    (divided : d :: line = before ++ rest)
    (passed : ∀ between, line = between ++ rest →
      ComesTo (regionAfter (regionOf inside) (d :: between)) first more left
        (d :: between) rest) :
    ComesTo (regionAfter (regionOf inside) before) first more left before rest := by
  cases before with
  | nil => exact comesTo_start broken divided
  | cons e between =>
      obtain ⟨rfl, equal⟩ := List.cons.inj divided
      exact passed between equal

theorem regionAfter_code_of_visible_eq_nil
    {text : List Char}
    (blank : visible text = []) : regionAfter .code text = .code := by
  have allBlank : ∀ c ∈ text, isBlank c = true := by
    simpa [visible] using blank
  simpa [regionAfter] using regionAfter_blanks allBlank
    (show Region.code ≠ .remark by simp) []

/-- A breaking comes to every brace of its line, in the region of the brace. -/
theorem comesTo_brace
    {inside left : Bool}
    {line first before behind : List Char}
    {more : List (List Char)}
    {c : Char}
    (brace : c = '{' ∨ c = '}')
    (broken : Broken inside line first more left)
    (oneLine : '\n' ∉ line)
    (divided : line = before ++ c :: behind) :
    ComesTo (regionAfter (regionOf inside) before) first more left
      before (c :: behind) := by
  have noMark : c ≠ '/' ∧ c ≠ '*' := by rcases brace with rfl | rfl <;> simp
  induction broken generalizing before with
  | done => simp at divided
  | leave tail inductionHypothesis =>
      obtain ⟨rest, rfl, equal⟩ := exists_rest_of_not_mem ['*', '/']
        (by simp [noMark]) divided
      exact (inductionHypothesis (by simpa using oneLine) equal).append
        ['*', '/']
  | @within d line first more left stays tail inductionHypothesis =>
      refine comesTo_cons (.within stays tail) divided fun between equal => ?_
      subst equal
      have passed : regionAfter (regionOf true) (d :: between) =
          regionAfter (regionOf true) between :=
        regionAfter_block_starts (List.prefix_append between _) stays
      rw [passed]
      exact (inductionHypothesis (List.not_mem_of_not_mem_cons oneLine) rfl).append [d]
  | @remark line =>
      obtain ⟨rest, rfl, rfl⟩ := exists_rest_of_not_mem ['/', '/']
        (by simp [noMark]) divided
      have inRemark : regionAfter (regionOf false) ('/' :: '/' :: rest) =
          .remark :=
        regionAfter_remark fun member => oneLine (by simp [member])
      exact inRemark ▸ comesTo_remark ('/' :: '/' :: rest) rfl _ _
  | enter tail inductionHypothesis =>
      obtain ⟨rest, rfl, equal⟩ := exists_rest_of_not_mem ['/', '*']
        (by simp [noMark]) divided
      exact (inductionHypothesis (by simpa using oneLine) equal).append
        ['/', '*']
  | @openingRemark blanks line blank =>
      refine comesTo_cons (.openingRemark blank) divided fun between equal => ?_
      have absent : c ∉ blanks ++ ['/', '/'] := by
        have shown : isBlank c = false := by
          rcases brace with rfl | rfl <;> decide
        simpa [noMark] using fun member =>
          ne_of_isBlank (blank c member) shown rfl
      obtain ⟨middle, rfl, rfl⟩ :=
        exists_rest_of_not_mem (blanks ++ ['/', '/']) absent
          (by simpa using equal)
      exact comesTo_openingRemark blank
        (fun member => oneLine (by simp [member])) (c :: behind)
  | @opening line first more left bare tail inductionHypothesis =>
      refine comesTo_cons (.opening bare tail) divided fun between equal => ?_
      have passed : regionAfter (regionOf false) ('{' :: between) =
          regionAfter (regionOf false) between :=
        regionAfter_brace (by decide) between
      rw [passed]
      exact (inductionHypothesis (List.not_mem_of_not_mem_cons oneLine) equal).opening
        regionAfter_code_of_visible_eq_nil
  | @closing line first more left tail inductionHypothesis =>
      refine comesTo_cons (.closing tail) divided fun between equal => ?_
      have passed : regionAfter (regionOf false) ('}' :: between) =
          regionAfter (regionOf false) between :=
        regionAfter_brace (by decide) between
      rw [passed]
      exact (inductionHypothesis (List.not_mem_of_not_mem_cons oneLine) equal).closing
  | @plain d line first more left noBrace stays tail inductionHypothesis =>
      refine comesTo_cons (.plain noBrace stays tail) divided
        fun between equal => ?_
      subst equal
      have passed : regionAfter (regionOf false) (d :: between) =
          regionAfter (regionOf false) between :=
        regionAfter_code_starts (List.prefix_append between _) stays
      rw [passed]
      exact (inductionHypothesis (List.not_mem_of_not_mem_cons oneLine) rfl).append [d]

/-- A block comment is not broken before its end. -/
theorem visible_first_ne_nil
    {left : Bool}
    {line first : List Char}
    {more : List (List Char)}
    (broken : Broken true line first more left)
    (text : visible line ≠ []) : visible first ≠ [] := by
  generalize isInside : true = inside at broken
  induction broken with
  | leave => simp [visible_cons (show isBlank '*' = false by decide)]
  | @within c line first more left stays tail inductionHypothesis =>
      cases shown : isBlank c with
      | true =>
          have passed : ∀ text, visible (c :: text) = visible text := fun text =>
            List.filter_cons_of_neg (by simp [shown])
          rw [passed] at text ⊢
          exact inductionHypothesis text rfl
      | false => simp [visible_cons shown]
  | done => exact text
  | _ => contradiction

section Braces

variable {inside left : Bool} {line first before behind : List Char}
  {more : List (List Char)}

/-- A piece ends before a closing brace exactly if the brace is in code. -/
theorem endsAt_closing
    (broken : Broken inside line first more left)
    (oneLine : '\n' ∉ line)
    (divided : line = before ++ '}' :: behind) :
    EndsAt first more (visible before) ↔
      regionAfter (regionOf inside) before = .code := by
  obtain ⟨first', more', reached, ends⟩ :=
    comesTo_brace (Or.inr rfl) broken oneLine divided
  have present : ∀ rest, visible ('}' :: rest) ≠ [] := fun rest => by
    simp [visible_cons (show isBlank '}' = false by decide)]
  rw [← List.append_nil (visible before), ends [] fun _ => rfl]
  rcases reached with ⟨remark, rfl, rfl⟩ | ⟨inside, place, broken⟩
  · rw [remark]
    exact iff_of_false (not_endsAt [] (present _)) (by simp)
  · rw [place]
    cases broken with
    | within =>
        exact iff_of_false (not_endsAt [] (present _)) (by simp [regionOf])
    | closing => exact iff_of_true ⟨[], by simp, rfl⟩ rfl
    | plain noBrace => exact absurd rfl noBrace.2

/-- A piece ends behind an opening brace that has text behind it exactly if the
brace is in code and no `//` comment follows it. -/
theorem endsAt_opening
    (broken : Broken inside line first more left)
    (oneLine : '\n' ∉ line)
    (divided : line = before ++ '{' :: behind)
    (text : visible behind ≠ []) :
    EndsAt first more (visible before ++ ['{']) ↔
      regionAfter (regionOf inside) before = .code ∧
        ¬ StartsWithRemark behind := by
  obtain ⟨first', more', reached, ends⟩ :=
    comesTo_brace (Or.inl rfl) broken oneLine divided
  rw [ends ['{'] (by simp)]
  rcases reached with ⟨remark, rfl, rfl⟩ | ⟨inside, place, broken⟩
  · rw [remark]
    exact iff_of_false (not_endsAt ['{'] text) (by simp)
  · rw [place]
    cases broken with
    | within _ tail =>
        exact iff_of_false
          (not_endsAt ['{'] (visible_first_ne_nil tail text))
          (by simp [regionOf])
    | openingRemark blank =>
        refine iff_of_false (not_endsAt ['{', ' '] ?_)
          fun code => code.2 ⟨_, _, blank, rfl⟩
        simp [visible_cons (show isBlank '/' = false by decide)]
    | opening bare => exact iff_of_true ⟨[], by simp, rfl⟩ ⟨rfl, bare⟩
    | plain noBrace => exact absurd rfl noBrace.1

end Braces

/-! ## One line -/

theorem visible_flatten_filter (lines : List (List Char)) :
    visible (lines.filter fun line => !isAllBlank line).flatten =
      visible lines.flatten := by
  induction lines with
  | nil => rfl
  | cons line rest inductionHypothesis =>
      rw [List.filter_cons, List.flatten_cons]
      cases blank : isAllBlank line with
      | false =>
          simpa [visible_append] using inductionHypothesis
      | true =>
          rw [visible_blank_append (List.all_eq_true.mp blank)]
          exact inductionHypothesis

/-- Dropping pieces without text moves no end of a piece with text. -/
theorem dividesAt_keepText
    {shown : List Char}
    (text : shown ≠ [])
    (first : List Char)
    (more : List (List Char)) :
    DividesAt (keepText (first :: more)) shown ↔ EndsAt first more shown := by
  have filtered :
      DividesAt ((first :: more).filter fun piece => !isAllBlank piece) shown ↔
        EndsAt first more shown := by
    constructor
    · rintro ⟨kept, starts, same⟩
      obtain ⟨upper, isPrefix, rfl⟩ := List.prefix_filter_iff.mp starts
      rw [visible_flatten_filter] at same
      rcases List.prefix_cons_iff.mp isPrefix with rfl | ⟨lower, rfl, behind⟩
      · exact absurd same.symm text
      · exact ⟨lower, behind, same⟩
    · rintro ⟨lower, behind, same⟩
      have isPrefix : first :: lower <+: first :: more :=
        List.prefix_cons_iff.mpr (Or.inr ⟨lower, rfl, behind⟩)
      exact ⟨_, List.prefix_filter_iff.mpr ⟨first :: lower, isPrefix, rfl⟩,
        (visible_flatten_filter _).trans same⟩
  have nothing : ¬ DividesAt [[]] shown := by
    rintro ⟨upper, starts, same⟩
    have empty : upper.flatten = [] := List.flatten_eq_nil_iff.mpr
      fun piece member => List.mem_singleton.mp (starts.subset member)
    rw [empty] at same
    exact text same.symm
  rw [← filtered, keepText]
  split
  next none =>
    rw [none]
    refine iff_of_false nothing fun divided => ?_
    obtain ⟨upper, starts, same⟩ := divided
    exact nothing ⟨upper, starts.trans List.nil_prefix, same⟩
  next => rfl

theorem isPreprocessor_append
    {c : Char}
    (brace : c = '{' ∨ c = '}')
    (before behind : List Char) :
    isPreprocessor (before ++ c :: behind) = isPreprocessor before := by
  have shown : isBlank c = false := by rcases brace with rfl | rfl <;> decide
  have noHash : c ≠ '#' := by rcases brace with rfl | rfl <;> decide
  rw [isPreprocessor, isPreprocessor, List.dropWhile_append,
    List.dropWhile_cons_of_neg (by simp [shown])]
  cases before.dropWhile isBlank with
  | nil => simp [noHash]
  | cons d ds => rfl

/-- Directives are not divided, and other lines where their pieces end. -/
theorem dividesAt_splitLine
    {inside left : Bool}
    {line first shown : List Char}
    {more : List (List Char)}
    (broken : Broken inside line first more left)
    (text : shown ≠ [])
    (short : shown.length < (visible line).length) :
    DividesAt (splitLine inside line).1 shown ↔
      ¬ (inside = false ∧ isPreprocessor line = true) ∧
        EndsAt first more shown := by
  rw [← Bool.not_eq_true', ← Bool.and_eq_true, Bool.not_eq_true]
  cases directive : !inside && isPreprocessor line with
  | false =>
      rw [splitLine_eq broken directive, dividesAt_keepText text,
        and_iff_right rfl]
  | true =>
      rw [splitLine, if_pos directive]
      refine iff_of_false ?_ (by simp)
      rintro ⟨upper, starts, same⟩
      rcases List.prefix_cons_iff.mp starts with rfl | ⟨lower, rfl, behind⟩
      · exact text same.symm
      · rw [List.prefix_nil.mp behind, List.flatten_singleton] at same
        rw [same] at short
        exact absurd short (Nat.lt_irrefl _)

/-! ## All lines -/

theorem visible_flatten (lines : List (List Char)) :
    visible lines.flatten = (lines.flatMap glyphs).map Glyph.char := by
  induction lines with
  | nil => rfl
  | cons line rest inductionHypothesis =>
      rw [List.flatten_cons, visible_append, inductionHypothesis,
        List.flatMap_cons, List.map_append, glyphs, map_char_glyphsFrom]

/-- Breaking lines changes no visible character. -/
theorem visible_splitLines
    (inside : Bool)
    (lines : List (List Char)) :
    visible (splitLines inside lines).1.flatten = visible lines.flatten := by
  rw [visible_flatten, visible_flatten]
  exact (loosened_of_splitLines inside lines none).map_char_eq

theorem splitLines_append
    (inside : Bool)
    (front back : List (List Char)) :
    splitLines inside (front ++ back) =
      ((splitLines inside front).1 ++
          (splitLines (splitLines inside front).2 back).1,
        (splitLines (splitLines inside front).2 back).2) := by
  induction front generalizing inside with
  | nil => rfl
  | cons line rest inductionHypothesis =>
      simp only [List.cons_append, splitLines, inductionHypothesis,
        List.append_assoc]

theorem dividesAt_middle
    {middle : List (List Char)}
    {shown : List Char}
    (upper lower : List (List Char))
    (text : shown ≠ [])
    (short : shown.length < (visible middle.flatten).length) :
    DividesAt (upper ++ (middle ++ lower)) (visible upper.flatten ++ shown) ↔
      DividesAt middle shown := by
  have shows : ∀ {front back : List (List Char)}, front <+: back →
      (visible front.flatten).length ≤ (visible back.flatten).length := by
    rintro front _ ⟨rest, rfl⟩
    simp [visible_append]
  constructor
  · rintro ⟨lines, starts, same⟩
    have length : (visible lines.flatten).length =
        (visible upper.flatten).length + shown.length := by
      rw [same, List.length_append]
    have positive := List.length_pos_iff.mpr text
    rcases List.prefix_or_prefix_of_prefix starts
      (List.prefix_append upper _) with early | ⟨front, rfl⟩
    · have bound := shows early
      omega
    · rw [List.prefix_append_right_inj] at starts
      rw [List.flatten_append, visible_append,
        List.append_cancel_left_eq] at same
      rcases List.prefix_or_prefix_of_prefix starts
        (List.prefix_append middle lower) with inside | late
      · exact ⟨front, inside, same⟩
      · have bound := shows late
        rw [same] at bound
        omega
  · rintro ⟨front, starts, rfl⟩
    refine ⟨upper ++ front, ?_, by simp [visible_append]⟩
    rw [List.prefix_append_right_inj]
    exact starts.trans (List.prefix_append middle lower)

/-- Where a line is divided does not depend on the lines around it, but for the
block comment that may be open before it. -/
theorem dividesAt_splitLines
    {line shown : List Char}
    (front back : List (List Char))
    (text : shown ≠ [])
    (short : shown.length < (visible line).length)
    (inside : Bool) :
    DividesAt (splitLines inside (front ++ line :: back)).1
        (visible front.flatten ++ shown) ↔
      DividesAt (splitLine (splitLines inside front).2 line).1 shown := by
  rw [splitLines_append, ← visible_splitLines inside front]
  generalize (splitLines inside front).2 = inside'
  have same : visible (splitLine inside' line).1.flatten = visible line := by
    simpa [splitLines] using visible_splitLines inside' [line]
  exact @dividesAt_middle (splitLine inside' line).1 shown _
    (splitLines (splitLine inside' line).2 back).1 text (same ▸ short)

end Shader
end ShaderLift
