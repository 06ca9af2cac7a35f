import ShaderLift.Proofs.CommentLayout
import ShaderLift.Proofs.Margin
import ShaderLift.Proofs.Replacement

/-!
# Places in code and in comments

A place of a text is in code or in a comment, by what stands before it.  Blanks
and line ends move no place from one region to another, but for a `//` comment,
which ends with its line.  Writing one word for another moves no place at all,
as long as neither holds a mark of a comment.
-/

namespace ShaderLift
namespace Shader

open Text Name

/-- The region behind a text that starts in the given region. -/
def regionAfter : Region → List Char → Region
  | region, [] => region
  | .code, '/' :: '/' :: cs => regionAfter .remark cs
  | .code, '/' :: '*' :: cs => regionAfter .block cs
  | .code, _ :: cs => regionAfter .code cs
  | .block, '*' :: '/' :: cs => regionAfter .code cs
  | .block, _ :: cs => regionAfter .block cs
  | .remark, '\n' :: cs => regionAfter .code cs
  | .remark, _ :: cs => regionAfter .remark cs

/-- The region behind a line end. -/
def Region.nextLine : Region → Region
  | .remark => .code
  | region => region

/-- The text does not start with a character of a comment mark. -/
def StartsUnmarked (text : List Char) : Prop :=
  text.head? ≠ some '/' ∧ text.head? ≠ some '*'

/-! ## One character -/

theorem regionAfter_code_cons
    {c : Char}
    {rest : List Char}
    (stays : c = '/' → StartsUnmarked rest) :
    regionAfter .code (c :: rest) = regionAfter .code rest := by
  rw [regionAfter]
  · rintro cs rfl rfl
    exact (stays rfl).1 rfl
  · rintro cs rfl rfl
    exact (stays rfl).2 rfl

theorem regionAfter_block_cons
    {c : Char}
    {rest : List Char}
    (stays : c = '*' → rest.head? ≠ some '/') :
    regionAfter .block (c :: rest) = regionAfter .block rest := by
  rw [regionAfter]
  rintro cs rfl rfl
  exact stays rfl rfl

theorem regionAfter_remark_cons
    {c : Char}
    (stays : c ≠ '\n')
    (rest : List Char) :
    regionAfter .remark (c :: rest) = regionAfter .remark rest := by
  rw [regionAfter]
  exact stays

/-- A character that is no mark of a comment and no line end leaves the
region. -/
theorem regionAfter_cons
    {c : Char}
    (unmarked : c ≠ '/' ∧ c ≠ '*')
    {region : Region}
    (stays : region = .remark → c ≠ '\n')
    (rest : List Char) :
    regionAfter region (c :: rest) = regionAfter region rest := by
  cases region with
  | code => exact regionAfter_code_cons (absurd · unmarked.1)
  | block => exact regionAfter_block_cons (absurd · unmarked.2)
  | remark => exact regionAfter_remark_cons (stays rfl) rest

theorem regionAfter_newline
    (region : Region)
    (rest : List Char) :
    regionAfter region ('\n' :: rest) = regionAfter region.nextLine rest := by
  cases region with
  | code => exact regionAfter_code_cons (by simp)
  | block => exact regionAfter_block_cons (by simp)
  | remark => rfl

/-- A character is read alone or as a comment mark with the next one. -/
theorem regionAfter_cons_cons
    (region : Region)
    (c d : Char) :
    (∃ reached, ∀ rest, regionAfter region (c :: d :: rest) =
      regionAfter reached rest) ∨
    ∃ reached, ∀ rest, regionAfter region (c :: d :: rest) =
      regionAfter reached (d :: rest) := by
  cases region with
  | code =>
      by_cases remark : c = '/' ∧ d = '/'
      · obtain ⟨rfl, rfl⟩ := remark
        exact Or.inl ⟨.remark, fun _ => rfl⟩
      · by_cases block : c = '/' ∧ d = '*'
        · obtain ⟨rfl, rfl⟩ := block
          exact Or.inl ⟨.block, fun _ => rfl⟩
        · rw [not_and] at remark block
          refine Or.inr ⟨.code, fun rest => regionAfter_code_cons fun slash =>
            ⟨?_, ?_⟩⟩
          · simpa using remark slash
          · simpa using block slash
  | block =>
      by_cases leaves : c = '*' ∧ d = '/'
      · obtain ⟨rfl, rfl⟩ := leaves
        exact Or.inl ⟨.code, fun _ => rfl⟩
      · rw [not_and] at leaves
        refine Or.inr ⟨.block, fun rest => regionAfter_block_cons fun star =>
          ?_⟩
        simpa using leaves star
  | remark =>
      by_cases isEnd : c = '\n'
      · subst isEnd
        exact Or.inr ⟨.code, fun rest => regionAfter_newline .remark _⟩
      · exact Or.inr ⟨.remark, fun rest => regionAfter_remark_cons isEnd _⟩

/-! ## Texts put together -/

theorem head?_append_ne
    {c : Char}
    {first second : List Char}
    (other : ∀ rest, first = c :: rest → False)
    (absent : second.head? ≠ some c) :
    (first ++ second).head? ≠ some c := by
  cases first with
  | nil => exact absent
  | cons d ds =>
      intro starts
      obtain rfl : d = c := Option.some.inj starts
      exact other ds rfl

section Append

variable {second : List Char}

/-- The region behind two texts, if no mark of a comment lies across both. -/
theorem regionAfter_append
    (unmarked : StartsUnmarked second)
    (region : Region)
    (first : List Char) :
    regionAfter region (first ++ second) =
      regionAfter (regionAfter region first) second := by
  fun_induction regionAfter region first with
  | case1 region => rfl
  | case2 cs inductionHypothesis => exact inductionHypothesis
  | case3 cs inductionHypothesis => exact inductionHypothesis
  | case4 c cs noRemark noBlock inductionHypothesis =>
      rw [List.cons_append, regionAfter_code_cons, inductionHypothesis]
      exact fun slash =>
        ⟨head?_append_ne (fun rest => noRemark rest slash) unmarked.1,
          head?_append_ne (fun rest => noBlock rest slash) unmarked.2⟩
  | case5 cs inductionHypothesis => exact inductionHypothesis
  | case6 c cs stays inductionHypothesis =>
      rw [List.cons_append, regionAfter_block_cons, inductionHypothesis]
      exact fun star =>
        head?_append_ne (fun rest => stays rest star) unmarked.1
  | case7 cs inductionHypothesis => exact inductionHypothesis
  | case8 c cs stays inductionHypothesis =>
      rw [List.cons_append, regionAfter_remark_cons stays, inductionHypothesis]

/-- Comments behind a text are left out from the region that it leads to. -/
theorem uncomment_append
    (unmarked : StartsUnmarked second)
    (region : Region)
    (first : List Char) :
    uncomment region (first ++ second) =
      uncomment region first ++
        uncomment (regionAfter region first) second := by
  fun_induction regionAfter region first with
  | case1 region => rw [uncomment_nil]; rfl
  | case2 cs inductionHypothesis => exact inductionHypothesis
  | case3 cs inductionHypothesis => exact inductionHypothesis
  | case4 c cs noRemark noBlock inductionHypothesis =>
      rw [uncomment, List.cons_append, uncomment_code_cons,
        inductionHypothesis, List.cons_append]
      · exact fun slash =>
          ⟨head?_append_ne (fun rest => noRemark rest slash) unmarked.1,
            head?_append_ne (fun rest => noBlock rest slash) unmarked.2⟩
      · exact noRemark
      · exact noBlock
  | case5 cs inductionHypothesis => exact inductionHypothesis
  | case6 c cs stays inductionHypothesis =>
      rw [uncomment, List.cons_append, uncomment_block_cons,
        inductionHypothesis]
      · exact fun star =>
          head?_append_ne (fun rest => stays rest star) unmarked.1
      · exact stays
  | case7 cs inductionHypothesis =>
      rw [List.cons_append, uncomment_remark_newline,
        uncomment_remark_newline, inductionHypothesis, List.cons_append]
  | case8 c cs stays inductionHypothesis =>
      rw [List.cons_append, uncomment_remark_cons stays,
        uncomment_remark_cons stays, inductionHypothesis]

end Append

theorem startsUnmarked_newline (rest : List Char) :
    StartsUnmarked ('\n' :: rest) := by
  simp [StartsUnmarked]

/-- The region behind a line. -/
theorem regionAfter_append_newline
    (region : Region)
    (line rest : List Char) :
    regionAfter region (line ++ '\n' :: rest) =
      regionAfter (regionAfter region line).nextLine rest := by
  rw [regionAfter_append (startsUnmarked_newline rest), regionAfter_newline]

/-- Characters that are no marks of comments and no line ends leave the
region. -/
theorem regionAfter_unmarked
    {text : List Char}
    (unmarked : ∀ c ∈ text, c ≠ '/' ∧ c ≠ '*' ∧ c ≠ '\n')
    (region : Region)
    (rest : List Char) :
    regionAfter region (text ++ rest) = regionAfter region rest := by
  induction text with
  | nil => rfl
  | cons c cs inductionHypothesis =>
      obtain ⟨⟨noSlash, noStar, noEnd⟩, later⟩ :=
        List.forall_mem_cons.mp unmarked
      rw [List.cons_append, regionAfter_cons ⟨noSlash, noStar⟩ fun _ => noEnd,
        inductionHypothesis later]

/-! ## Blanks -/

theorem unmarked_of_isBlank
    {c : Char}
    (blank : isBlank c = true) : c ≠ '/' ∧ c ≠ '*' :=
  ⟨ne_of_isBlank blank (by decide), ne_of_isBlank blank (by decide)⟩

theorem startsUnmarked_of_blank
    {blanks : List Char}
    (blank : ∀ c ∈ blanks, isBlank c = true) : StartsUnmarked blanks := by
  cases blanks with
  | nil => exact ⟨by simp, by simp⟩
  | cons c cs =>
      have first := unmarked_of_isBlank (blank c List.mem_cons_self)
      exact ⟨by simpa using first.1, by simpa using first.2⟩

/-- Blanks leave every region but the one of a `//` comment. -/
theorem regionAfter_blanks
    {blanks : List Char}
    (blank : ∀ c ∈ blanks, isBlank c = true)
    {region : Region}
    (noRemark : region ≠ .remark)
    (rest : List Char) :
    regionAfter region (blanks ++ rest) = regionAfter region rest := by
  induction blanks with
  | nil => rfl
  | cons c cs inductionHypothesis =>
      obtain ⟨first, later⟩ := List.forall_mem_cons.mp blank
      rw [List.cons_append, regionAfter_cons (unmarked_of_isBlank first)
        (absurd · noRemark), inductionHypothesis later]

theorem Region.nextLine_ne_remark (region : Region) :
    region.nextLine ≠ .remark := by
  cases region <;> simp [Region.nextLine]

/-- Blanks with a line end among them lead to the next line. -/
theorem regionAfter_blanks_newline
    {blanks : List Char}
    (blank : ∀ c ∈ blanks, isBlank c = true)
    (broken : '\n' ∈ blanks)
    (region : Region)
    (rest : List Char) :
    regionAfter region (blanks ++ rest) = regionAfter region.nextLine rest := by
  induction blanks with
  | nil => simp at broken
  | cons c cs inductionHypothesis =>
      obtain ⟨first, later⟩ := List.forall_mem_cons.mp blank
      by_cases isEnd : c = '\n'
      · rw [isEnd, List.cons_append, regionAfter_newline,
          regionAfter_blanks later region.nextLine_ne_remark]
      · have remains : '\n' ∈ cs := by simpa [Ne.symm isEnd] using broken
        rw [List.cons_append, regionAfter_cons (unmarked_of_isBlank first)
          fun _ => isEnd, inductionHypothesis later remains]

theorem Region.nextLine_nextLine (region : Region) :
    region.nextLine.nextLine = region.nextLine := by
  cases region <;> rfl

theorem Region.nextLine_of_ne_remark
    {region : Region}
    (noRemark : region ≠ .remark) : region.nextLine = region := by
  cases region with
  | remark => contradiction
  | _ => rfl

/-- Blanks behind a line do not matter on the next one. -/
theorem nextLine_regionAfter_append_blanks
    {blanks : List Char}
    (blank : ∀ c ∈ blanks, isBlank c = true)
    (region : Region)
    (line : List Char) :
    (regionAfter region (line ++ blanks)).nextLine =
      (regionAfter region line).nextLine := by
  rw [regionAfter_append (startsUnmarked_of_blank blank)]
  generalize regionAfter region line = reached
  by_cases broken : '\n' ∈ blanks
  · have passed := regionAfter_blanks_newline blank broken reached []
    rw [List.append_nil] at passed
    rw [passed, regionAfter, Region.nextLine_nextLine]
  · have unmarked : ∀ c ∈ blanks, c ≠ '/' ∧ c ≠ '*' ∧ c ≠ '\n' := by
      intro c member
      obtain ⟨noSlash, noStar⟩ := unmarked_of_isBlank (blank c member)
      exact ⟨noSlash, noStar, fun isEnd => broken (isEnd ▸ member)⟩
    have passed := regionAfter_unmarked unmarked reached []
    rw [List.append_nil] at passed
    rw [passed, regionAfter]

/-! ## Lines -/

/-- The region at the start of the line behind the given ones. -/
def regionAfterLines (region : Region) (lines : List (List Char)) : Region :=
  lines.foldl (fun region line => (regionAfter region line).nextLine) region

@[simp] theorem regionAfterLines_nil (region : Region) :
    regionAfterLines region [] = region :=
  rfl

theorem regionAfterLines_cons
    (region : Region)
    (line : List Char)
    (rest : List (List Char)) :
    regionAfterLines region (line :: rest) =
      regionAfterLines (regionAfter region line).nextLine rest :=
  rfl

theorem regionAfterLines_append
    (region : Region)
    (first second : List (List Char)) :
    regionAfterLines region (first ++ second) =
      regionAfterLines (regionAfterLines region first) second :=
  List.foldl_append

/-- Lines are read one after another. -/
theorem regionAfter_joinFields
    (region : Region)
    (lines : List (List Char))
    (last : List Char) :
    regionAfter region (joinFields ['\n'] (lines ++ [last])) =
      regionAfter (regionAfterLines region lines) last := by
  induction lines generalizing region with
  | nil => rfl
  | cons line rest inductionHypothesis =>
      rw [List.cons_append, joinFields_cons line (by simp),
        regionAfter_append_newline, inductionHypothesis, regionAfterLines_cons]

/-- The line in which two texts meet is put together from both. -/
theorem exists_fields_append
    {second line : List Char}
    {rest : List (List Char)}
    (parts : fields '\n' second = line :: rest)
    (first : List Char) :
    ∃ front last, fields '\n' first = front ++ [last] ∧
      fields '\n' (first ++ second) = front ++ (last ++ line) :: rest := by
  induction first with
  | nil => exact ⟨[], [], rfl, parts⟩
  | cons c cs inductionHypothesis =>
      obtain ⟨front, last, firsts, both⟩ := inductionHypothesis
      by_cases isEnd : c = '\n'
      · subst isEnd
        refine ⟨[] :: front, last, ?_, ?_⟩
        · rw [fields_newline, firsts, List.cons_append]
        · rw [List.cons_append, fields_newline, both, List.cons_append]
      · have oneLine : '\n' ∉ [c] := by simpa using Ne.symm isEnd
        cases front with
        | nil =>
            exact ⟨[], c :: last, fields_append oneLine firsts,
              fields_append oneLine both⟩
        | cons field more =>
            exact ⟨(c :: field) :: more, last, fields_append oneLine firsts,
              fields_append oneLine both⟩

/-- A phrase of one line stands in one of the lines of a text. -/
theorem exists_fields_phrase
    {phrase : List Char}
    (oneLine : '\n' ∉ phrase)
    (front rest : List Char) :
    ∃ lines before behind back, fields '\n' front = lines ++ [before] ∧
      fields '\n' (front ++ (phrase ++ rest)) =
        lines ++ (before ++ (phrase ++ behind)) :: back := by
  obtain ⟨behind, back, parts⟩ :=
    List.exists_cons_of_ne_nil (fields_ne_nil '\n' rest)
  obtain ⟨lines, before, fronts, whole⟩ :=
    exists_fields_append (fields_append oneLine parts) front
  exact ⟨lines, before, behind, back, fronts, whole⟩

/-! ## Where a text stands -/

/-- A text that starts in one region holds a phrase at a place of another. -/
def Placed (start place : Region) (phrase text : List Char) : Prop :=
  ∃ front rest, text = front ++ (phrase ++ rest) ∧
    regionAfter start front = place

/-- One of some lines that start in one region holds a phrase at a place of
another. -/
def PlacedIn
    (start place : Region)
    (phrase : List Char)
    (lines : List (List Char)) : Prop :=
  ∃ front before behind back,
    lines = front ++ (before ++ (phrase ++ behind)) :: back ∧
    regionAfter (regionAfterLines start front) before = place

theorem placed_iff
    (start place : Region)
    (phrase text : List Char) :
    Placed start place phrase text ↔
      ∃ index ≤ text.length, phrase <+: text.drop index ∧
        regionAfter start (text.take index) = place := by
  constructor
  · rintro ⟨front, rest, rfl, reached⟩
    refine ⟨front.length, by simp, ?_, ?_⟩
    · rw [List.drop_left]
      exact List.prefix_append phrase rest
    · rwa [List.take_left]
  · rintro ⟨index, -, ⟨rest, divided⟩, reached⟩
    exact ⟨text.take index, rest, by rw [divided, List.take_append_drop],
      reached⟩

/-- What is placed in code is left when comments are left out. -/
theorem Placed.isInfix_uncomment
    {phrase text : List Char}
    (unmarked : ∀ c ∈ phrase, c ≠ '/' ∧ c ≠ '*')
    (placed : Placed .code .code phrase text) :
    phrase <:+: uncomment .code text := by
  obtain ⟨front, rest, rfl, reached⟩ := placed
  cases phrase with
  | nil => exact List.nil_infix
  | cons c cs =>
      have first := unmarked c List.mem_cons_self
      have starts : StartsUnmarked (c :: cs ++ rest) :=
        ⟨by simpa using first.1, by simpa using first.2⟩
      rw [uncomment_append starts, reached,
        uncomment_code_append fun member => (unmarked '/' member).1 rfl]
      exact ⟨uncomment .code front, uncomment .code rest, by simp⟩

instance (start place : Region) (phrase text : List Char) :
    Decidable (Placed start place phrase text) :=
  decidable_of_iff' _ (placed_iff start place phrase text)

namespace PlacedIn

variable {start place : Region} {phrase : List Char} {lines : List (List Char)}

theorem placed_joinFields (placed : PlacedIn start place phrase lines) :
    Placed start place phrase (joinFields ['\n'] lines) := by
  obtain ⟨front, before, behind, back, rfl, reached⟩ := placed
  induction front generalizing start with
  | nil =>
      cases back with
      | nil => exact ⟨before, behind, rfl, reached⟩
      | cons next more =>
          refine ⟨before, behind ++ '\n' :: joinFields ['\n'] (next :: more),
            ?_, reached⟩
          rw [List.nil_append, joinFields_cons _ (List.cons_ne_nil next more)]
          simp
  | cons line rest inductionHypothesis =>
      obtain ⟨text, behind', divided, reached⟩ := inductionHypothesis reached
      refine ⟨line ++ '\n' :: text, behind', ?_, ?_⟩
      · rw [List.cons_append, joinFields_cons _ (by simp), divided]
        simp
      · rw [regionAfter_append_newline, reached]

theorem append_right
    (placed : PlacedIn start place phrase lines)
    (more : List (List Char)) :
    PlacedIn start place phrase (lines ++ more) := by
  obtain ⟨front, before, behind, back, rfl, reached⟩ := placed
  exact ⟨front, before, behind, back ++ more, by simp, reached⟩

theorem append_left
    (front : List (List Char))
    (placed : PlacedIn (regionAfterLines start front) place phrase lines) :
    PlacedIn start place phrase (front ++ lines) := by
  obtain ⟨front', before, behind, back, rfl, reached⟩ := placed
  refine ⟨front ++ front', before, behind, back, by simp, ?_⟩
  rw [regionAfterLines_append, reached]

/-- Characters before the first line only have to lead to where it starts. -/
theorem append_first
    {start' : Region}
    {first : List Char}
    {more : List (List Char)}
    (placed : PlacedIn start' place phrase (first :: more))
    (taken : List Char)
    (passes : ∀ text, text <+: first →
      regionAfter start (taken ++ text) = regionAfter start' text) :
    PlacedIn start place phrase ((taken ++ first) :: more) := by
  obtain ⟨front, before, behind, back, divided, reached⟩ := placed
  cases front with
  | nil =>
      rw [List.nil_append, List.cons.injEq] at divided
      obtain ⟨rfl, rfl⟩ := divided
      refine ⟨[], taken ++ before, behind, more, by simp, ?_⟩
      rw [regionAfterLines_nil, passes before (List.prefix_append _ _)]
      exact reached
  | cons line rest =>
      rw [List.cons_append, List.cons.injEq] at divided
      obtain ⟨rfl, rfl⟩ := divided
      refine ⟨(taken ++ first) :: rest, before, behind, back, rfl, ?_⟩
      rw [regionAfterLines_cons, passes first (List.prefix_refl first),
        ← regionAfterLines_cons]
      exact reached

end PlacedIn

/-! ## Stretches rewritten -/

/-- Two stretches lead from one region to another, whatever follows them, and
neither starts with a character of a comment mark. -/
structure IsNeutral (taken written : List Char) : Prop where
  present : taken ≠ []
  present' : written ≠ []
  unmarked : StartsUnmarked taken
  unmarked' : StartsUnmarked written
  leads : ∀ region, ∃ reached, ∀ rest,
    regionAfter region (taken ++ rest) = regionAfter reached rest ∧
    regionAfter region (written ++ rest) = regionAfter reached rest

/-- The second text is the first one with some stretches written as others. -/
inductive Rewritten (swaps : List Char → List Char → Prop) :
    List Char → List Char → Prop
  | nil : Rewritten swaps [] []
  | keep {first second : List Char} (c : Char)
      (tail : Rewritten swaps first second) :
      Rewritten swaps (c :: first) (c :: second)
  | swap {taken written first second : List Char}
      (allowed : swaps taken written)
      (tail : Rewritten swaps first second) :
      Rewritten swaps (taken ++ first) (written ++ second)

namespace Rewritten

variable {swaps : List Char → List Char → Prop} {first second : List Char}

/-- A mark of a comment that leads one of the texts is kept. -/
theorem cases_head
    (rewritten : Rewritten swaps first second)
    (neutral : ∀ taken written, swaps taken written → IsNeutral taken written) :
    (StartsUnmarked first ∧ StartsUnmarked second) ∨
      ∃ c first' second', first = c :: first' ∧ second = c :: second' ∧
        Rewritten swaps first' second' := by
  cases rewritten with
  | nil => exact Or.inl ⟨by simp [StartsUnmarked], by simp [StartsUnmarked]⟩
  | keep c tail => exact Or.inr ⟨c, _, _, rfl, rfl, tail⟩
  | swap allowed tail =>
      have fits := neutral _ _ allowed
      refine Or.inl ⟨?_, ?_⟩
      · obtain ⟨c, cs, rfl⟩ := List.exists_cons_of_ne_nil fits.present
        exact fits.unmarked
      · obtain ⟨c, cs, rfl⟩ := List.exists_cons_of_ne_nil fits.present'
        exact fits.unmarked'

/-- Neutral stretches move no place to another region. -/
theorem regionAfter_eq
    (neutral : ∀ taken written, swaps taken written → IsNeutral taken written)
    (rewritten : Rewritten swaps first second)
    (region : Region) :
    regionAfter region second = regionAfter region first := by
  -- A comment mark takes two steps of the relation.
  induction length : first.length using Nat.strong_induction_on
    generalizing first second region with
  | _ length inductionHypothesis =>
  subst length
  cases rewritten with
  | nil => rfl
  | swap allowed tail =>
      have fits := neutral _ _ allowed
      obtain ⟨reached, leads⟩ := fits.leads region
      rw [(leads _).1, (leads _).2]
      refine inductionHypothesis _ ?_ tail reached rfl
      simpa using List.length_pos_iff.mpr fits.present
  | @keep first second c tail =>
      have later : ∀ region, regionAfter region second =
          regionAfter region first := fun region =>
        inductionHypothesis _ (by simp) tail region rfl
      rcases tail.cases_head neutral with ⟨unmarked, unmarked'⟩ |
        ⟨d, first, second, rfl, rfl, behind⟩
      · cases region with
        | code =>
            rw [regionAfter_code_cons fun _ => unmarked,
              regionAfter_code_cons fun _ => unmarked', later]
        | block =>
            rw [regionAfter_block_cons fun _ => unmarked.1,
              regionAfter_block_cons fun _ => unmarked'.1, later]
        | remark =>
            by_cases isEnd : c = '\n'
            · rw [isEnd, regionAfter_newline, regionAfter_newline, later]
            · rw [regionAfter_remark_cons isEnd, regionAfter_remark_cons isEnd,
                later]
      · rcases regionAfter_cons_cons region c d with
          ⟨reached, leads⟩ | ⟨reached, leads⟩
        · rw [leads, leads]
          refine inductionHypothesis _ ?_ behind reached rfl
          simp only [List.length_cons]
          omega
        · rw [leads, leads, later]

end Rewritten

/-- Replacement rewrites what stands before a phrase, if it keeps the phrase and
whatever it finds before the phrase ends there. -/
theorem exists_rewritten_replaceFrom
    {search : Search}
    {swaps : List Char → List Char → Prop}
    {behind kept : List Char}
    {front : List Char}
    {before : Option Char}
    (stays : replaceFrom search 0 (front.getLast?.or before) behind = kept)
    (fits : ∀ passed rest occurrence, front = passed ++ rest → rest ≠ [] →
      search (passed.getLast?.or before) (rest ++ behind) = some occurrence →
      ∃ taken left, rest = taken ++ left ∧ taken ≠ [] ∧
        occurrence.length = taken.length ∧
        swaps taken occurrence.replacement) :
    ∃ front', replaceFrom search 0 before (front ++ behind) = front' ++ kept ∧
      Rewritten swaps front front' := by
  induction length : front.length using Nat.strong_induction_on
    generalizing front before with
  | _ length inductionHypothesis =>
  subst length
  cases front with
  | nil => exact ⟨[], stays, .nil⟩
  | cons c cs =>
      cases finding : search before (c :: cs ++ behind) with
      | none =>
          rw [getLast?_cons_or] at stays
          obtain ⟨front', walked, rewritten⟩ :=
            inductionHypothesis _ (by simp) stays (fun passed rest occurrence
              divided present found => fits (c :: passed) rest occurrence
                (by rw [divided, List.cons_append]) present
                (by rw [getLast?_cons_or, found])) rfl
          refine ⟨c :: front', ?_, .keep c rewritten⟩
          rw [List.cons_append] at finding ⊢
          rw [replaceFrom_kept finding, walked, List.cons_append]
      | some occurrence =>
          obtain ⟨taken, left, divided, present, length, allowed⟩ :=
            fits [] (c :: cs) occurrence rfl (List.cons_ne_nil c cs) finding
          rw [divided] at stays finding fits inductionHypothesis ⊢
          rw [getLast?_append_or present] at stays
          obtain ⟨front', walked, rewritten⟩ :=
            inductionHypothesis left.length
              (by simpa using List.length_pos_iff.mpr present) stays
              (fun passed rest occurrence divided isLeft found =>
                fits (taken ++ passed) rest occurrence
                  (by rw [divided, List.append_assoc]) isLeft
                  (by rw [getLast?_append_or present, found])) rfl
          refine ⟨occurrence.replacement ++ front', ?_, .swap allowed rewritten⟩
          rw [List.append_assoc] at finding ⊢
          have found : search before (taken ++ (left ++ behind)) =
              some ⟨taken.length, occurrence.replacement⟩ := by
            rw [← length, ← finding]
          rw [replaceFrom_found found present, walked, List.append_assoc]

end Shader
end ShaderLift
