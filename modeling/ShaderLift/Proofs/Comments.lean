import ShaderLift.Proofs.Glyph

/-!
# Comments

Comments are taken out of a whole text by the rules of the shading language: a
`//` comment reaches to the end of its line, and a block comment to the next end
mark or to the end of the text.  What shows of the rest is a function of the
glyphs of the text: how wide a gap is does not matter, only whether it holds a
line end.
-/

namespace ShaderLift
namespace Shader

open Text

/-- Where a place of a text lies. -/
inductive Region
  | code
  /-- In a block comment. -/
  | block
  /-- In a `//` comment. -/
  | remark
deriving Repr, DecidableEq

/-- The text without its comments, read from a place in the given region. -/
def uncomment : Region → List Char → List Char
  | _, [] => []
  | .code, '/' :: '/' :: cs => uncomment .remark cs
  | .code, '/' :: '*' :: cs => uncomment .block cs
  | .code, c :: cs => c :: uncomment .code cs
  | .block, '*' :: '/' :: cs => uncomment .code cs
  | .block, _ :: cs => uncomment .block cs
  | .remark, '\n' :: cs => '\n' :: uncomment .code cs
  | .remark, _ :: cs => uncomment .remark cs

/-! ## Steps of the rules -/

@[simp] theorem uncomment_nil (region : Region) : uncomment region [] = [] := by
  rw [uncomment]

theorem uncomment_code_cons
    {c : Char}
    {rest : List Char}
    (stays : c = '/' → rest.head? ≠ some '/' ∧ rest.head? ≠ some '*') :
    uncomment .code (c :: rest) = c :: uncomment .code rest := by
  rw [uncomment]
  · rintro cs rfl rfl
    exact (stays rfl).1 rfl
  · rintro cs rfl rfl
    exact (stays rfl).2 rfl

theorem uncomment_block_cons
    {c : Char}
    {rest : List Char}
    (stays : c = '*' → rest.head? ≠ some '/') :
    uncomment .block (c :: rest) = uncomment .block rest := by
  rw [uncomment]
  rintro cs rfl rfl
  exact stays rfl rfl

theorem uncomment_remark_cons
    {c : Char}
    (stays : c ≠ '\n')
    (rest : List Char) :
    uncomment .remark (c :: rest) = uncomment .remark rest := by
  rw [uncomment]
  exact stays

/-- Without a slash all characters are of the code. -/
theorem uncomment_code_append
    {text : List Char}
    (noSlash : '/' ∉ text)
    (rest : List Char) :
    uncomment .code (text ++ rest) = text ++ uncomment .code rest := by
  induction text with
  | nil => rfl
  | cons c cs inductionHypothesis =>
      rw [List.mem_cons, not_or] at noSlash
      rw [List.cons_append, uncomment_code_cons (absurd · (Ne.symm noSlash.1)),
        inductionHypothesis noSlash.2, List.cons_append]

/-- Blanks are characters of the code. -/
theorem uncomment_code_blank
    {between : List Char}
    (blank : ∀ c ∈ between, isBlank c = true)
    (rest : List Char) :
    uncomment .code (between ++ rest) = between ++ uncomment .code rest :=
  uncomment_code_append
    (fun member => ne_of_isBlank (blank '/' member) (by decide) rfl) rest

/-- Blanks in a block comment are passed over. -/
theorem uncomment_block_blank
    {between : List Char}
    (blank : ∀ c ∈ between, isBlank c = true)
    (rest : List Char) :
    uncomment .block (between ++ rest) = uncomment .block rest := by
  induction between with
  | nil => rfl
  | cons c cs inductionHypothesis =>
      have star : c ≠ '*' :=
        ne_of_isBlank (blank c List.mem_cons_self) (by decide)
      rw [List.cons_append, uncomment_block_cons (absurd · star),
        inductionHypothesis fun d member =>
          blank d (List.mem_cons_of_mem c member)]

theorem uncomment_code_newline (rest : List Char) :
    uncomment .code ('\n' :: rest) = '\n' :: uncomment .code rest :=
  uncomment_code_cons fun slash => absurd slash (by decide)

theorem uncomment_remark_newline (rest : List Char) :
    uncomment .remark ('\n' :: rest) = '\n' :: uncomment .code rest := by
  rw [uncomment]

/-! ## Comments and glyphs -/

/-- The shortest text of a gap. -/
def Gap.text : Gap → List Char
  | .closed => []
  | .blank => [' ']
  | .lineEnd => ['\n']

/-- Glyphs written with the shortest gaps. -/
def respaced (shown : List Glyph) : List Char :=
  shown.flatMap fun glyph => Gap.text glyph.gap ++ [glyph.char]

theorem respaced_cons
    (gap : Gap)
    (c : Char)
    (rest : List Glyph) :
    respaced (⟨gap, c⟩ :: rest) = Gap.text gap ++ c :: respaced rest := by
  simp [respaced]

theorem blank_of_mem_text
    {gap : Gap}
    {c : Char}
    (member : c ∈ Gap.text gap) : isBlank c = true := by
  cases gap <;> simp [Gap.text] at member <;> rw [member] <;> decide

/-- What does not start a text does not start its glyphs. -/
theorem head?_respaced_ne
    {text : List Char}
    {c : Char}
    (shown : isBlank c = false)
    (absent : ∀ rest, text ≠ c :: rest) :
    (respaced (glyphsFrom .closed text)).head? ≠ some c := by
  intro first
  cases starts : glyphsFrom .closed text with
  | nil => simp [starts, respaced] at first
  | cons glyph rest =>
      obtain ⟨gap, d⟩ := glyph
      rw [starts, respaced_cons] at first
      cases gap with
      | closed =>
          obtain rfl : d = c := Option.some.inj first
          obtain ⟨more, equal⟩ := List.head?_eq_some_iff.mp
            ((head?_eq_some_iff_glyphs shown text).mpr ⟨rest, starts⟩)
          exact absent more equal
      | blank =>
          exact absurd (Option.some.inj first)
            (ne_of_isBlank isBlank_space shown)
      | lineEnd =>
          exact absurd (Option.some.inj first)
            (ne_of_isBlank isBlank_newline shown)

/-- A gap does not show, except that its line end closes a `//` comment. -/
theorem visible_uncomment_gap
    {region : Region}
    {gap : Gap}
    (stays : region = .remark → gap ≠ .lineEnd)
    (rest : List Char) :
    visible (uncomment region (Gap.text gap ++ rest)) =
      visible (uncomment region rest) := by
  have blank : ∀ c ∈ Gap.text gap, isBlank c = true := fun c =>
    blank_of_mem_text
  cases region with
  | code => rw [uncomment_code_blank blank, visible_blank_append blank]
  | block => rw [uncomment_block_blank blank]
  | remark =>
      cases gap with
      | closed => rfl
      | blank =>
          rw [Gap.text, List.singleton_append,
            uncomment_remark_cons (by decide)]
      | lineEnd => exact absurd rfl (stays rfl)

/-- Behind a line end a `//` comment is over. -/
theorem visible_uncomment_remark_respaced (text : List Char) :
    visible (uncomment .remark (respaced (glyphs text))) =
      visible (uncomment .code (respaced (glyphs text))) := by
  rw [glyphs]
  induction text with
  | nil => rfl
  | cons c cs inductionHypothesis =>
      cases shown : isBlank c with
      | true =>
          rw [glyphsFrom_cons_blank shown, Gap.widen_lineEnd]
          exact inductionHypothesis
      | false =>
          rw [glyphsFrom_cons_visible shown, respaced_cons, Gap.text,
            List.singleton_append, uncomment_remark_newline,
            uncomment_code_newline]

/-- The gap before a visible character does not show. -/
theorem visible_uncomment_shown
    {region : Region}
    {gap : Gap}
    (stays : region = .remark → gap ≠ .lineEnd)
    {c : Char}
    (shown : isBlank c = false)
    (rest : List Char) :
    visible (uncomment region (respaced (glyphsFrom gap (c :: rest)))) =
      visible (uncomment region (c :: respaced (glyphsFrom .closed rest))) := by
  rw [glyphsFrom_cons_visible shown, respaced_cons, visible_uncomment_gap stays]

/-- The two characters of a comment mark stay together. -/
theorem visible_uncomment_mark
    {region : Region}
    {gap : Gap}
    (stays : region = .remark → gap ≠ .lineEnd)
    {c d : Char}
    (firstShown : isBlank c = false)
    (secondShown : isBlank d = false)
    (rest : List Char) :
    visible (uncomment region (respaced (glyphsFrom gap (c :: d :: rest)))) =
      visible (uncomment region
        (c :: d :: respaced (glyphsFrom .closed rest))) := by
  rw [visible_uncomment_shown stays firstShown,
    glyphsFrom_cons_visible secondShown, respaced_cons, Gap.text,
    List.nil_append]

/-- The visible text outside comments depends on the glyphs alone. -/
theorem visible_uncomment_respaced
    (region : Region)
    (text : List Char)
    (gap : Gap)
    (stays : region = .remark → gap ≠ .lineEnd) :
    visible (uncomment region (respaced (glyphsFrom gap text))) =
      visible (uncomment region text) := by
  -- The gap before the text is generalised: blanks widen it one by one, and
  -- only a line end in a remark must not be passed over.
  fun_induction uncomment region text generalizing gap with
  | case1 region => simp [respaced]
  | case2 cs inductionHypothesis =>
      rw [visible_uncomment_mark stays (by decide) (by decide)]
      exact inductionHypothesis .closed (by simp)
  | case3 cs inductionHypothesis =>
      rw [visible_uncomment_mark stays (by decide) (by decide)]
      exact inductionHypothesis .closed (by simp)
  | case4 c cs noRemark noBlock inductionHypothesis =>
      cases shown : isBlank c with
      | true =>
          rw [glyphsFrom_cons_blank shown, inductionHypothesis _ (by simp)]
          simp [visible, shown]
      | false =>
          have stays' : c = '/' →
              (respaced (glyphsFrom .closed cs)).head? ≠ some '/' ∧
              (respaced (glyphsFrom .closed cs)).head? ≠ some '*' :=
            fun slash =>
              ⟨head?_respaced_ne (by decide) fun more => noRemark more slash,
                head?_respaced_ne (by decide) fun more => noBlock more slash⟩
          have behind := inductionHypothesis .closed (by simp)
          rw [visible_uncomment_shown stays shown, uncomment_code_cons stays']
          simpa [visible, shown] using behind
  | case5 cs inductionHypothesis =>
      rw [visible_uncomment_mark stays (by decide) (by decide)]
      exact inductionHypothesis .closed (by simp)
  | case6 c cs noEnd inductionHypothesis =>
      cases shown : isBlank c with
      | true =>
          rw [glyphsFrom_cons_blank shown]
          exact inductionHypothesis _ (by simp)
      | false =>
          rw [visible_uncomment_shown stays shown,
            uncomment_block_cons fun star =>
              head?_respaced_ne (by decide) fun more => noEnd more star]
          exact inductionHypothesis .closed (by simp)
  | case7 cs inductionHypothesis =>
      rw [glyphsFrom_cons_blank isBlank_newline, Gap.widen_newline, ← glyphs,
        visible_uncomment_remark_respaced, glyphs,
        inductionHypothesis _ (by simp)]
      simp [visible]
  | case8 c cs noEnd inductionHypothesis =>
      cases shown : isBlank c with
      | true =>
          rw [glyphsFrom_cons_blank shown]
          exact inductionHypothesis _ fun _ =>
            Gap.widen_ne_lineEnd (stays rfl) noEnd
      | false =>
          rw [visible_uncomment_shown stays shown, uncomment_remark_cons noEnd]
          exact inductionHypothesis .closed (by simp)

end Shader
end ShaderLift
