import Mathlib.Data.List.TakeWhile
import ShaderLift.Text.Blank
import ShaderLift.Text.Lines

/-!
# Glyphs

The glyphs of a text are its visible characters, each with the kind of gap
before it: none, blanks, or blanks with a line end among them.  The start of a
text counts as a line end.  What an operation on blanks leaves of a text is what
it does to the glyphs: trimming, indenting and joining lines change no glyph.
-/

namespace ShaderLift
namespace Text

/-- What stands between a visible character and the one before it. -/
inductive Gap
  /-- Nothing. -/
  | closed
  /-- Blanks, all on one line. -/
  | blank
  /-- Blanks with a line end among them. -/
  | lineEnd
deriving Repr, DecidableEq

/-- The gap after one more blank. -/
def Gap.widen (gap : Gap) (c : Char) : Gap :=
  if c = '\n' then .lineEnd
  else
    match gap with
    | .lineEnd => .lineEnd
    | _ => .blank

/-- A visible character and the gap before it. -/
structure Glyph where
  gap : Gap
  char : Char
deriving Repr, DecidableEq

/-- The glyphs of a text that stands behind a gap. -/
def glyphsFrom : Gap → List Char → List Glyph
  | _, [] => []
  | gap, c :: cs =>
      if isBlank c then glyphsFrom (gap.widen c) cs
      else ⟨gap, c⟩ :: glyphsFrom .closed cs

/-- The gap behind a text that stands behind a gap. -/
def gapAfter : Gap → List Char → Gap
  | gap, [] => gap
  | gap, c :: cs =>
      if isBlank c then gapAfter (gap.widen c) cs else gapAfter .closed cs

/-- The glyphs of a whole text. -/
def glyphs (text : List Char) : List Glyph :=
  glyphsFrom .lineEnd text

/-- The visible characters of a text. -/
def visible (text : List Char) : List Char :=
  text.filter fun c => !isBlank c

/-! ## Gaps -/

@[simp] theorem Gap.widen_lineEnd (c : Char) :
    Gap.lineEnd.widen c = .lineEnd := by
  unfold Gap.widen
  split <;> rfl

@[simp] theorem Gap.widen_newline (gap : Gap) :
    gap.widen '\n' = .lineEnd := by
  simp [Gap.widen]

theorem Gap.widen_ne_closed
    (gap : Gap)
    (c : Char) : gap.widen c ≠ .closed := by
  unfold Gap.widen
  split
  · simp
  · cases gap <;> simp

theorem Gap.widen_ne_lineEnd
    {gap : Gap}
    {c : Char}
    (sameLine : gap ≠ .lineEnd)
    (noEnd : c ≠ '\n') :
    gap.widen c ≠ .lineEnd := by
  cases gap with
  | lineEnd => exact absurd rfl sameLine
  | closed => simp [Gap.widen, noEnd]
  | blank => simp [Gap.widen, noEnd]

@[simp] theorem isBlank_newline : isBlank '\n' = true := by
  decide

@[simp] theorem isBlank_space : isBlank ' ' = true := by
  decide

theorem ne_of_isBlank
    {c d : Char}
    (blank : isBlank c = true)
    (shown : isBlank d = false) : c ≠ d := by
  rintro rfl
  simp [shown] at blank

/-! ## Visible characters -/

theorem visible_append (first second : List Char) :
    visible (first ++ second) = visible first ++ visible second :=
  List.filter_append ..

theorem visible_blank_append
    {between : List Char}
    (blank : ∀ c ∈ between, isBlank c = true)
    (rest : List Char) :
    visible (between ++ rest) = visible rest := by
  rw [visible, List.filter_append, List.filter_eq_nil_iff.mpr, List.nil_append,
    visible]
  simpa using blank

/-! ## Glyphs of parts of a text -/

@[simp] theorem glyphsFrom_nil (gap : Gap) : glyphsFrom gap [] = [] :=
  rfl

theorem glyphsFrom_cons_blank
    {c : Char}
    (blank : isBlank c = true)
    (gap : Gap)
    (cs : List Char) :
    glyphsFrom gap (c :: cs) = glyphsFrom (gap.widen c) cs := by
  rw [glyphsFrom, if_pos blank]

theorem glyphsFrom_cons_visible
    {c : Char}
    (shown : isBlank c = false)
    (gap : Gap)
    (cs : List Char) :
    glyphsFrom gap (c :: cs) = ⟨gap, c⟩ :: glyphsFrom .closed cs := by
  rw [glyphsFrom, if_neg (by simp [shown])]

theorem gapAfter_cons_blank
    {c : Char}
    (blank : isBlank c = true)
    (gap : Gap)
    (cs : List Char) :
    gapAfter gap (c :: cs) = gapAfter (gap.widen c) cs := by
  rw [gapAfter, if_pos blank]

theorem gapAfter_cons_visible
    {c : Char}
    (shown : isBlank c = false)
    (gap : Gap)
    (cs : List Char) :
    gapAfter gap (c :: cs) = gapAfter .closed cs := by
  rw [gapAfter, if_neg (by simp [shown])]

theorem glyphsFrom_append
    (gap : Gap)
    (first second : List Char) :
    glyphsFrom gap (first ++ second) =
      glyphsFrom gap first ++ glyphsFrom (gapAfter gap first) second := by
  induction first generalizing gap with
  | nil => rfl
  | cons c cs inductionHypothesis =>
      rw [List.cons_append]
      cases shown : isBlank c with
      | true =>
          rw [glyphsFrom_cons_blank shown, glyphsFrom_cons_blank shown,
            gapAfter_cons_blank shown, inductionHypothesis]
      | false =>
          rw [glyphsFrom_cons_visible shown, glyphsFrom_cons_visible shown,
            gapAfter_cons_visible shown, inductionHypothesis,
            List.cons_append]

theorem gapAfter_append
    (gap : Gap)
    (first second : List Char) :
    gapAfter gap (first ++ second) = gapAfter (gapAfter gap first) second := by
  induction first generalizing gap with
  | nil => rfl
  | cons c cs inductionHypothesis =>
      rw [List.cons_append]
      cases shown : isBlank c with
      | true =>
          rw [gapAfter_cons_blank shown, gapAfter_cons_blank shown,
            inductionHypothesis]
      | false =>
          rw [gapAfter_cons_visible shown, gapAfter_cons_visible shown,
            inductionHypothesis]

/-- The characters of the glyphs are the visible characters. -/
theorem map_char_glyphsFrom
    (gap : Gap)
    (text : List Char) : (glyphsFrom gap text).map Glyph.char = visible text := by
  induction text generalizing gap with
  | nil => rfl
  | cons c cs inductionHypothesis =>
      cases shown : isBlank c with
      | true =>
          rw [glyphsFrom_cons_blank shown, inductionHypothesis]
          simp [visible, shown]
      | false =>
          rw [glyphsFrom_cons_visible shown, List.map_cons, inductionHypothesis]
          simp [visible, shown]

theorem length_glyphsFrom
    (gap : Gap)
    (text : List Char) : (glyphsFrom gap text).length = (visible text).length := by
  rw [← map_char_glyphsFrom gap, List.length_map]

/-! ## Blanks -/

/-- Blanks have no glyphs. -/
theorem glyphsFrom_of_blank
    {text : List Char}
    (blank : ∀ c ∈ text, isBlank c = true)
    (gap : Gap) :
    glyphsFrom gap text = [] := by
  induction text generalizing gap with
  | nil => rfl
  | cons c cs inductionHypothesis =>
      rw [glyphsFrom_cons_blank (blank c List.mem_cons_self)]
      exact inductionHypothesis
        (fun d member => blank d (List.mem_cons_of_mem c member)) _

/-- Blanks keep a line end. -/
theorem gapAfter_lineEnd_of_blank
    {text : List Char}
    (blank : ∀ c ∈ text, isBlank c = true) :
    gapAfter .lineEnd text = .lineEnd := by
  induction text with
  | nil => rfl
  | cons c cs inductionHypothesis =>
      rw [gapAfter_cons_blank (blank c List.mem_cons_self), Gap.widen_lineEnd]
      exact inductionHypothesis fun d member =>
        blank d (List.mem_cons_of_mem c member)

/-- Blanks with a line end among them are a line end. -/
theorem gapAfter_of_newline
    {text : List Char}
    (blank : ∀ c ∈ text, isBlank c = true)
    (broken : '\n' ∈ text)
    (gap : Gap) :
    gapAfter gap text = .lineEnd := by
  induction text generalizing gap with
  | nil => simp at broken
  | cons c cs inductionHypothesis =>
      have tailBlank : ∀ d ∈ cs, isBlank d = true := fun d member =>
        blank d (List.mem_cons_of_mem c member)
      rw [gapAfter_cons_blank (blank c List.mem_cons_self)]
      rcases List.mem_cons.mp broken with first | later
      · rw [← first, Gap.widen_newline]
        exact gapAfter_lineEnd_of_blank tailBlank
      · exact inductionHypothesis tailBlank later _

/-- Nothing but an empty run of blanks leaves a closed gap closed. -/
theorem gapAfter_closed_eq_closed_iff
    {text : List Char}
    (blank : ∀ c ∈ text, isBlank c = true) :
    gapAfter .closed text = .closed ↔ text = [] := by
  constructor
  · intro closed
    cases reversed : text.reverse with
    | nil => simpa using reversed
    | cons c cs =>
        have divided : text = cs.reverse ++ [c] := by
          rw [← List.reverse_reverse text, reversed, List.reverse_cons]
        have lastBlank : isBlank c = true := blank c (by simp [divided])
        rw [divided, gapAfter_append, gapAfter_cons_blank lastBlank]
          at closed
        exact absurd closed (Gap.widen_ne_closed _ c)
  · rintro rfl
    rfl

theorem glyphs_blank_append
    {between : List Char}
    (blank : ∀ c ∈ between, isBlank c = true)
    (text : List Char) :
    glyphs (between ++ text) = glyphs text := by
  rw [glyphs, glyphsFrom_append, glyphsFrom_of_blank blank,
    gapAfter_lineEnd_of_blank blank, List.nil_append, glyphs]

theorem glyphsFrom_append_blank
    {between : List Char}
    (blank : ∀ c ∈ between, isBlank c = true)
    (gap : Gap)
    (text : List Char) :
    glyphsFrom gap (text ++ between) = glyphsFrom gap text := by
  rw [glyphsFrom_append, glyphsFrom_of_blank blank, List.append_nil]

/-- A line end divides the glyphs. -/
theorem glyphsFrom_append_newline
    (gap : Gap)
    (line rest : List Char) :
    glyphsFrom gap (line ++ '\n' :: rest) =
      glyphsFrom gap line ++ glyphs rest := by
  rw [glyphsFrom_append, glyphsFrom_cons_blank isBlank_newline,
    Gap.widen_newline, glyphs]

/-! ## From glyphs back to the text -/

theorem blank_of_glyphsFrom_eq_nil
    {gap : Gap}
    {text : List Char}
    (nothing : glyphsFrom gap text = []) :
    ∀ c ∈ text, isBlank c = true := by
  have hidden : visible text = [] := by
    rw [← map_char_glyphsFrom gap, nothing, List.map_nil]
  simpa [visible] using hidden

/-- A glyph stands for a place in the text. -/
theorem exists_place_of_glyph
    {gap : Gap}
    {text : List Char}
    {first rest : List Glyph}
    {glyph : Glyph}
    (shown : glyphsFrom gap text = first ++ glyph :: rest) :
    ∃ before after, text = before ++ glyph.char :: after ∧
      isBlank glyph.char = false ∧ glyphsFrom gap before = first ∧
      gapAfter gap before = glyph.gap ∧ glyphsFrom .closed after = rest := by
  induction text generalizing gap first with
  | nil => simp at shown
  | cons c cs inductionHypothesis =>
      cases blank : isBlank c with
      | true =>
          rw [glyphsFrom_cons_blank blank] at shown
          obtain ⟨before, after, rfl, visible, start, reached, behind⟩ :=
            inductionHypothesis shown
          refine ⟨c :: before, after, rfl, visible, ?_, ?_, behind⟩
          · rw [glyphsFrom_cons_blank blank, start]
          · rw [gapAfter_cons_blank blank, reached]
      | false =>
          rw [glyphsFrom_cons_visible blank] at shown
          cases first with
          | nil =>
              rw [List.nil_append, List.cons.injEq] at shown
              obtain ⟨rfl, behind⟩ := shown
              exact ⟨[], cs, rfl, blank, rfl, rfl, behind⟩
          | cons head tail =>
              rw [List.cons_append, List.cons.injEq] at shown
              obtain ⟨rfl, shown⟩ := shown
              obtain ⟨before, after, rfl, visible, start, reached, behind⟩ :=
                inductionHypothesis shown
              refine ⟨c :: before, after, rfl, visible, ?_, ?_, behind⟩
              · rw [glyphsFrom_cons_visible blank, start]
              · rw [gapAfter_cons_visible blank, reached]

/-- Behind an open gap no glyph is closed up. -/
theorem gap_ne_closed_of_glyphsFrom
    {gap : Gap}
    (apart : gap ≠ .closed)
    {text : List Char}
    {glyph : Glyph}
    {rest : List Glyph}
    (starts : glyphsFrom gap text = glyph :: rest) :
    glyph.gap ≠ .closed := by
  induction text generalizing gap with
  | nil => simp at starts
  | cons c cs inductionHypothesis =>
      cases shown : isBlank c with
      | true =>
          rw [glyphsFrom_cons_blank shown] at starts
          exact inductionHypothesis (Gap.widen_ne_closed gap c) starts
      | false =>
          rw [glyphsFrom_cons_visible shown, List.cons.injEq] at starts
          rw [← starts.1]
          exact apart

/-- The glyphs of a text start with a character right at its beginning. -/
theorem head?_eq_some_iff_glyphs
    {c : Char}
    (shown : isBlank c = false)
    (text : List Char) :
    text.head? = some c ↔
      ∃ rest, glyphsFrom .closed text = ⟨.closed, c⟩ :: rest := by
  cases text with
  | nil => simp
  | cons d ds =>
      cases blank : isBlank d with
      | true =>
          refine iff_of_false ?_ ?_
          · intro first
            rw [List.head?_cons, Option.some.injEq] at first
            exact ne_of_isBlank blank shown first
          · rintro ⟨rest, starts⟩
            rw [glyphsFrom_cons_blank blank] at starts
            exact gap_ne_closed_of_glyphsFrom (Gap.widen_ne_closed _ d)
              starts rfl
      | false => simp [glyphsFrom_cons_visible blank]

/-! ## Trimming and joining -/

/-- The lines of a text hold no line end. -/
theorem not_mem_of_mem_fields
    {separator : Char}
    {text line : List Char}
    (member : line ∈ fields separator text) : separator ∉ line := by
  induction text generalizing line with
  | nil =>
      rw [fields, List.mem_singleton] at member
      simp [member]
  | cons c cs inductionHypothesis =>
      rw [fields] at member
      split at member
      · rcases List.mem_cons.mp member with rfl | later
        · simp
        · exact inductionHypothesis later
      · next other =>
          cases parts : fields separator cs with
          | nil => exact absurd parts (fields_ne_nil separator cs)
          | cons field rest =>
              rw [parts] at member inductionHypothesis
              rcases List.mem_cons.mp member with rfl | later
              · rw [List.mem_cons, not_or]
                exact ⟨Ne.symm other, inductionHypothesis List.mem_cons_self⟩
              · exact inductionHypothesis (List.mem_cons_of_mem field later)

theorem fields_append
    {separator : Char}
    {front text field : List Char}
    {rest : List (List Char)}
    (absent : separator ∉ front)
    (parts : fields separator text = field :: rest) :
    fields separator (front ++ text) = (front ++ field) :: rest := by
  induction front with
  | nil => exact parts
  | cons c cs inductionHypothesis =>
      rw [List.mem_cons, not_or] at absent
      rw [List.cons_append, fields, if_neg (Ne.symm absent.1),
        inductionHypothesis absent.2, List.cons_append]

/-- A separator divides the fields. -/
theorem fields_append_separator
    (separator : Char)
    (front back : List Char) :
    fields separator (front ++ separator :: back) =
      fields separator front ++ fields separator back := by
  induction front with
  | nil => simp [fields]
  | cons c front inductionHypothesis =>
      rw [List.cons_append, fields, fields]
      split
      · rw [inductionHypothesis, List.cons_append]
      · rw [inductionHypothesis]
        cases parted : fields separator front with
        | nil => exact absurd parted (fields_ne_nil separator front)
        | cons field rest => rfl

theorem fields_of_not_mem
    {separator : Char}
    {text : List Char}
    (absent : separator ∉ text) : fields separator text = [text] := by
  have parted : fields separator (text ++ []) = [text ++ []] :=
    fields_append absent rfl
  rwa [List.append_nil] at parted

/-- What is dropped at the end satisfies the predicate. -/
theorem exists_dropped_of_dropTrailing
    (drops : Char → Bool)
    (text : List Char) :
    ∃ dropped, text = dropTrailing drops text ++ dropped ∧
      ∀ c ∈ dropped, drops c = true := by
  induction text with
  | nil => exact ⟨[], rfl, by simp⟩
  | cons c cs inductionHypothesis =>
      obtain ⟨dropped, equal, all⟩ := inductionHypothesis
      rw [dropTrailing]
      cases kept : dropTrailing drops cs with
      | nil =>
          rw [kept, List.nil_append] at equal
          by_cases drop : drops c = true
          · refine ⟨c :: dropped, by simp [drop, equal], ?_⟩
            simpa [drop] using all
          · exact ⟨dropped, by simp [drop, equal], all⟩
      | cons d ds =>
          rw [kept] at equal
          exact ⟨dropped, by simp [equal], all⟩

/-- Trimming takes blanks off both ends. -/
theorem exists_blanks_of_trim (text : List Char) :
    ∃ before after, text = before ++ trim text ++ after ∧
      (∀ c ∈ before, isBlank c = true) ∧ ∀ c ∈ after, isBlank c = true := by
  obtain ⟨after, equal, blank⟩ :=
    exists_dropped_of_dropTrailing isBlank (text.dropWhile isBlank)
  refine ⟨text.takeWhile isBlank, after, ?_, ?_, blank⟩
  · rw [trim, List.append_assoc, ← equal, List.takeWhile_append_dropWhile]
  · exact fun c member => List.mem_takeWhile_imp member

/-- Trimming changes no glyph. -/
theorem glyphs_trim (text : List Char) : glyphs (trim text) = glyphs text := by
  obtain ⟨before, after, equal, blankBefore, blankAfter⟩ :=
    exists_blanks_of_trim text
  calc
    glyphs (trim text) = glyphs (before ++ trim text) :=
      (glyphs_blank_append blankBefore (trim text)).symm
    _ = glyphs (before ++ trim text ++ after) :=
      (glyphsFrom_append_blank blankAfter .lineEnd (before ++ trim text)).symm
    _ = glyphs text := by rw [← equal]

/-- A line that is not the last one is joined by a line end. -/
theorem joinFields_cons
    (line : List Char)
    {rest : List (List Char)}
    (more : rest ≠ []) :
    joinFields ['\n'] (line :: rest) =
      line ++ '\n' :: joinFields ['\n'] rest := by
  rw [joinFields, List.append_assoc, List.singleton_append]
  exact more

/-- The glyphs of joined lines are the glyphs of the lines. -/
theorem glyphs_joinFields (lines : List (List Char)) :
    glyphs (joinFields ['\n'] lines) = lines.flatMap glyphs := by
  induction lines with
  | nil => rfl
  | cons line rest inductionHypothesis =>
      cases rest with
      | nil => simp [joinFields]
      | cons next more =>
          rw [joinFields_cons line (List.cons_ne_nil next more), glyphs,
            glyphsFrom_append_newline, inductionHypothesis]
          rfl

/-- The glyphs of a text are the glyphs of its lines. -/
theorem flatMap_glyphs_fields (text : List Char) :
    (fields '\n' text).flatMap glyphs = glyphs text := by
  rw [← glyphs_joinFields, joinFields_fields]

end Text
end ShaderLift
