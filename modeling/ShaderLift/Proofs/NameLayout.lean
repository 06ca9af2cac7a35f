import ShaderLift.Proofs.Spacing
import ShaderLift.Proofs.Standalone

/-!
# Formatting makes no new names

Where a name stands alone can be read off the glyphs of a text: its characters
are closed up, and the glyph before it is apart or one that no name attaches to.
Formatting opens gaps at braces only, and braces are no part of a name, so a
name stands alone in formatted code only where it did in the code.
-/

namespace ShaderLift
namespace Shader

open Text Name

/-! ## Names among glyphs -/

/-- Adjacent characters are glyphs with closed gaps. -/
theorem exists_append_iff_glyphs
    {word : List Char}
    (shown : ∀ c ∈ word, isBlank c = false)
    (text : List Char)
    (rest : List Glyph) :
    glyphsFrom .closed text = word.map (Glyph.mk .closed) ++ rest ↔
      ∃ after, text = word ++ after ∧ glyphsFrom .closed after = rest := by
  constructor
  · intro starts
    induction word generalizing text with
    | nil => exact ⟨text, rfl, starts⟩
    | cons c cs inductionHypothesis =>
        have cShown : isBlank c = false := shown c List.mem_cons_self
        rw [List.map_cons, List.cons_append] at starts
        obtain ⟨behind, rfl⟩ := List.head?_eq_some_iff.mp
          ((head?_eq_some_iff_glyphs cShown text).mpr ⟨_, starts⟩)
        rw [glyphsFrom_cons_visible cShown, List.cons.injEq] at starts
        obtain ⟨after, rfl, shownAfter⟩ := inductionHypothesis
          (fun d member => shown d (List.mem_cons_of_mem c member)) behind
          starts.2
        exact ⟨after, rfl, shownAfter⟩
  · rintro ⟨after, rfl, rfl⟩
    induction word with
    | nil => rfl
    | cons c cs inductionHypothesis =>
        have cShown : isBlank c = false := shown c List.mem_cons_self
        rw [List.cons_append, glyphsFrom_cons_visible cShown, List.map_cons,
          List.cons_append, inductionHypothesis fun d member =>
            shown d (List.mem_cons_of_mem c member)]

/-- A character to which a name would be attached is a glyph right before. -/
theorem attached_iff_glyphs (text : List Char) :
    text.getLast?.any attaches = true ↔
      gapAfter .lineEnd text = .closed ∧
        ((glyphs text).getLast?.map Glyph.char).any attaches = true := by
  rcases text.eq_nil_or_concat with rfl | ⟨front, c, rfl⟩
  · simp [gapAfter]
  · rw [List.concat_eq_append]
    cases shown : isBlank c with
    | true =>
        have gap : gapAfter .lineEnd (front ++ [c]) ≠ .closed := by
          rw [gapAfter_append, gapAfter_cons_blank shown]
          exact Gap.widen_ne_closed _ c
        simp [attaches_of_isBlank shown, gap]
    | false =>
        have gap : gapAfter .lineEnd (front ++ [c]) = .closed := by
          rw [gapAfter_append, gapAfter_cons_visible shown, gapAfter]
        have last :
            (glyphs (front ++ [c])).getLast?.map Glyph.char = some c := by
          rw [glyphs, glyphsFrom_append, glyphsFrom_cons_visible shown]
          simp
        rw [gap, last]
        simp

/-- The name stands alone among the glyphs. -/
def StandsShown
    (first : Char)
    (more : List Char)
    (followed : List Glyph → Prop)
    (shown : List Glyph) : Prop :=
  ∃ before gap after,
    shown = before ++ ⟨gap, first⟩ :: (more.map (Glyph.mk .closed) ++ after) ∧
    ¬ (gap = .closed ∧
      (before.getLast?.map Glyph.char).any attaches = true) ∧
    followed after

theorem standsIn_iff_standsShown
    {first : Char}
    {more : List Char}
    (shown : ∀ c ∈ first :: more, isBlank c = false)
    {followed : List Char → Prop}
    {followedShown : List Glyph → Prop}
    (same : ∀ after, followed after ↔ followedShown (glyphsFrom .closed after))
    (text : List Char) :
    StandsIn (first :: more) followed text ↔
      StandsShown first more followedShown (glyphs text) := by
  have firstShown : isBlank first = false := shown first List.mem_cons_self
  have moreShown : ∀ c ∈ more, isBlank c = false := fun c member =>
    shown c (List.mem_cons_of_mem first member)
  constructor
  · rintro ⟨before, after, rfl, free, next⟩
    have word := (exists_append_iff_glyphs moreShown _ _).mpr ⟨after, rfl, rfl⟩
    refine ⟨glyphs before, gapAfter .lineEnd before, glyphsFrom .closed after,
      ?_, ?_, (same after).mp next⟩
    · rw [glyphs, glyphsFrom_append, List.cons_append,
        glyphsFrom_cons_visible firstShown, word, glyphs]
    · rw [← attached_iff_glyphs, free]
      simp
  · rintro ⟨start, gap, shownAfter, equal, free, next⟩
    obtain ⟨before, behind, rfl, -, rfl, rfl, word⟩ :=
      exists_place_of_glyph equal
    obtain ⟨after, rfl, rfl⟩ := (exists_append_iff_glyphs moreShown _ _).mp word
    refine ⟨before, after, rfl, ?_, (same after).mpr next⟩
    rw [← glyphs, ← attached_iff_glyphs] at free
    exact Bool.not_eq_true _ |>.mp free

/-- What follows does not continue a word. -/
def EndsWordShown (after : List Glyph) : Prop :=
  ∀ c rest, after = ⟨.closed, c⟩ :: rest → isWord c = false

theorem endsWord_iff_shown (after : List Char) :
    EndsWord after ↔ EndsWordShown (glyphsFrom .closed after) := by
  constructor
  · intro ends c rest equal
    cases word : isWord c with
    | false => rfl
    | true =>
        have first : after.head? = some c :=
          (head?_eq_some_iff_glyphs (isBlank_of_isWord word) after).mpr
            ⟨rest, equal⟩
        simp [EndsWord, first, word] at ends
  · intro ends
    cases first : after.head? with
    | none => simp [EndsWord, first]
    | some c =>
        cases word : isWord c with
        | false => simp [EndsWord, first, word]
        | true =>
            obtain ⟨rest, equal⟩ :=
              (head?_eq_some_iff_glyphs (isBlank_of_isWord word) after).mp first
            simp [ends c rest equal] at word

/-- What follows is a plain assignment. -/
def StartsAssignmentShown (after : List Glyph) : Prop :=
  ∃ gap value, after = ⟨gap, '='⟩ :: value ∧
    ∀ rest, value ≠ ⟨.closed, '='⟩ :: rest

theorem startsAssignment_iff_shown (after : List Char) :
    StartsAssignment after ↔
      StartsAssignmentShown (glyphsFrom .closed after) := by
  have equals : isBlank '=' = false := by decide
  constructor
  · rintro ⟨between, value, rfl, blank, single⟩
    refine ⟨gapAfter .closed between, glyphsFrom .closed value, ?_,
      fun rest doubled => single ?_⟩
    · rw [glyphsFrom_append, glyphsFrom_of_blank blank, List.nil_append,
        glyphsFrom_cons_visible equals]
    · exact (head?_eq_some_iff_glyphs equals value).mpr ⟨rest, doubled⟩
  · rintro ⟨gap, shown, equal, single⟩
    rw [← List.nil_append (_ :: shown)] at equal
    obtain ⟨between, value, rfl, -, nothing, -, rfl⟩ :=
      exists_place_of_glyph equal
    refine ⟨between, value, rfl, blank_of_glyphsFrom_eq_nil nothing,
      fun doubled => ?_⟩
    obtain ⟨rest, starts⟩ :=
      (head?_eq_some_iff_glyphs equals value).mp doubled
    exact single rest starts

/-! ## Formatting -/

/-- Behind a word, what follows among the written glyphs followed among the
original ones. -/
def CarriesShown (followed : List Glyph → Prop) : Prop :=
  ∀ last original written, isWord last = true →
    Loosened (some last) original written → followed written → followed original

theorem carriesShown_endsWord : CarriesShown EndsWordShown := by
  rintro last original written isLast loosened ends c rest rfl
  cases loosened with
  | @cons _ _ _ new _ _ _ opened _ =>
      by_cases closed : new = .closed
      · exact ends c _ (by rw [closed])
      · have noBrace : isWord '{' = false ∧ isWord '}' = false := by
          decide +kernel
        rcases opened rfl closed with opening | rfl
        · rw [Option.some.injEq] at opening
          simp [opening, noBrace] at isLast
        · exact noBrace.2

theorem carriesShown_startsAssignment : CarriesShown StartsAssignmentShown := by
  rintro last original written - loosened ⟨gap, value, rfl, single⟩
  cases loosened with
  | @cons _ _ old _ shown _ _ _ tail =>
      refine ⟨old, shown, rfl, ?_⟩
      rintro rest rfl
      cases tail with
      | @cons _ _ _ new _ behind _ opened _ =>
          by_cases closed : new = .closed
          · exact single behind (by rw [closed])
          · simpa using opened rfl closed

/-- A word with closed gaps had closed gaps. -/
theorem exists_word_of_loosened
    {word : List Char}
    (allWord : ∀ c ∈ word, isWord c = true)
    {last : Char}
    (isLast : isWord last = true)
    {original after : List Glyph}
    (loosened : Loosened (some last) original
      (word.map (Glyph.mk .closed) ++ after)) :
    ∃ rest last, original = word.map (Glyph.mk .closed) ++ rest ∧
      isWord last = true ∧ Loosened (some last) rest after := by
  induction word generalizing last original with
  | nil => exact ⟨original, last, rfl, isLast, loosened⟩
  | cons c cs inductionHypothesis =>
      rw [List.map_cons, List.cons_append] at loosened
      cases loosened with
      | @cons _ _ old _ _ _ kept _ tail =>
          have closed : old = .closed := by
            by_cases closed : old = .closed
            · exact closed
            · exact absurd rfl (kept closed)
          obtain ⟨rest, last, rfl, isLast, tail⟩ := inductionHypothesis
            (fun d member => allWord d (List.mem_cons_of_mem c member))
            (allWord c List.mem_cons_self) tail
          exact ⟨rest, last, by rw [closed]; rfl, isLast, tail⟩

theorem standsShown_of_loosened
    {first : Char}
    {more : List Char}
    (allWord : ∀ c ∈ first :: more, isWord c = true)
    {followed : List Glyph → Prop}
    (carries : CarriesShown followed)
    {original written : List Glyph}
    (loosened : Loosened none original written)
    (stands : StandsShown first more followed written) :
    StandsShown first more followed original := by
  obtain ⟨before, gap, after, rfl, free, next⟩ := stands
  obtain ⟨start, behind⟩ := loosened.divide before.length
  rw [List.take_left] at start
  rw [List.drop_left, Option.or_none] at behind
  have sameLast := congrArg List.getLast? start.map_char_eq
  rw [List.getLast?_map, List.getLast?_map] at sameLast
  generalize divided : original.drop before.length = shown at behind
  cases behind with
  | @cons _ _ old _ shown _ kept opened tail =>
      obtain ⟨rest, last, rfl, isLast, tail⟩ := exists_word_of_loosened
        (fun c member => allWord c (List.mem_cons_of_mem first member))
        (allWord first List.mem_cons_self) tail
      refine ⟨original.take before.length, old, rest, ?_, ?_,
        carries last rest after isLast tail next⟩
      · rw [← divided, List.take_append_drop]
      · rintro ⟨closed, attached⟩
        by_cases stays : gap = .closed
        · exact free ⟨stays, by rwa [sameLast]⟩
        · -- A gap that opened lies at a brace, where no name begins or ends.
          have noBrace : attaches '{' = false ∧ isWord '}' = false := by
            decide +kernel
          rcases opened closed stays with opening | rfl
          · simp [opening, noBrace] at attached
          · have isFirst := allWord '}' List.mem_cons_self
            simp [noBrace] at isFirst

/-- Formatting does not bring a name back. -/
theorem standsIn_of_standsIn_format
    {first : Char}
    {more : List Char}
    (allWord : ∀ c ∈ first :: more, isWord c = true)
    {followed : List Char → Prop}
    {followedShown : List Glyph → Prop}
    (same : ∀ after, followed after ↔ followedShown (glyphsFrom .closed after))
    (carries : CarriesShown followedShown)
    {code : List Char}
    (stands : StandsIn (first :: more) followed (format code)) :
    StandsIn (first :: more) followed code := by
  have shown : ∀ c ∈ first :: more, isBlank c = false := fun c member =>
    isBlank_of_isWord (allWord c member)
  rw [standsIn_iff_standsShown shown same] at stands ⊢
  exact standsShown_of_loosened allWord carries (loosened_format code) stands

end Shader
end ShaderLift
