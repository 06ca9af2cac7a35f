import ShaderLift.Proofs.Breaking
import ShaderLift.Proofs.Layout

/-!
# Formatting and the gaps between characters

Formatting keeps every visible character in its place.  It never closes a gap,
and it opens one only behind an opening brace or before a closing one.  The
relation between the glyphs of the code and of the formatted text is proved for
the pieces of one line, then for all lines.
-/

namespace ShaderLift
namespace Shader

open Text

/-- The written glyphs are the original ones up to gaps: no gap closes, and one
opens only behind an opening brace or before a closing one.  The first argument
is the character before both. -/
inductive Loosened : Option Char → List Glyph → List Glyph → Prop
  | nil {before : Option Char} : Loosened before [] []
  | cons {before : Option Char} {c : Char} {old new : Gap}
      {original written : List Glyph}
      (kept : old ≠ .closed → new ≠ .closed)
      (opened : old = .closed → new ≠ .closed → before = some '{' ∨ c = '}')
      (tail : Loosened (some c) original written) :
      Loosened before (⟨old, c⟩ :: original) (⟨new, c⟩ :: written)

namespace Loosened

theorem refl
    (before : Option Char)
    (shown : List Glyph) : Loosened before shown shown := by
  induction shown generalizing before with
  | nil => exact .nil
  | cons glyph rest inductionHypothesis =>
      exact .cons id (fun same apart => absurd same apart)
        (inductionHypothesis _)

/-- The same character with the same gap may stand before both. -/
theorem same
    {before : Option Char}
    {c : Char}
    {gap : Gap}
    {original written : List Glyph}
    (tail : Loosened (some c) original written) :
    Loosened before (⟨gap, c⟩ :: original) (⟨gap, c⟩ :: written) :=
  .cons id (fun closed apart => absurd closed apart) tail

theorem append
    {before : Option Char}
    {first first' second second' : List Glyph}
    (start : Loosened before first first')
    (rest : ∀ context, Loosened context second second') :
    Loosened before (first ++ second) (first' ++ second') := by
  induction start with
  | nil => exact rest _
  | cons kept opened _ inductionHypothesis =>
      exact .cons kept opened inductionHypothesis

/-- Behind an opening brace any gap may open. -/
theorem after_opening
    {before : Option Char}
    {apart : Gap}
    {text : List Char}
    {written : List Glyph}
    (opens : apart ≠ .closed)
    (loosened : Loosened before (glyphsFrom apart text) written)
    (gap : Gap) :
    Loosened (some '{') (glyphsFrom gap text) written := by
  induction text generalizing gap apart with
  | nil =>
      cases loosened
      exact .nil
  | cons c cs inductionHypothesis =>
      cases shown : isBlank c with
      | true =>
          rw [glyphsFrom_cons_blank shown] at loosened ⊢
          exact inductionHypothesis (Gap.widen_ne_closed apart c) loosened _
      | false =>
          rw [glyphsFrom_cons_visible shown] at loosened ⊢
          cases loosened with
          | cons kept _ tail =>
              exact .cons (fun _ => kept opens) (fun _ _ => Or.inl rfl) tail

theorem length_eq
    {before : Option Char}
    {original written : List Glyph}
    (loosened : Loosened before original written) :
    written.length = original.length := by
  induction loosened with
  | nil => rfl
  | cons _ _ _ inductionHypothesis => simp [inductionHypothesis]

theorem map_char_eq
    {before : Option Char}
    {original written : List Glyph}
    (loosened : Loosened before original written) :
    written.map Glyph.char = original.map Glyph.char := by
  induction loosened with
  | nil => rfl
  | cons _ _ _ inductionHypothesis => simp [inductionHypothesis]

/-- Both sides can be divided at the same place. -/
theorem divide
    {before : Option Char}
    {original written : List Glyph}
    (loosened : Loosened before original written)
    (count : Nat) :
    Loosened before (original.take count) (written.take count) ∧
      Loosened (((original.take count).getLast?.map Glyph.char).or before)
        (original.drop count) (written.drop count) := by
  induction loosened generalizing count with
  | nil => simpa using Loosened.nil
  | @cons before c old new original written kept opened tail
      inductionHypothesis =>
      cases count with
      | zero => exact ⟨.nil, .cons kept opened tail⟩
      | succ count =>
          obtain ⟨start, rest⟩ := inductionHypothesis count
          refine ⟨.cons kept opened start, ?_⟩
          cases (original.take count).eq_nil_or_concat with
          | inl none => simpa [none] using rest
          | inr some =>
              obtain ⟨front, last, equal⟩ := some
              simpa [equal, List.getLast?_cons] using rest

end Loosened

/-! ## One line -/

/-- The pieces of a line have the glyphs of the line, with gaps opened at
braces only. -/
theorem loosened_of_broken
    {inside left : Bool}
    {line first : List Char}
    {more : List (List Char)}
    (broken : Broken inside line first more left)
    (gap : Gap)
    (before : Option Char) :
    Loosened before (glyphsFrom gap line)
      (glyphsFrom gap first ++ more.flatMap glyphs) := by
  -- The first piece goes on behind the same gap as the line; every other piece
  -- starts on a line of its own, behind an opening brace or with a closing one.
  induction broken generalizing gap before with
  | done => exact .nil
  | leave _ inductionHypothesis =>
      exact .same (.same (inductionHypothesis _ _))
  | @within c line first more left _ _ inductionHypothesis =>
      cases shown : isBlank c with
      | true =>
          rw [glyphsFrom_cons_blank shown, glyphsFrom_cons_blank shown]
          exact inductionHypothesis _ _
      | false =>
          rw [glyphsFrom_cons_visible shown, glyphsFrom_cons_visible shown]
          exact .same (inductionHypothesis _ _)
  | remark => simpa using Loosened.refl before _
  | enter _ inductionHypothesis =>
      exact .same (.same (inductionHypothesis _ _))
  | @openingRemark between line blank =>
      have original : glyphsFrom .closed (between ++ '/' :: '/' :: line) =
          glyphsFrom (gapAfter .closed between) ('/' :: '/' :: line) := by
        rw [glyphsFrom_append, glyphsFrom_of_blank blank, List.nil_append]
      have apart : Gap.blank ≠ .closed := by simp
      rw [glyphsFrom_cons_visible (by decide), original, List.flatMap_nil,
        List.append_nil]
      exact .same (.after_opening apart (.refl none _) _)
  | opening _ _ inductionHypothesis =>
      exact .same (.after_opening (by simp)
        (inductionHypothesis .lineEnd none) _)
  | closing _ inductionHypothesis =>
      exact .cons (by simp) (fun _ _ => Or.inr rfl) (inductionHypothesis _ _)
  | @plain c line first more left _ _ _ inductionHypothesis =>
      cases shown : isBlank c with
      | true =>
          rw [glyphsFrom_cons_blank shown, glyphsFrom_cons_blank shown]
          exact inductionHypothesis _ _
      | false =>
          rw [glyphsFrom_cons_visible shown, glyphsFrom_cons_visible shown]
          exact .same (inductionHypothesis _ _)

theorem loosened_of_splitLine
    (inside : Bool)
    (line : List Char)
    (before : Option Char) :
    Loosened before (glyphs line)
      ((splitLine inside line).1.flatMap glyphs) := by
  rcases splitLine_cases inside line with
    ⟨-, -, split⟩ | ⟨first, more, left, broken, split⟩
  · rw [split]
    simpa using Loosened.refl before (glyphs line)
  · rw [split, flatMap_glyphs_keepText]
    exact loosened_of_broken broken .lineEnd before

/-! ## All lines -/

theorem loosened_of_splitLines
    (inside : Bool)
    (lines : List (List Char))
    (before : Option Char) :
    Loosened before (lines.flatMap glyphs)
      ((splitLines inside lines).1.flatMap glyphs) := by
  induction lines generalizing inside before with
  | nil => exact .nil
  | cons line rest inductionHypothesis =>
      simp only [splitLines, List.flatMap_cons, List.flatMap_append]
      exact (loosened_of_splitLine inside line before).append
        (inductionHypothesis _)

/-- The glyphs of formatted code are those of the code, with gaps opened at
braces only. -/
theorem loosened_format (code : List Char) :
    Loosened none (glyphs code) (glyphs (format code)) := by
  rw [glyphs_format, ← flatMap_glyphs_fields code]
  exact loosened_of_splitLines false (fields '\n' code) none

/-! ## Neighbours -/

/-- The visible character with the given index and the next one, with exactly
the given blanks between them. -/
def Neighbours
    (text : List Char)
    (index : Nat)
    (left : Char)
    (between : List Char)
    (right : Char) : Prop :=
  ∃ before after, text = before ++ left :: (between ++ right :: after) ∧
    (visible before).length = index ∧ isBlank left = false ∧
    isBlank right = false ∧ ∀ c ∈ between, isBlank c = true

/-- Neighbours are consecutive glyphs. -/
theorem Neighbours.exists_glyphs
    {text : List Char}
    {index : Nat}
    {left right : Char}
    {between : List Char}
    (neighbours : Neighbours text index left between right) :
    ∃ first old new rest,
      glyphs text = first ++ ⟨old, left⟩ :: ⟨new, right⟩ :: rest ∧
      first.length = index ∧ (new = .closed ↔ between = []) := by
  obtain ⟨before, after, rfl, length, leftShown, rightShown, blank⟩ :=
    neighbours
  refine ⟨glyphs before, gapAfter .lineEnd before, gapAfter .closed between,
    glyphsFrom .closed after, ?_, ?_, gapAfter_closed_eq_closed_iff blank⟩
  · rw [glyphs, glyphsFrom_append, glyphsFrom_cons_visible leftShown,
      glyphsFrom_append, glyphsFrom_of_blank blank, List.nil_append,
      glyphsFrom_cons_visible rightShown, glyphs]
  · rw [glyphs, length_glyphsFrom, length]

/-- Consecutive glyphs are neighbours. -/
theorem exists_neighbours_of_glyphs
    {text : List Char}
    {first rest : List Glyph}
    {left right : Char}
    {old new : Gap}
    (shown : glyphs text = first ++ ⟨old, left⟩ :: ⟨new, right⟩ :: rest) :
    ∃ between, Neighbours text first.length left between right := by
  obtain ⟨before, behind, rfl, leftShown, start, -, next⟩ :=
    exists_place_of_glyph shown
  rw [← List.nil_append (_ :: rest)] at next
  obtain ⟨between, after, rfl, rightShown, nothing, -, -⟩ :=
    exists_place_of_glyph next
  refine ⟨between, before, after, rfl, ?_, leftShown, rightShown,
    blank_of_glyphsFrom_eq_nil nothing⟩
  rw [← length_glyphsFrom .lineEnd, start]

/-- What loosening does to two consecutive glyphs. -/
theorem Loosened.exists_of_glyphs
    {first written : List Glyph}
    {rest : List Glyph}
    {left right : Char}
    {old new : Gap}
    (loosened : Loosened none
      (first ++ ⟨old, left⟩ :: ⟨new, right⟩ :: rest) written) :
    ∃ first' old' new' rest',
      written = first' ++ ⟨old', left⟩ :: ⟨new', right⟩ :: rest' ∧
      first'.length = first.length ∧ (new ≠ .closed → new' ≠ .closed) ∧
      (new = .closed → new' ≠ .closed → left = '{' ∨ right = '}') := by
  obtain ⟨start, behind⟩ := loosened.divide first.length
  rw [List.take_left] at start
  rw [List.drop_left] at behind
  generalize equal : written.drop first.length = following at behind
  cases behind with
  | @cons _ _ _ old' _ written' _ _ tail =>
      cases tail with
      | @cons _ _ _ new' _ rest' kept opened _ =>
          refine ⟨written.take first.length, old', new', rest', ?_, ?_, kept,
            by simpa using opened⟩
          · rw [← equal, List.take_append_drop]
          · exact start.length_eq

/-- Formatting keeps the visible characters in order.  Of any two neighbours,
those that blanks divide stay divided, and those that nothing divides stay
together unless the left one opens or the right one closes a brace. -/
theorem format_keeps_characters_and_gaps (code : List Char) :
    visible (format code) = visible code ∧
    ∀ index left between right, Neighbours code index left between right →
      (∃ between', Neighbours (format code) index left between' right) ∧
      ∀ between', Neighbours (format code) index left between' right →
        (between ≠ [] → between' ≠ []) ∧
        (between = [] → between' ≠ [] → left = '{' ∨ right = '}') := by
  have loosened := loosened_format code
  constructor
  · rw [← map_char_glyphsFrom .lineEnd, ← map_char_glyphsFrom .lineEnd]
    exact loosened.map_char_eq
  · intro index left between right neighbours
    obtain ⟨first, old, new, rest, shown, length, closed⟩ :=
      neighbours.exists_glyphs
    rw [shown] at loosened
    obtain ⟨first', old', new', rest', written, length', kept, opened⟩ :=
      loosened.exists_of_glyphs
    rw [length] at length'
    constructor
    · rw [← length']
      exact exists_neighbours_of_glyphs written
    · intro between' neighbours'
      obtain ⟨first'', old'', new'', rest'', written', length'', closed'⟩ :=
        neighbours'.exists_glyphs
      have sameGap : new'' = new' := by
        have equal := written.symm.trans written'
        have divided := List.append_inj equal (length'.trans length''.symm)
        simp only [List.cons.injEq, Glyph.mk.injEq] at divided
        exact divided.2.2.1.1.symm
      rw [sameGap] at closed'
      rw [ne_eq, ne_eq, ← closed, ← closed']
      exact ⟨kept, opened⟩

end Shader
end ShaderLift
