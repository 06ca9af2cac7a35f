import ShaderLift.Proofs.Glyph
import ShaderLift.Proofs.Standalone
import ShaderLift.Shader.Define

/-!
# Margins

The margins of a line are the spaces and tabs before its text, and the spaces,
tabs and carriage returns behind it.  Two texts are alike if they are the same
line by line but for the margins.  A reader that goes over two such texts sees
the same visible characters, and blanks at the same places between them.
-/

namespace ShaderLift
namespace Shader

open Text Name

/-- Nothing but spaces and tabs, as they stand before the text of a line. -/
def IsIndent (text : List Char) : Prop :=
  ∀ c ∈ text, isSpaceOrTab c = true

/-- Nothing but spaces, tabs and carriage returns, as they stand behind the text
of a line. -/
def IsPadding (text : List Char) : Prop :=
  ∀ c ∈ text, Define.isPadding c = true

/-- A line without its margins. -/
def lineCore (line : List Char) : List Char :=
  dropTrailing Define.isPadding (line.dropWhile isSpaceOrTab)

/-- Two texts are the same but for the margins of their lines.  Both start
inside a line, behind its left margin. -/
inductive Alike : List Char → List Char → Prop
  | done {first second : List Char}
      (padding : IsPadding first)
      (padding' : IsPadding second) :
      Alike first second
  | same {first second : List Char} (c : Char)
      (tail : Alike first second) :
      Alike (c :: first) (c :: second)
  | line {first second closing closing' opening opening' : List Char}
      (padding : IsPadding closing)
      (padding' : IsPadding closing')
      (indent : IsIndent opening)
      (indent' : IsIndent opening')
      (tail : Alike first second) :
      Alike (closing ++ '\n' :: (opening ++ first))
        (closing' ++ '\n' :: (opening' ++ second))

/-- Two whole texts are the same but for the margins of their lines. -/
inductive AlikeText : List Char → List Char → Prop
  | intro {first second opening opening' : List Char}
      (indent : IsIndent opening)
      (indent' : IsIndent opening')
      (alike : Alike first second) :
      AlikeText (opening ++ first) (opening' ++ second)

/-! ## Margins are blank -/

theorem isBlank_of_isSpaceOrTab
    {c : Char}
    (spaced : isSpaceOrTab c = true) : isBlank c = true := by
  rw [isSpaceOrTab, Bool.or_eq_true, beq_iff_eq, beq_iff_eq] at spaced
  rcases spaced with rfl | rfl <;> decide

theorem isPadding_of_isSpaceOrTab
    {c : Char}
    (spaced : isSpaceOrTab c = true) : Define.isPadding c = true := by
  rw [Define.isPadding, spaced, Bool.true_or]

theorem isBlank_of_isPadding
    {c : Char}
    (padding : Define.isPadding c = true) : isBlank c = true := by
  rw [Define.isPadding, Bool.or_eq_true, beq_iff_eq] at padding
  rcases padding with spaced | rfl
  · exact isBlank_of_isSpaceOrTab spaced
  · decide

theorem IsIndent.isPadding
    {text : List Char}
    (indent : IsIndent text) : IsPadding text :=
  fun c member => isPadding_of_isSpaceOrTab (indent c member)

theorem IsPadding.blank
    {text : List Char}
    (padding : IsPadding text) : ∀ c ∈ text, isBlank c = true :=
  fun c member => isBlank_of_isPadding (padding c member)

theorem IsPadding.oneLine
    {text : List Char}
    (padding : IsPadding text) : '\n' ∉ text := by
  intro member
  exact absurd (padding '\n' member) (by decide)

theorem isPadding_nil : IsPadding [] :=
  List.forall_mem_nil _

theorem isIndent_nil : IsIndent [] :=
  List.forall_mem_nil _

/-- The margins between two lines are blank. -/
theorem blank_of_margins
    {closing opening : List Char}
    (padding : IsPadding closing)
    (indent : IsIndent opening) :
    ∀ c ∈ closing ++ '\n' :: opening, isBlank c = true := by
  intro c member
  rcases List.mem_append.mp member with closes | rest
  · exact padding.blank c closes
  · rcases List.mem_cons.mp rest with rfl | opens
    · exact isBlank_newline
    · exact indent.isPadding.blank c opens

theorem margins_append (closing opening text : List Char) :
    closing ++ '\n' :: (opening ++ text) =
      (closing ++ '\n' :: opening) ++ text := by
  simp

theorem exists_blank_of_margins
    {closing : List Char}
    (padding : IsPadding closing)
    (rest : List Char) :
    ∃ c more, closing ++ '\n' :: rest = c :: more ∧ isBlank c = true := by
  cases closing with
  | nil => exact ⟨'\n', rest, rfl, isBlank_newline⟩
  | cons c cs => exact ⟨c, _, rfl, padding.blank c List.mem_cons_self⟩

theorem dropWhile_append_newline (closing rest : List Char) :
    (closing ++ '\n' :: rest).dropWhile isSpaceOrTab =
      closing.dropWhile isSpaceOrTab ++ '\n' :: rest := by
  have stops : isSpaceOrTab '\n' = false := by decide
  rw [List.dropWhile_append]
  split
  · next empty =>
      rw [List.isEmpty_iff.mp empty,
        List.dropWhile_cons_of_neg (by simp [stops]), List.nil_append]
  · rfl

/-- No word starts with a blank. -/
theorem word_of_blank
    {text : List Char}
    (blank : ∀ c ∈ text.head?, isBlank c = true) :
    text.takeWhile isWord = [] ∧ text.dropWhile isWord = text := by
  cases text with
  | nil => exact ⟨rfl, rfl⟩
  | cons c cs =>
      have noWord : isWord c = false := isWord_of_isBlank (blank c rfl)
      exact ⟨by simp [noWord], by simp [noWord]⟩

/-! ## Reading two texts that are alike -/

namespace Alike

variable {first second : List Char}

theorem append_left
    (alike : Alike first second)
    (text : List Char) : Alike (text ++ first) (text ++ second) := by
  induction text with
  | nil => exact alike
  | cons c cs inductionHypothesis => exact .same c inductionHypothesis

/-- Both texts start with the same visible character, or neither starts with a
visible one. -/
theorem head_cases (alike : Alike first second) :
    (∃ c first' second', first = c :: first' ∧ second = c :: second' ∧
      isBlank c = false ∧ Alike first' second') ∨
    ((∀ c ∈ first.head?, isBlank c = true) ∧
      ∀ c ∈ second.head?, isBlank c = true) := by
  cases alike with
  | done padding padding' =>
      exact Or.inr ⟨fun c isHead => padding.blank c (List.mem_of_head? isHead),
        fun c isHead => padding'.blank c (List.mem_of_head? isHead)⟩
  | same c tail =>
      cases blank : isBlank c with
      | false => exact Or.inl ⟨c, _, _, rfl, rfl, blank, tail⟩
      | true => exact Or.inr ⟨by simp [blank], by simp [blank]⟩
  | @line _ _ _ _ opening opening' padding padding' _ _ tail =>
      obtain ⟨c, more, equal, blank⟩ :=
        exists_blank_of_margins padding (opening ++ _)
      obtain ⟨d, more', equal', blank'⟩ :=
        exists_blank_of_margins padding' (opening' ++ _)
      rw [equal, equal']
      exact Or.inr ⟨by simp [blank], by simp [blank']⟩

theorem dropWhile_isBlank (alike : Alike first second) :
    Alike (first.dropWhile isBlank) (second.dropWhile isBlank) := by
  induction alike with
  | done padding padding' =>
      rw [List.dropWhile_eq_nil_iff.mpr padding.blank,
        List.dropWhile_eq_nil_iff.mpr padding'.blank]
      exact .done isPadding_nil isPadding_nil
  | same c tail inductionHypothesis =>
      cases blank : isBlank c with
      | true => simpa [blank] using inductionHypothesis
      | false => simpa [blank] using Alike.same c tail
  | line padding padding' indent indent' _ inductionHypothesis =>
      rw [margins_append, margins_append,
        List.dropWhile_append_of_pos (blank_of_margins padding indent),
        List.dropWhile_append_of_pos (blank_of_margins padding' indent')]
      exact inductionHypothesis

/-- Both texts start with a blank, or neither does, or both are blank. -/
theorem startsBlank_cases (alike : Alike first second) :
    first.head?.any isBlank = second.head?.any isBlank ∨
      (first.dropWhile isBlank = [] ∧ second.dropWhile isBlank = []) := by
  cases alike with
  | done padding padding' =>
      exact Or.inr ⟨List.dropWhile_eq_nil_iff.mpr padding.blank,
        List.dropWhile_eq_nil_iff.mpr padding'.blank⟩
  | same c tail => exact Or.inl rfl
  | @line _ _ _ _ opening opening' padding padding' _ _ tail =>
      obtain ⟨c, more, equal, blank⟩ :=
        exists_blank_of_margins padding (opening ++ _)
      obtain ⟨d, more', equal', blank'⟩ :=
        exists_blank_of_margins padding' (opening' ++ _)
      rw [equal, equal']
      exact Or.inl (by simp [blank, blank'])

theorem dropWhile_isSpaceOrTab (alike : Alike first second) :
    Alike (first.dropWhile isSpaceOrTab) (second.dropWhile isSpaceOrTab) := by
  induction alike with
  | done padding padding' =>
      exact .done (fun c member => padding c (List.dropWhile_subset _ member))
        (fun c member => padding' c (List.dropWhile_subset _ member))
  | same c tail inductionHypothesis =>
      cases spaced : isSpaceOrTab c with
      | true => simpa [spaced] using inductionHypothesis
      | false => simpa [spaced] using Alike.same c tail
  | line padding padding' indent indent' tail _ =>
      rw [dropWhile_append_newline, dropWhile_append_newline]
      exact .line
        (fun c member => padding c (List.dropWhile_subset _ member))
        (fun c member => padding' c (List.dropWhile_subset _ member))
        indent indent' tail

/-- The longest word is the same, and what stands behind it is alike. -/
theorem word (alike : Alike first second) :
    first.takeWhile isWord = second.takeWhile isWord ∧
      Alike (first.dropWhile isWord) (second.dropWhile isWord) := by
  induction first generalizing second with
  | nil =>
      rcases alike.head_cases with ⟨_, _, _, absurd, -⟩ | ⟨-, blank⟩
      · contradiction
      · rw [(word_of_blank blank).1, (word_of_blank blank).2]
        exact ⟨rfl, alike⟩
  | cons c cs inductionHypothesis =>
      rcases alike.head_cases with ⟨d, first, rest, equal, rfl, -, tail⟩ |
        ⟨blank, blank'⟩
      · rw [List.cons.injEq] at equal
        obtain ⟨rfl, rfl⟩ := equal
        cases isLetter : isWord c with
        | true => simpa [isLetter] using inductionHypothesis tail
        | false => simpa [isLetter] using Alike.same c tail
      · rw [(word_of_blank blank).1, (word_of_blank blank).2,
          (word_of_blank blank').1, (word_of_blank blank').2]
        exact ⟨rfl, alike⟩

end Alike

/-! ## Trimming -/

theorem dropTrailing_append
    {drops : Char → Bool}
    {dropped : List Char}
    (all : ∀ c ∈ dropped, drops c = true)
    (text : List Char) :
    dropTrailing drops (text ++ dropped) = dropTrailing drops text := by
  have nothing : dropTrailing drops dropped = [] := by
    induction dropped with
    | nil => rfl
    | cons c cs inductionHypothesis =>
        obtain ⟨drop, rest⟩ := List.forall_mem_cons.mp all
        rw [dropTrailing, inductionHypothesis rest]
        simp [drop]
  induction text with
  | nil => exact nothing
  | cons c cs inductionHypothesis =>
      rw [List.cons_append, dropTrailing, inductionHypothesis, dropTrailing]

/-- Blanks that are dropped at the front may hide blanks that are dropped at the
end, so both kinds may go with the rest. -/
theorem dropTrailing_dropWhile_append
    {drops starts : Char → Bool}
    {dropped : List Char}
    (all : ∀ c ∈ dropped, drops c = true)
    (text : List Char) :
    dropTrailing drops ((text ++ dropped).dropWhile starts) =
      dropTrailing drops (text.dropWhile starts) := by
  rw [List.dropWhile_append]
  split
  · next empty =>
      have rest : ∀ c ∈ dropped.dropWhile starts, drops c = true :=
        fun c member => all c (List.dropWhile_subset _ member)
      rw [List.isEmpty_iff.mp empty]
      exact dropTrailing_append rest []
  · exact dropTrailing_append all _

theorem trim_append_blank
    {after : List Char}
    (blank : ∀ c ∈ after, isBlank c = true)
    (text : List Char) :
    trim (text ++ after) = trim text :=
  dropTrailing_dropWhile_append blank text

theorem trim_blank_append
    {before : List Char}
    (blank : ∀ c ∈ before, isBlank c = true)
    (text : List Char) :
    trim (before ++ text) = trim text := by
  rw [trim, List.dropWhile_append_of_pos blank, trim]

theorem lineCore_append
    {closing : List Char}
    (padding : IsPadding closing)
    (line : List Char) :
    lineCore (line ++ closing) = lineCore line :=
  dropTrailing_dropWhile_append padding line

/-- A line is its core between its margins. -/
theorem exists_margins_of_lineCore (line : List Char) :
    ∃ opening closing, line = opening ++ (lineCore line ++ closing) ∧
      IsIndent opening ∧ IsPadding closing := by
  obtain ⟨closing, equal, padding⟩ := exists_dropped_of_dropTrailing
    Define.isPadding (line.dropWhile isSpaceOrTab)
  refine ⟨line.takeWhile isSpaceOrTab, closing, ?_, ?_, padding⟩
  · rw [lineCore, ← equal, List.takeWhile_append_dropWhile]
  · exact fun c member => List.mem_takeWhile_imp member

/-! ## Lines -/

theorem fields_newline (rest : List Char) :
    fields '\n' ('\n' :: rest) = [] :: fields '\n' rest := by
  rw [fields, if_pos rfl]

theorem fields_append_newline
    {line : List Char}
    (oneLine : '\n' ∉ line)
    (rest : List Char) :
    fields '\n' (line ++ '\n' :: rest) = line :: fields '\n' rest := by
  rw [fields_append oneLine (fields_newline rest), List.append_nil]

/-- The rest of the first line is the same but for its right margin, and the
other lines are the same when trimmed. -/
def SameFields (first second : List Char) : Prop :=
  ∃ line closing closing' rest rest',
    fields '\n' first = (line ++ closing) :: rest ∧
    fields '\n' second = (line ++ closing') :: rest' ∧
    IsPadding closing ∧ IsPadding closing' ∧ rest.map trim = rest'.map trim

theorem SameFields.map_trim_fields
    {first second opening opening' : List Char}
    (same : SameFields first second)
    (indent : IsIndent opening)
    (indent' : IsIndent opening') :
    (fields '\n' (opening ++ first)).map trim =
      (fields '\n' (opening' ++ second)).map trim := by
  obtain ⟨line, closing, closing', rest, rest', parts, parts', padding,
    padding', trimmed⟩ := same
  rw [fields_append indent.isPadding.oneLine parts,
    fields_append indent'.isPadding.oneLine parts', List.map_cons,
    List.map_cons, trimmed, trim_blank_append indent.isPadding.blank,
    trim_blank_append indent'.isPadding.blank,
    trim_append_blank padding.blank, trim_append_blank padding'.blank]

theorem Alike.sameFields
    {first second : List Char}
    (alike : Alike first second) : SameFields first second := by
  induction alike with
  | @done first second padding padding' =>
      exact ⟨[], first, second, [], [], fields_of_not_mem padding.oneLine,
        fields_of_not_mem padding'.oneLine, padding, padding', rfl⟩
  | @same first second c _ inductionHypothesis =>
      by_cases isEnd : c = '\n'
      · subst isEnd
        exact ⟨[], [], [], _, _, fields_newline first, fields_newline second,
          isPadding_nil, isPadding_nil,
          inductionHypothesis.map_trim_fields isIndent_nil isIndent_nil⟩
      · obtain ⟨line, closing, closing', rest, rest', parts, parts', more⟩ :=
          inductionHypothesis
        have oneLine : '\n' ∉ [c] := by simpa using Ne.symm isEnd
        exact ⟨c :: line, closing, closing', rest, rest',
          fields_append oneLine parts, fields_append oneLine parts', more⟩
  | line padding padding' indent indent' _ inductionHypothesis =>
      exact ⟨[], _, _, _, _, fields_append_newline padding.oneLine _,
        fields_append_newline padding'.oneLine _, padding, padding',
        inductionHypothesis.map_trim_fields indent indent'⟩

/-- The lines of texts that are alike are the same when trimmed. -/
theorem AlikeText.map_trim_fields
    {first second : List Char}
    (alike : AlikeText first second) :
    (fields '\n' first).map trim = (fields '\n' second).map trim := by
  obtain ⟨indent, indent', alike⟩ := alike
  exact alike.sameFields.map_trim_fields indent indent'

end Shader
end ShaderLift
