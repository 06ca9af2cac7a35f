import ShaderLift.Proofs.Layout
import ShaderLift.Proofs.Margin

/-!
# Runs of blank lines

Every run of blank lines shrinks to one blank line.  What is left has no such
run, so nothing changes when it is shrunk again, and the lines that went were
blank.
-/

namespace ShaderLift
namespace Shader

open Text

/-! ## The search -/

/-- How many line ends stand among the blanks that a text starts with. -/
def leadingLineEnds (text : List Char) : Nat :=
  (text.takeWhile isBlank).count '\n'

theorem leadingLineEnds_newline (rest : List Char) :
    leadingLineEnds ('\n' :: rest) = leadingLineEnds rest + 1 := by
  rw [leadingLineEnds, List.takeWhile_cons_of_pos isBlank_newline,
    List.count_cons_self, leadingLineEnds]

theorem leadingLineEnds_blank
    {c : Char}
    (blank : isBlank c = true)
    (inLine : c ≠ '\n')
    (rest : List Char) :
    leadingLineEnds (c :: rest) = leadingLineEnds rest := by
  rw [leadingLineEnds, List.takeWhile_cons_of_pos blank,
    List.count_cons_of_ne inLine, leadingLineEnds]

theorem leadingLineEnds_visible
    {c : Char}
    (shown : isBlank c = false)
    (rest : List Char) : leadingLineEnds (c :: rest) = 0 := by
  rw [leadingLineEnds, List.takeWhile_cons_of_neg (by simp [shown])]
  rfl

/-- A run is found at a line end with two more among the blanks behind it. -/
theorem blankLines_eq_none_iff
    {before : Option Char}
    {c : Char}
    {rest : List Char} :
    blankLines before (c :: rest) = none ↔
      (c = '\n' → leadingLineEnds rest ≤ 1) := by
  rw [blankLines.eq_def]
  split
  · next rest equal =>
      obtain ⟨rfl, rfl⟩ := List.cons.inj equal
      dsimp only
      rw [List.count_cons_self, ← leadingLineEnds]
      split <;> simp <;> omega
  · next other =>
      simp only [true_iff]
      rintro rfl
      exact absurd rfl (other rest)

theorem getLast?_dropTrailing
    (drops : Char → Bool)
    (text : List Char) :
    ∀ c ∈ (dropTrailing drops text).getLast?, drops c = false := by
  induction text with
  | nil => simp
  | cons c cs inductionHypothesis =>
      rw [dropTrailing]
      split
      · next gone =>
          split
          · simp
          · next keeps => simpa using keeps
      · next kept =>
          intro d last
          refine inductionHypothesis d ?_
          rwa [Option.mem_def, List.getLast?_cons_of_ne_nil kept] at last

theorem leadingLineEnds_append
    {blanks rest : List Char}
    (blank : ∀ c ∈ blanks, isBlank c = true) :
    leadingLineEnds (blanks ++ rest) =
      blanks.count '\n' + leadingLineEnds rest := by
  rw [leadingLineEnds, List.takeWhile_append_of_pos blank, List.count_append,
    leadingLineEnds]

theorem leadingLineEnds_dropWhile (text : List Char) :
    leadingLineEnds (text.dropWhile isBlank) = 0 := by
  cases left : text.dropWhile isBlank with
  | nil => rfl
  | cons c rest =>
      have shown := List.head?_dropWhile_not isBlank text
      rw [left] at shown
      exact leadingLineEnds_visible (by simpa using shown) rest

/-- What is found starts and ends with a line end, has another one in between,
and there is none among the blanks behind it. -/
theorem exists_inner_of_blankLines
    {before : Option Char}
    {text : List Char}
    {occurrence : Occurrence}
    (found : blankLines before text = some occurrence) :
    ∃ inner rest, text = '\n' :: (inner ++ '\n' :: rest) ∧
      occurrence = ⟨inner.length + 2, ['\n', '\n']⟩ ∧
      (∀ c ∈ inner, isBlank c = true) ∧ '\n' ∈ inner ∧
      leadingLineEnds rest = 0 := by
  unfold blankLines at found
  split at found
  case h_2 => contradiction
  next behind =>
    dsimp only at found
    split at found
    case isFalse => contradiction
    next three =>
      rw [Option.some.injEq] at found
      rw [← found, throughLastLineEnd]
      obtain ⟨dropped, divided, unbroken⟩ := exists_dropped_of_dropTrailing
        (· != '\n') ('\n' :: behind.takeWhile isBlank)
      have ends := getLast?_dropTrailing (· != '\n')
        ('\n' :: behind.takeWhile isBlank)
      generalize dropTrailing (· != '\n') _ = run at divided ends
      have blank : ∀ c ∈ run ++ dropped, isBlank c = true := by
        rw [← divided]
        exact List.forall_mem_cons.mpr
          ⟨isBlank_newline, fun c member => List.mem_takeWhile_imp member⟩
      have noEnd : dropped.count '\n' = 0 := List.count_eq_zero.mpr
        fun member => absurd (unbroken '\n' member) (by decide)
      rw [divided, List.count_append, noEnd] at three
      -- The run has three line ends, so it is one, something and another one.
      rcases List.eq_nil_or_concat run with rfl | ⟨front, last, whole⟩
      · simp at three
      · rw [List.concat_eq_append] at whole
        subst whole
        obtain rfl : last = '\n' := by simpa using ends
        cases front with
        | nil => simp at three
        | cons first inner =>
            obtain ⟨rfl, same⟩ : '\n' = first ∧ behind.takeWhile isBlank =
                inner ++ '\n' :: dropped := by simpa using divided
            refine ⟨inner, dropped ++ behind.dropWhile isBlank, ?_, ?_, ?_, ?_,
              ?_⟩
            · have whole : (inner ++ '\n' :: dropped) ++
                  behind.dropWhile isBlank = behind := by
                rw [← same, List.takeWhile_append_dropWhile]
              rw [List.append_assoc, List.cons_append] at whole
              exact congrArg ('\n' :: ·) whole.symm
            · simp
            · exact fun c member => blank c (by simp [member])
            · rw [List.cons_append, List.count_cons_self, List.count_append,
                List.count_singleton_self] at three
              exact List.count_pos_iff.mp (by omega)
            · rw [leadingLineEnds_append fun c member =>
                blank c (by simp [member]), noEnd, leadingLineEnds_dropWhile]

/-- The characters that a run of blank lines takes. -/
theorem exists_inner_of_taken
    {before : Option Char}
    {taken rest replacement : List Char}
    (found : blankLines before (taken ++ rest) =
      some ⟨taken.length, replacement⟩) :
    ∃ inner, taken = '\n' :: (inner ++ ['\n']) ∧ replacement = ['\n', '\n'] ∧
      (∀ c ∈ inner, isBlank c = true) ∧ '\n' ∈ inner ∧
      leadingLineEnds rest = 0 := by
  obtain ⟨inner, behind, divided, occurrence, blank, another, none⟩ :=
    exists_inner_of_blankLines found
  obtain ⟨length, written⟩ := Occurrence.mk.injEq .. ▸ occurrence
  obtain ⟨rfl, rfl⟩ : taken = '\n' :: (inner ++ ['\n']) ∧ rest = behind := by
    refine List.append_inj ?_ (by simpa using length)
    simpa using divided
  exact ⟨inner, rfl, written, blank, another, none⟩

/-! ## What is left -/

/-- No line end has two more among the blanks behind it. -/
def IsCompact (text : List Char) : Prop :=
  ∀ rest, '\n' :: rest <:+ text → leadingLineEnds rest ≤ 1

theorem isCompact_cons
    {c : Char}
    {rest : List Char} :
    IsCompact (c :: rest) ↔
      (c = '\n' → leadingLineEnds rest ≤ 1) ∧ IsCompact rest := by
  simp only [IsCompact, List.suffix_cons_iff, List.cons.injEq]
  constructor
  · intro compact
    exact ⟨fun lineEnd => compact rest (Or.inl ⟨lineEnd.symm, rfl⟩),
      fun behind suffix => compact behind (Or.inr suffix)⟩
  · rintro ⟨first, later⟩ behind (⟨lineEnd, rfl⟩ | suffix)
    · exact first lineEnd.symm
    · exact later behind suffix

/-- A text without runs stays as it is. -/
theorem IsCompact.collapseBlankLines_eq
    {text : List Char}
    (compact : IsCompact text) : collapseBlankLines text = text := by
  suffices walk : ∀ before, replaceFrom blankLines 0 before text = text from
    walk none
  induction text with
  | nil => exact fun _ => rfl
  | cons c rest inductionHypothesis =>
      obtain ⟨first, later⟩ := isCompact_cons.mp compact
      intro before
      rw [replaceFrom_kept (blankLines_eq_none_iff.mpr first),
        inductionHypothesis later]

/-- Runs that shrink leave no run, and no more line ends at the start. -/
theorem isCompact_of_replaced
    {before : Option Char}
    {text written : List Char}
    (replaced : Replaced blankLines before text written) :
    IsCompact written ∧ leadingLineEnds written ≤ leadingLineEnds text := by
  induction replaced with
  | nil => exact ⟨by simp [IsCompact], Nat.le_refl _⟩
  | @keep before c rest written absent _ inductionHypothesis =>
      obtain ⟨compact, fewer⟩ := inductionHypothesis
      have first := blankLines_eq_none_iff.mp absent
      refine ⟨isCompact_cons.mpr
        ⟨fun lineEnd => Nat.le_trans fewer (first lineEnd), compact⟩, ?_⟩
      cases shown : isBlank c with
      | false =>
          rw [leadingLineEnds_visible shown, leadingLineEnds_visible shown]
      | true =>
          by_cases lineEnd : c = '\n'
          · rw [lineEnd, leadingLineEnds_newline, leadingLineEnds_newline]
            exact Nat.succ_le_succ fewer
          · rwa [leadingLineEnds_blank shown lineEnd,
              leadingLineEnds_blank shown lineEnd]
  | insert found =>
      obtain ⟨inner, rest, -, occurrence, -⟩ := exists_inner_of_blankLines found
      simp at occurrence
  | @replace before taken rest replacement written found _ _
      inductionHypothesis =>
      obtain ⟨inner, rfl, rfl, blank, another, none⟩ :=
        exists_inner_of_taken found
      obtain ⟨compact, fewer⟩ := inductionHypothesis
      rw [none, Nat.le_zero] at fewer
      have inside : 0 < inner.count '\n' := List.count_pos_iff.mpr another
      simp only [List.cons_append, List.append_assoc, List.nil_append,
        leadingLineEnds_newline, leadingLineEnds_append blank]
      refine ⟨isCompact_cons.mpr ⟨fun _ => ?_, isCompact_cons.mpr
        ⟨fun _ => ?_, compact⟩⟩, ?_⟩
      · rw [leadingLineEnds_newline, fewer]
      · rw [fewer]
        exact Nat.zero_le 1
      · omega

theorem isCompact_collapseBlankLines (code : List Char) :
    IsCompact (collapseBlankLines code) :=
  (isCompact_of_replaced (replaced_replaceAll isBounded_blankLines code)).1

/-- A part of a text without runs has none. -/
theorem IsCompact.of_isInfix
    {part text : List Char}
    (compact : IsCompact text)
    (isPart : part <:+: text) : IsCompact part := by
  obtain ⟨front, back, rfl⟩ := isPart
  intro rest suffix
  obtain ⟨passed, rfl⟩ := suffix
  have longer := compact (rest ++ back) ⟨front ++ passed, by simp⟩
  refine Nat.le_trans ?_ longer
  rw [leadingLineEnds, leadingLineEnds, List.takeWhile_append]
  split
  · rw [List.count_append]
    exact Nat.le_add_right_of_le ((List.takeWhile_sublist _).count_le _)
  · exact Nat.le_refl _

/-! ## Lines that go -/

/-- The second list is the first one without some of its blank lines.  A blank
line that stays may lose its blanks, and every other line stays as it is. -/
inductive Thinned : List (List Char) → List (List Char) → Prop
  | nil : Thinned [] []
  | keep {line : List Char} {lines kept : List (List Char)}
      (tail : Thinned lines kept) :
      Thinned (line :: lines) (line :: kept)
  | clear {line : List Char} {lines kept : List (List Char)}
      (blank : ∀ c ∈ line, isBlank c = true)
      (tail : Thinned lines kept) :
      Thinned (line :: lines) ([] :: kept)
  | drop {line : List Char} {lines kept : List (List Char)}
      (blank : ∀ c ∈ line, isBlank c = true)
      (tail : Thinned lines kept) :
      Thinned (line :: lines) kept

namespace Thinned

variable {lines kept : List (List Char)}

theorem append_left
    (tail : Thinned lines kept)
    (front : List (List Char)) : Thinned (front ++ lines) (front ++ kept) := by
  induction front with
  | nil => exact tail
  | cons line rest inductionHypothesis => exact .keep inductionHypothesis

theorem refl (lines : List (List Char)) : Thinned lines lines := by
  induction lines with
  | nil => exact .nil
  | cons line rest inductionHypothesis => exact .keep inductionHypothesis

theorem drop_blank
    {dropped : List (List Char)}
    (blank : ∀ line ∈ dropped, ∀ c ∈ line, isBlank c = true)
    (tail : Thinned lines kept) : Thinned (dropped ++ lines) kept := by
  induction dropped with
  | nil => exact tail
  | cons line rest inductionHypothesis =>
      obtain ⟨first, later⟩ := List.forall_mem_cons.mp blank
      exact .drop first (inductionHypothesis later)

theorem trans
    {fewer : List (List Char)}
    (first : Thinned lines kept)
    (second : Thinned kept fewer) : Thinned lines fewer := by
  induction first generalizing fewer with
  | nil => exact second
  | keep _ inductionHypothesis =>
      cases second with
      | keep tail => exact .keep (inductionHypothesis tail)
      | clear blank tail => exact .clear blank (inductionHypothesis tail)
      | drop blank tail => exact .drop blank (inductionHypothesis tail)
  | clear blank _ inductionHypothesis =>
      cases second with
      | keep tail => exact .clear blank (inductionHypothesis tail)
      | clear _ tail => exact .clear blank (inductionHypothesis tail)
      | drop _ tail => exact .drop blank (inductionHypothesis tail)
  | drop blank _ inductionHypothesis =>
      exact .drop blank (inductionHypothesis second)

end Thinned

theorem mem_of_mem_fields
    {separator c : Char}
    {text line : List Char}
    (member : line ∈ fields separator text)
    (among : c ∈ line) : c ∈ text := by
  induction text generalizing line with
  | nil =>
      rw [fields, List.mem_singleton] at member
      simp [member] at among
  | cons d ds inductionHypothesis =>
      rw [fields] at member
      split at member
      · rcases List.mem_cons.mp member with rfl | later
        · exact absurd among List.not_mem_nil
        · exact List.mem_cons_of_mem d (inductionHypothesis later among)
      · cases parts : fields separator ds with
        | nil => exact absurd parts (fields_ne_nil separator ds)
        | cons field rest =>
            rw [parts] at member inductionHypothesis
            rcases List.mem_cons.mp member with rfl | later
            · rcases List.mem_cons.mp among with rfl | inField
              · exact List.mem_cons_self
              · exact List.mem_cons_of_mem d
                  (inductionHypothesis List.mem_cons_self inField)
            · exact List.mem_cons_of_mem d
                (inductionHypothesis (List.mem_cons_of_mem field later) among)

/-- The first line of a text stays when runs shrink, and the others are thinned. -/
theorem exists_thinned_of_replaced
    {before : Option Char}
    {text written : List Char}
    (replaced : Replaced blankLines before text written) :
    ∃ line lines kept, fields '\n' text = line :: lines ∧
      fields '\n' written = line :: kept ∧ Thinned lines kept := by
  induction replaced with
  | nil => exact ⟨[], [], [], rfl, rfl, .nil⟩
  | @keep before c rest written _ _ inductionHypothesis =>
      obtain ⟨line, lines, kept, parts, parts', thinned⟩ := inductionHypothesis
      by_cases lineEnd : c = '\n'
      · subst lineEnd
        rw [fields_newline, fields_newline, parts, parts']
        exact ⟨[], _, _, rfl, rfl, .keep thinned⟩
      · have oneLine : '\n' ∉ [c] := by simpa using Ne.symm lineEnd
        exact ⟨c :: line, lines, kept, fields_append oneLine parts,
          fields_append oneLine parts', thinned⟩
  | insert found =>
      obtain ⟨inner, rest, -, occurrence, -⟩ := exists_inner_of_blankLines found
      simp at occurrence
  | @replace before taken rest replacement written found _ _
      inductionHypothesis =>
      obtain ⟨inner, rfl, rfl, blank, -⟩ := exists_inner_of_taken found
      obtain ⟨line, lines, kept, parts, parts', thinned⟩ := inductionHypothesis
      simp only [List.cons_append, List.append_assoc, List.nil_append,
        fields_newline, fields_append_separator, parts, parts']
      -- One of the lines in between stays as an empty line.
      cases between : fields '\n' inner with
      | nil => exact absurd between (fields_ne_nil '\n' inner)
      | cons first others =>
          have blanks : ∀ line ∈ first :: others,
              ∀ c ∈ line, isBlank c = true := fun line member c among =>
            blank c (mem_of_mem_fields (between ▸ member) among)
          obtain ⟨blankFirst, blankOthers⟩ := List.forall_mem_cons.mp blanks
          exact ⟨[], _, _, rfl, rfl,
            .clear blankFirst ((Thinned.keep thinned).drop_blank blankOthers)⟩

/-- Shrinking runs of blank lines thins the lines of a text. -/
theorem thinned_collapseBlankLines (code : List Char) :
    Thinned (fields '\n' code) (fields '\n' (collapseBlankLines code)) := by
  obtain ⟨line, lines, kept, parts, parts', thinned⟩ :=
    exists_thinned_of_replaced (replaced_replaceAll isBounded_blankLines code)
  rw [parts, collapseBlankLines, parts']
  exact .keep thinned

end Shader
end ShaderLift
