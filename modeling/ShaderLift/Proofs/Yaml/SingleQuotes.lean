import ShaderLift.Proofs.Yaml.QuotedReader

/-!
# Texts between single quotes

A line feed that opens a run of line ends is written twice, and the reader drops
it again.  The next-line character is read as a line feed but is not written
twice, so it is folded: alone it becomes a space, and before another line end it
is lost.  A text comes back as it was exactly if it does not hold one.
-/

namespace ShaderLift
namespace Yaml

/-- What a text between single quotes is read as: its line ends, of which the
next-line character is read as a line feed, are folded where none was added. -/
def foldNextLines (afterBreak : Bool) : List Char → List Char
  | [] => []
  | c :: rest =>
      if c = '\x85' then
        if afterBreak then '\n' :: foldNextLines true rest
        else if rest.head?.any isBreak then foldNextLines true rest
        else ' ' :: foldNextLines true rest
      else c :: foldNextLines (isBreak c) rest

theorem foldNextLines_of_not_mem
    {text : List Char}
    (absent : '\x85' ∉ text)
    (afterBreak : Bool) : foldNextLines afterBreak text = text := by
  induction text generalizing afterBreak with
  | nil => rfl
  | cons c rest inductionHypothesis =>
      rw [List.mem_cons, not_or] at absent
      rw [foldNextLines, if_neg (Ne.symm absent.1), inductionHypothesis absent.2]

theorem not_mem_foldNextLines
    (afterBreak : Bool)
    (text : List Char) : '\x85' ∉ foldNextLines afterBreak text := by
  induction text generalizing afterBreak with
  | nil => simp [foldNextLines]
  | cons c rest inductionHypothesis =>
      rw [foldNextLines]
      split
      · split
        · simp [inductionHypothesis]
        · split
          · exact inductionHypothesis true
          · simp [inductionHypothesis]
      · rename_i other
        simp [inductionHypothesis, Ne.symm other]

/-- The texts without the next-line character are those that are read as they
were. -/
theorem foldNextLines_eq_self_iff
    (afterBreak : Bool)
    (text : List Char) : foldNextLines afterBreak text = text ↔ '\x85' ∉ text := by
  constructor
  · intro same
    rw [← same]
    exact not_mem_foldNextLines afterBreak text
  · intro absent
    exact foldNextLines_of_not_mem absent afterBreak

/-- Behind a line end the whole run of line ends is read one by one. -/
theorem foldNextLines_append
    {ends rest : List Char}
    (allEnds : ∀ c ∈ ends, isBreak c = true)
    (stops : rest.head?.any isBreak = false) :
    foldNextLines true (ends ++ rest) =
      ends.map readBreak ++ foldNextLines false rest := by
  induction ends with
  | nil =>
      cases rest with
      | nil => rfl
      | cons c more =>
          have other : c ≠ '\x85' := by
            rintro rfl
            exact nomatch stops
          simp only [List.nil_append, List.map_nil, foldNextLines, other, if_false]
  | cons c ends inductionHypothesis =>
      obtain ⟨isEnd, allEnds⟩ := List.forall_mem_cons.mp allEnds
      rw [List.cons_append, foldNextLines, List.map_cons, List.cons_append, readBreak]
      split
      · rw [if_pos rfl, inductionHypothesis allEnds]
      · rw [isEnd, inductionHypothesis allEnds]

/-- The line ends that are written for a run of them. -/
def writtenBreaks
    (previous : Option Char)
    (c : Char)
    (ends : List Char) : List Char :=
  (if c == '\n' && !previous.any isBreak then ['\n', c] else [c]) ++ ends

/-- A run of line ends is written at once, and then a margin. -/
theorem writeSingle_breaks
    (previous : Option Char)
    (column : Nat)
    {c : Char}
    {ends rest : List Char}
    (isEnd : isBreak c = true)
    (allEnds : ∀ d ∈ ends, isBreak d = true)
    (stops : rest.head?.any isBreak = false) :
    ∃ last, isBreak last = true ∧
      writeSingle previous column (c :: (ends ++ rest)) =
        writtenBreaks previous c ends ++
          (margin ++ writeSingle (some last) margin.length rest) := by
  induction ends generalizing previous column c with
  | nil =>
      refine ⟨c, isEnd, ?_⟩
      rw [List.nil_append, writeSingle]
      simp [isEnd, stops, writtenBreaks]
  | cons d ends inductionHypothesis =>
      obtain ⟨nextEnd, allEnds⟩ := List.forall_mem_cons.mp allEnds
      obtain ⟨last, lastEnd, written⟩ :=
        inductionHypothesis (some c) 0 nextEnd allEnds
      refine ⟨last, lastEnd, ?_⟩
      rw [writeSingle]
      simp only [isEnd, if_true, List.cons_append, List.head?_cons, Option.any_some,
        nextEnd, written]
      simp [writtenBreaks, isEnd]

/-- The rest of a text that is written between single quotes, with the
character before it. -/
structure FitsSingle (previous : Option Char) (text : List Char) : Prop where
  writable : ∀ c ∈ text, isWritable c = true
  noSpaceBehind : hasPair isBreak isSpace (previous.toList ++ text) = false
  noSpaceBefore : hasPair isSpace isBreak (previous.toList ++ text) = false

theorem hasPair_cons
    (first second : Char → Bool)
    (c : Char)
    (rest : List Char) :
    hasPair first second (c :: rest) =
      (first c && rest.head?.any second || hasPair first second rest) := by
  cases rest with
  | nil => simp [hasPair]
  | cons d more => rfl

theorem isSpace_of_isBreak
    {c : Char}
    (isEnd : isBreak c = true) : isSpace c = false := by
  simp only [isBreak, Bool.or_eq_true, beq_iff_eq] at isEnd
  rcases isEnd with ((rfl | rfl) | rfl) | rfl <;> rfl

namespace FitsSingle

variable {previous : Option Char} {c : Char} {text rest : List Char}

theorem tail (fits : FitsSingle previous (c :: rest)) :
    FitsSingle (some c) rest := by
  have drop : ∀ first second, hasPair first second (previous.toList ++ c :: rest) =
      false → hasPair first second (c :: rest) = false := by
    intro first second absent
    cases previous with
    | none => exact absent
    | some before =>
        rw [Option.toList_some, List.singleton_append, hasPair_cons,
          Bool.or_eq_false_iff] at absent
        exact absent.2
  exact
    { writable := fun d member => fits.writable d (List.mem_cons_of_mem c member)
      noSpaceBehind := drop _ _ fits.noSpaceBehind
      noSpaceBefore := drop _ _ fits.noSpaceBefore }

/-- Of the line end before a text it does not matter which one it is. -/
theorem of_isBreak
    {before : Char}
    (fits : FitsSingle (some c) text)
    (isEnd : isBreak c = true)
    (otherEnd : isBreak before = true) : FitsSingle (some before) text := by
  have noSpaceBehind := fits.noSpaceBehind
  have noSpaceBefore := fits.noSpaceBefore
  refine ⟨fits.writable, ?_, ?_⟩
  all_goals
    simp only [Option.toList_some, List.singleton_append, hasPair_cons, isEnd,
      otherEnd, isSpace_of_isBreak isEnd, isSpace_of_isBreak otherEnd] at *
    assumption

theorem behind_breaks
    {ends : List Char}
    {last : Char}
    (fits : FitsSingle previous (c :: (ends ++ rest)))
    (isEnd : isBreak c = true)
    (allEnds : ∀ d ∈ ends, isBreak d = true)
    (lastEnd : isBreak last = true) : FitsSingle (some last) rest := by
  induction ends generalizing previous c with
  | nil => exact fits.tail.of_isBreak isEnd lastEnd
  | cons d ends inductionHypothesis =>
      obtain ⟨nextEnd, allEnds⟩ := List.forall_mem_cons.mp allEnds
      exact inductionHypothesis fits.tail nextEnd allEnds

/-- Behind the last of a run of line ends or of spaces, no white space follows. -/
theorem isWhite_head
    (fits : FitsSingle previous text)
    (behind : previous.any isBreak = true ∧ text.head?.any isBreak = false ∨
      previous.any isSpace = true ∧ text.head?.any isSpace = false) :
    text.head?.any isWhite = false := by
  cases text with
  | nil => rfl
  | cons c rest =>
      cases previous with
      | none => simp at behind
      | some before =>
          have noTab : (c == '\t') = false := by
            apply beq_eq_false_iff_ne.mpr
            rintro rfl
            exact absurd (fits.writable _ List.mem_cons_self) (by decide)
          have spaceBehind := fits.noSpaceBehind
          have spaceBefore := fits.noSpaceBefore
          simp only [Option.toList_some, List.singleton_append, hasPair_cons,
            List.head?_cons, Option.any_some, Bool.or_eq_false_iff,
            Bool.and_eq_false_iff] at spaceBehind spaceBefore behind ⊢
          have white : isWhite c = (isSpace c || c == '\t' || isBreak c) := rfl
          rw [white, noTab]
          rcases behind with ⟨isEnd, other⟩ | ⟨space, other⟩
          · simp_all
          · simp_all

end FitsSingle

theorem fitsSingle_of_allowsSingle
    {text : List Char}
    (allowed : allowsSingle text = true) : FitsSingle none text := by
  simp only [allowsSingle, Bool.and_eq_true, Bool.not_eq_true', List.all_eq_true]
    at allowed
  exact ⟨allowed.1.1, allowed.1.2, allowed.2⟩

theorem startsVisible_writeSingle
    (previous : Option Char)
    (column : Nat)
    {text : List Char}
    (shown : text.head?.any isWhite = false)
    (left : List Char) :
    StartsVisible (writeSingle previous column text ++ '\'' :: left) := by
  cases text with
  | nil => exact StartsVisible.cons rfl left
  | cons c rest =>
      have visible : isWhite c = false := shown
      have parts := visible
      simp only [isWhite, Bool.or_eq_false_iff] at parts
      rw [writeSingle]
      simp only [parts.2, parts.1.1, Bool.false_eq_true, if_false, Bool.false_and]
      split
      · exact StartsVisible.cons rfl _
      · exact StartsVisible.cons visible _

/-- Behind a space that is written as it is, the line goes on. -/
theorem staysOnLine_writeSingle
    {text : List Char}
    (fits : FitsSingle (some ' ') text)
    (column : Nat)
    (left : List Char) :
    StaysOnLine (writeSingle (some ' ') column text ++ '\'' :: left) := by
  induction text generalizing column with
  | nil => exact (StartsVisible.cons rfl left).staysOnLine
  | cons c rest inductionHypothesis =>
      by_cases space : c = ' '
      · subst space
        rw [writeSingle]
        simp [isBreak]
        exact (inductionHypothesis fits.tail _).space
      · apply StartsVisible.staysOnLine
        apply startsVisible_writeSingle
        apply fits.isWhite_head
        right
        simp [isSpace, space]

/-- A run of line ends that is written is read again, folded. -/
theorem Reads.writtenBreaks
    {previous : Option Char}
    {c : Char}
    {ends rest text left : List Char}
    (reads : Reads false text (foldNextLines false rest) left)
    (shown : StartsVisible text)
    (inside : previous.any isBreak = false)
    (isEnd : isBreak c = true)
    (allEnds : ∀ d ∈ ends, isBreak d = true)
    (stops : rest.head?.any isBreak = false) :
    Reads false (writtenBreaks previous c ends ++ (margin ++ text))
      (foldNextLines false (c :: (ends ++ rest))) left := by
  have behind : foldNextLines true (ends ++ rest) =
      ends.map readBreak ++ foldNextLines false rest :=
    foldNextLines_append allEnds stops
  unfold Yaml.writtenBreaks
  by_cases feed : c = '\n'
  · -- The line feed that is written twice is read once.
    subst feed
    have twice := reads.breaks isEnd (List.forall_mem_cons.mpr ⟨isEnd, allEnds⟩) shown
    have content : foldNextLines false ('\n' :: (ends ++ rest)) =
        foldBreaks (readBreak '\n') (('\n' :: ends).map readBreak) ++
          foldNextLines false rest := by
      rw [foldNextLines, if_neg (by decide), isEnd, behind]
      rfl
    rw [content]
    simpa [inside] using twice
  · have once := reads.breaks isEnd allEnds shown
    have content : foldNextLines false (c :: (ends ++ rest)) =
        foldBreaks (readBreak c) (ends.map readBreak) ++
          foldNextLines false rest := by
      rw [foldNextLines, foldBreaks, readBreak]
      by_cases nextLine : c = '\x85'
      · subst nextLine
        rw [if_pos rfl, if_pos rfl, if_pos rfl, behind]
        cases ends with
        | nil => simp [stops]
        | cons d ends =>
            simp [List.forall_mem_cons.mp allEnds]
      · rw [if_neg nextLine, if_neg nextLine, if_neg feed, isEnd, behind]
        rfl
    rw [content]
    simpa [feed] using once

/-- A character that ends no line is written and read on its own. -/
theorem reads_writeSingle_cons
    {previous : Option Char}
    {c : Char}
    {rest left : List Char}
    (fits : FitsSingle previous (c :: rest))
    (noEnd : isBreak c = false)
    (readsRest : ∀ column,
      Reads false (writeSingle (some c) column rest ++ '\'' :: left)
        (foldNextLines false rest) left)
    (column : Nat) :
    Reads false (writeSingle previous column (c :: rest) ++ '\'' :: left)
      (foldNextLines false (c :: rest)) left := by
  have other : c ≠ '\x85' := by
    rintro rfl
    contradiction
  rw [foldNextLines, if_neg other, noEnd, writeSingle, noEnd]
  simp only [Bool.false_eq_true, if_false]
  by_cases space : c = ' '
  · subst space
    split
    · rename_i folds
      simp only [Bool.and_eq_true] at folds
      have noSpace : rest.head?.any isSpace = false := by
        cases found : rest.head? with
        | none => rfl
        | some d => simpa [found, isSpace] using folds.1.2
      exact (readsRest _).fold (startsVisible_writeSingle _ _
        (fits.tail.isWhite_head (.inr ⟨rfl, noSpace⟩)) left)
    · exact (readsRest _).space (staysOnLine_writeSingle fits.tail _ left)
  · rw [beq_eq_false_iff_ne.mpr space]
    simp only [Bool.false_and, Bool.false_eq_true, if_false]
    split
    · rename_i quote
      rw [beq_iff_eq.mp quote] at readsRest ⊢
      exact (readsRest _).twice
    · rename_i noQuote
      have noTab : c ≠ '\t' := by
        rintro rfl
        exact absurd (fits.writable _ List.mem_cons_self) (by decide)
      have shown : isWhite c = false := by
        simp [isWhite, space, noTab, noEnd]
      exact (readsRest _).visible (by simpa [isMark] using noQuote) shown

/-- A text that is written between single quotes is read with its next-line
characters folded. -/
theorem reads_writeSingle
    {previous : Option Char}
    {text : List Char}
    (fits : FitsSingle previous text)
    (fresh : previous.any isBreak = true → text.head?.any isBreak = false)
    (column : Nat)
    {left : List Char}
    (alone : left.head? ≠ some '\'') :
    Reads false (writeSingle previous column text ++ '\'' :: left)
      (foldNextLines false text) left := by
  -- A run of line ends is written and read at once, so the induction is on the
  -- length of the text.
  induction sized : text.length using Nat.strongRecOn
    generalizing previous column text with
  | ind size inductionHypothesis =>
    cases text with
    | nil => exact reads_single_nil alone
    | cons c rest =>
        cases isEnd : isBreak c with
        | true =>
            have inside : previous.any isBreak = false := by
              cases found : previous.any isBreak with
              | false => rfl
              | true =>
                  have noEnd : isBreak c = false := fresh found
                  rw [isEnd] at noEnd
                  contradiction
            obtain ⟨ends, behind, rfl, allEnds, stops⟩ := exists_run isBreak rest
            obtain ⟨last, lastEnd, written⟩ :=
              writeSingle_breaks previous column isEnd allEnds stops
            have fitsBehind := fits.behind_breaks isEnd allEnds lastEnd
            have shorter : behind.length < size := by
              rw [← sized, List.length_cons, List.length_append]
              omega
            have reads := inductionHypothesis behind.length shorter fitsBehind
              (fun _ => stops) margin.length rfl
            have shown := startsVisible_writeSingle (some last) margin.length
              (fitsBehind.isWhite_head (.inl ⟨lastEnd, stops⟩)) left
            rw [written, List.append_assoc, List.append_assoc]
            exact reads.writtenBreaks shown inside isEnd allEnds stops
        | false =>
            have shorter : rest.length < size := by
              rw [← sized, List.length_cons]
              omega
            have notFresh : (some c).any isBreak = true →
                rest.head?.any isBreak = false := by
              simp [isEnd]
            exact reads_writeSingle_cons fits isEnd
              (fun column => inductionHypothesis rest.length shorter fits.tail
                notFresh column rfl) column

/-! ## Characters -/

theorem all_isKept_writeSingle
    {text : List Char}
    (writable : ∀ c ∈ text, isWritable c = true)
    (previous : Option Char)
    (column : Nat) : (writeSingle previous column text).all isKept = true := by
  have folded : fold.all isKept = true := by decide
  have indented : margin.all isKept = true := by decide
  induction text generalizing previous column with
  | nil => rfl
  | cons c rest inductionHypothesis =>
      obtain ⟨writableHead, writableRest⟩ := List.forall_mem_cons.mp writable
      have kept := isKept_of_isWritable writableHead
      have marks : isKept '\n' = true ∧ isKept '\'' = true := by decide
      have keptRest := inductionHypothesis writableRest
      rw [writeSingle]
      dsimp only
      repeat' split
      all_goals
        simp only [List.all_append, List.all_cons, List.all_nil, keptRest, folded,
          indented, kept, marks, Bool.and_self]

end Yaml
end ShaderLift
