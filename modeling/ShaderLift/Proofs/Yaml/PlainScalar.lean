import ShaderLift.Proofs.Yaml.QuotedReader

/-!
# Plain texts

A plain scalar is written word by word: the spaces between two words are kept,
or a single one is replaced by a fold.  A reader takes the words one after
another and stops at a line that is indented less than the scalar must be.
-/

namespace ShaderLift
namespace Yaml

/-- Reading a plain scalar gives the content and leaves a text that starts on a
later line. -/
def ReadsPlain (indent : Nat) (text content left : List Char) : Prop :=
  ∀ fuel, text.length < fuel → takePlain false indent fuel text = ⟨content, true, left⟩

/-- Words with spaces between them. -/
inductive Words : List Char → Prop
  | last {word : List Char} (nonempty : word ≠ [])
      (noGap : ∀ c ∈ word, isGap c = false) : Words word
  | more {word rest : List Char} (nonempty : word ≠ [])
      (noGap : ∀ c ∈ word, isGap c = false) (count : Nat) (behind : Words rest) :
      Words (word ++ (List.replicate (count + 1) ' ' ++ rest))

/-! ## Words -/

theorem isWhite_of_isGap
    {c : Char}
    (noGap : isGap c = false) : isWhite c = false := by
  simp only [isGap, Bool.or_eq_false_iff] at noGap
  exact noGap.2

/-- A word goes on up to white space. -/
theorem takePlainWord_append
    {afterGap : Bool}
    {word behind rest : List Char}
    (noGap : ∀ c ∈ word, isGap c = false)
    (undivided : hasDivider afterGap (word ++ behind) = false)
    (gap : atGap behind = true)
    (stops : plainStops false rest = true) :
    takePlainWord false (word ++ rest) = (word, rest) := by
  induction word generalizing afterGap with
  | nil =>
      cases rest with
      | nil => rfl
      | cons c rest => rw [List.nil_append, takePlainWord, if_pos stops]
  | cons c word inductionHypothesis =>
      obtain ⟨noGapHead, noGap⟩ := List.forall_mem_cons.mp noGap
      simp only [List.cons_append, hasDivider, Bool.or_eq_false_iff,
        Bool.and_eq_false_iff] at undivided
      have goesOn : plainStops false (c :: (word ++ rest)) = false := by
        have noEnd : c = ':' → atWordEnd (word ++ rest) = false := by
          intro colon
          cases word with
          | nil => simp [colon, gap] at undivided
          | cons d word => exact isWhite_of_isGap (noGap d List.mem_cons_self)
        simp only [plainStops, isWhite_of_isGap noGapHead, Bool.false_and,
          Bool.or_false, Bool.false_or]
        by_cases colon : c = ':'
        · simp [noEnd colon]
        · simp [colon]
      rw [List.cons_append, takePlainWord, goesOn]
      simp [inductionHypothesis noGap undivided.2]

/-- Where spaces end, no number sign and no divided word stands. -/
theorem hasDivider_behind
    {afterGap : Bool}
    {before rest : List Char}
    (undivided : hasDivider afterGap (before ++ ' ' :: rest) = false) :
    hasDivider true rest = false := by
  induction before generalizing afterGap with
  | nil =>
      simp only [List.nil_append, hasDivider, Bool.or_eq_false_iff] at undivided
      exact undivided.2
  | cons c before inductionHypothesis =>
      simp only [List.cons_append, hasDivider, Bool.or_eq_false_iff] at undivided
      exact inductionHypothesis undivided.2

theorem Words.exists_cons
    {text : List Char}
    (words : Words text) : ∃ c rest, text = c :: rest ∧ isGap c = false := by
  cases words with
  | last nonempty noGap =>
      obtain ⟨c, rest, rfl⟩ := List.exists_cons_of_ne_nil nonempty
      exact ⟨c, rest, rfl, noGap c List.mem_cons_self⟩
  | more nonempty noGap count behind =>
      obtain ⟨c, rest, rfl⟩ := List.exists_cons_of_ne_nil nonempty
      exact ⟨c, _, rfl, noGap c List.mem_cons_self⟩

/-- A text without other gaps than spaces inside it consists of words. -/
theorem words_of_visible
    {text : List Char}
    (nonempty : text ≠ [])
    (visible : ∀ c ∈ text, c = ' ' ∨ isGap c = false)
    (startsVisible : text.head? ≠ some ' ')
    (endsVisible : text.getLast? ≠ some ' ') : Words text := by
  induction sized : text.length using Nat.strongRecOn generalizing text with
  | ind size inductionHypothesis =>
    obtain ⟨word, behind, rfl, allWord, wordEnds⟩ := exists_run (· != ' ') text
    have noGap : ∀ c ∈ word, isGap c = false := by
      intro c member
      have noSpace : c ≠ ' ' := by simpa using allWord c member
      exact (visible c (List.mem_append_left behind member)).resolve_left noSpace
    have wordNonempty : word ≠ [] := by
      rintro rfl
      cases behind with
      | nil => exact nonempty rfl
      | cons c rest => simp_all
    obtain ⟨spaces, rest, rfl, allSpaces, spacesEnd⟩ := exists_run isSpace behind
    have replicated : spaces = List.replicate spaces.length ' ' := by
      apply List.eq_replicate_of_mem
      intro c member
      simpa [isSpace] using allSpaces c member
    cases rest with
    | nil =>
        cases spaces with
        | nil =>
            rw [List.append_nil, List.append_nil]
            exact .last wordNonempty noGap
        | cons c spaces =>
            -- The text would end in a space.
            rw [replicated, List.length_cons, List.replicate_succ'] at endsVisible
            simp at endsVisible
    | cons d rest =>
        have noSpace : d ≠ ' ' := by simpa [isSpace] using spacesEnd
        cases spaces with
        | nil =>
            -- The word would go on.
            exact absurd wordEnds (by simp [noSpace])
        | cons c spaces =>
            have restWords : Words (d :: rest) := by
              apply inductionHypothesis (d :: rest).length ?_ (by simp) ?_ ?_ ?_ rfl
              · rw [← sized]
                simp only [List.length_append, List.length_cons]
                omega
              · intro e member
                exact visible e (by simp [List.mem_cons.mp member])
              · simpa using noSpace
              · simpa [List.getLast?_append, List.getLast?_cons] using endsVisible
            rw [replicated]
            exact .more wordNonempty noGap _ restWords

/-! ## Spacing -/

theorem plainSpacing_spaces
    {text : List Char}
    (shown : StartsVisible text)
    (count : Nat) :
    plainSpacing (List.replicate count ' ' ++ text) =
      ⟨List.replicate count ' ', false, 0, text⟩ := by
  obtain ⟨c, rest, rfl, visible⟩ := shown
  simp only [isWhite, Bool.or_eq_false_iff] at visible
  unfold plainSpacing
  simp [List.takeWhile_append_of_pos, List.dropWhile_append_of_pos, visible]

theorem plainBreaks_visible
    {text : List Char}
    (shown : StartsVisible text)
    (indent : Nat) :
    plainBreaks false indent text = (some [], indent, text) := by
  obtain ⟨c, rest, rfl, visible⟩ := shown
  simp only [isWhite, Bool.or_eq_false_iff, beq_eq_false_iff_ne] at visible
  simp [plainBreaks, visible]

theorem plainBreaks_spaces
    (atStart : Bool)
    (indent count : Nat)
    (text : List Char) :
    plainBreaks atStart indent (List.replicate (count + 1) ' ' ++ text) =
      plainBreaks false (indent + (count + 1)) text := by
  have step : ∀ atStart indent rest,
      plainBreaks atStart indent (' ' :: rest) = plainBreaks false (indent + 1) rest := by
    intro atStart indent rest
    simp [plainBreaks, atDocumentMark]
  induction count generalizing atStart indent with
  | zero => exact step atStart indent text
  | succ count inductionHypothesis =>
      rw [List.replicate_succ, List.cons_append, step, inductionHypothesis]
      congr 1
      omega

/-- The end of a line and the spaces at the start of the next. -/
theorem plainSpacing_line
    {text : List Char}
    (shown : text = [] ∨ StartsVisible text)
    (count : Nat) :
    ∃ spaces, plainSpacing ('\n' :: (List.replicate count ' ' ++ text)) =
      ⟨spaces, true, count, text⟩ := by
  have stays : ∀ atStart indent, ∃ breaks,
      plainBreaks atStart indent text = (breaks, indent, text) := by
    intro atStart indent
    rcases shown with rfl | ⟨c, rest, rfl, visible⟩
    · exact ⟨some [], rfl⟩
    · simp only [isWhite, Bool.or_eq_false_iff, beq_eq_false_iff_ne] at visible
      rw [plainBreaks]
      split
      · exact ⟨none, rfl⟩
      · simp only [visible, if_false, Bool.false_eq_true]
        exact ⟨some [], rfl⟩
  have read : ∃ breaks, plainBreaks true 0 (List.replicate count ' ' ++ text) =
      (breaks, count, text) := by
    cases count with
    | zero => exact stays true 0
    | succ count =>
        rw [plainBreaks_spaces, Nat.zero_add]
        exact stays false (count + 1)
  obtain ⟨breaks, read⟩ := read
  simp [plainSpacing, isBreak, read]

theorem plainSpacing_fold
    {text : List Char}
    (shown : StartsVisible text) :
    plainSpacing (fold ++ text) = ⟨[' '], true, margin.length, text⟩ := by
  have broken : plainBreaks true 0 (margin ++ text) = (some [], margin.length, text) :=
    (plainBreaks_spaces true 0 3 text).trans (plainBreaks_visible shown _)
  simp only [plainSpacing, fold, List.cons_append]
  simp [isBreak, broken, readBreak, foldBreaks]

/-! ## Reading and writing -/

/-- The text starts a line that is indented less, or ends. -/
structure NextLine (indent : Nat) (text left : List Char) : Prop where
  exists_line : ∃ count, count < indent ∧
    text = '\n' :: (List.replicate count ' ' ++ left)
  shown : left = [] ∨ StartsVisible left

/-- The last word of a plain scalar. -/
theorem readsPlain_last
    {afterGap : Bool}
    {indent : Nat}
    {word tail left : List Char}
    (noGap : ∀ c ∈ word, isGap c = false)
    (undivided : hasDivider afterGap word = false)
    (next : NextLine indent tail left) :
    ReadsPlain indent (word ++ tail) word left := by
  obtain ⟨⟨count, shallow, rfl⟩, shown⟩ := next
  obtain ⟨spaces, spaced⟩ := plainSpacing_line shown count
  intro fuel enough
  obtain ⟨fuel, rfl⟩ : ∃ less, fuel = less + 1 := ⟨fuel - 1, by omega⟩
  rw [← List.append_nil word] at undivided
  rw [takePlain, takePlainWord_append noGap undivided rfl rfl]
  simp [spaced, shallow]

/-- A word of a plain scalar, and the spaces behind it. -/
theorem ReadsPlain.more
    {afterGap broken : Bool}
    {indent deep : Nat}
    {word behind gap spaces text content left : List Char}
    (reads : ReadsPlain indent text content left)
    (nonempty : word ≠ [])
    (noGap : ∀ c ∈ word, isGap c = false)
    (undivided : hasDivider afterGap (word ++ behind) = false)
    (gapBehind : atGap behind = true)
    (stops : plainStops false (gap ++ text) = true)
    (spaced : plainSpacing (gap ++ text) = ⟨spaces, broken, deep, text⟩)
    (someSpaces : spaces ≠ [])
    (indented : broken = true → indent ≤ deep)
    (goesOn : plainStops false text = false)
    (noComment : text.head? ≠ some '#') :
    ReadsPlain indent (word ++ (gap ++ text)) (word ++ (spaces ++ content)) left := by
  intro fuel enough
  obtain ⟨fuel, rfl⟩ : ∃ less, fuel = less + 1 := ⟨fuel - 1, by omega⟩
  have positive := List.length_pos_iff.mpr nonempty
  rw [List.length_append, List.length_append] at enough
  rw [takePlain, takePlainWord_append noGap undivided gapBehind stops]
  have deepEnough : (broken && decide (deep < indent)) = false := by
    cases broken with
    | false => rfl
    | true => simpa using indented rfl
  simp [spaced, someSpaces, goesOn, noComment, deepEnough, reads fuel (by omega)]

theorem ne_space_of_isGap {c : Char} (noGap : isGap c = false) : c ≠ ' ' := by
  rintro rfl
  contradiction

theorem writePlain_visible
    {c : Char}
    (noSpace : c ≠ ' ')
    (afterSpace : Bool)
    (column : Nat)
    (rest : List Char) :
    writePlain afterSpace column (c :: rest) =
      c :: writePlain false (column + 1) rest := by
  rw [writePlain, beq_eq_false_iff_ne.mpr noSpace]
  rfl

/-- A word is written as it is. -/
theorem writePlain_append
    {word : List Char}
    (noGap : ∀ c ∈ word, isGap c = false)
    (column : Nat)
    (rest : List Char) :
    writePlain false column (word ++ rest) =
      word ++ writePlain false (column + word.length) rest := by
  induction word generalizing column with
  | nil => rfl
  | cons c word inductionHypothesis =>
      obtain ⟨noGapHead, noGap⟩ := List.forall_mem_cons.mp noGap
      rw [List.cons_append, writePlain_visible (ne_space_of_isGap noGapHead),
        inductionHypothesis noGap, List.length_cons, Nat.add_right_comm]
      rfl

theorem writePlain_afterSpace
    (column count : Nat)
    (text : List Char) :
    writePlain true column (List.replicate count ' ' ++ text) =
      List.replicate count ' ' ++ writePlain true (column + count) text := by
  induction count generalizing column with
  | zero => rfl
  | succ count inductionHypothesis =>
      rw [List.replicate_succ, List.cons_append, writePlain]
      simp only [Bool.not_true, Bool.and_false, Bool.false_and, Bool.false_eq_true,
        if_false, beq_self_eq_true]
      rw [inductionHypothesis, Nat.add_right_comm]
      rfl

/-- Several spaces are written as they are, a single one may be folded. -/
theorem writePlain_spaces
    (text : List Char)
    (column count : Nat) :
    (∃ next, writePlain false column (List.replicate (count + 1) ' ' ++ text) =
      List.replicate (count + 1) ' ' ++ writePlain true next text) ∨
    (count = 0 ∧ writePlain false column (List.replicate (count + 1) ' ' ++ text) =
      fold ++ writePlain true margin.length text) := by
  rw [List.replicate_succ, List.cons_append, writePlain]
  split
  · rename_i folds
    cases count with
    | zero => exact .inr ⟨rfl, rfl⟩
    | succ count => simp [List.replicate_succ] at folds
  · rw [beq_self_eq_true, writePlain_afterSpace]
    exact .inl ⟨_, rfl⟩

/-- What is written of a text that starts visibly, up to its second character. -/
theorem exists_writePlain_cons
    {c : Char}
    (noGap : isGap c = false)
    (afterSpace : Bool)
    (column : Nat)
    (rest tail : List Char) :
    ∃ behind, writePlain afterSpace column (c :: rest) ++ tail = c :: behind ∧
      (atGap rest = false → atWordEnd behind = false) := by
  rw [writePlain_visible (ne_space_of_isGap noGap), List.cons_append]
  refine ⟨_, rfl, ?_⟩
  intro noGapBehind
  cases rest with
  | nil => contradiction
  | cons d rest =>
      have noGapNext : isGap d = false := noGapBehind
      rw [writePlain_visible (ne_space_of_isGap noGapNext)]
      exact isWhite_of_isGap noGapNext

/-- Behind spaces a plain text goes on. -/
theorem plainStops_writePlain
    {text : List Char}
    (words : Words text)
    (undivided : hasDivider true text = false)
    (afterSpace : Bool)
    (column : Nat)
    (tail : List Char) :
    plainStops false (writePlain afterSpace column text ++ tail) = false ∧
      (writePlain afterSpace column text ++ tail).head? ≠ some '#' ∧
      StartsVisible (writePlain afterSpace column text ++ tail) := by
  obtain ⟨c, rest, rfl, noGap⟩ := words.exists_cons
  obtain ⟨behind, written, noEnd⟩ :=
    exists_writePlain_cons noGap afterSpace column rest tail
  have visible := isWhite_of_isGap noGap
  simp only [hasDivider, Bool.or_eq_false_iff, Bool.and_eq_false_iff,
    beq_eq_false_iff_ne] at undivided
  rw [written]
  refine ⟨?_, ?_, StartsVisible.cons visible behind⟩
  · by_cases colon : c = ':'
    · simp [plainStops, visible, noEnd (undivided.1.1.resolve_left (by simp [colon]))]
    · simp [plainStops, visible, colon]
  · simpa using undivided.1.2

/-- A plain text is read as it was. -/
theorem readsPlain_writePlain
    {indent : Nat}
    {text tail left : List Char}
    (words : Words text)
    (undivided : hasDivider true text = false)
    (deepEnough : indent ≤ margin.length)
    (next : NextLine indent tail left)
    (afterSpace : Bool)
    (column : Nat) :
    ReadsPlain indent (writePlain afterSpace column text ++ tail) text left := by
  have unspaced : ∀ {text}, Words text → ∀ afterSpace column,
      writePlain afterSpace column text = writePlain false column text := by
    intro text words afterSpace column
    obtain ⟨c, rest, rfl, noGap⟩ := words.exists_cons
    rw [writePlain_visible (ne_space_of_isGap noGap),
      writePlain_visible (ne_space_of_isGap noGap)]
  rw [unspaced words]
  induction words generalizing column with
  | @last word nonempty noGap =>
      have written := writePlain_append noGap column []
      rw [List.append_nil, writePlain, List.append_nil] at written
      rw [written]
      exact readsPlain_last noGap undivided next
  | @more word rest nonempty noGap count behind inductionHypothesis =>
      have undividedRest : hasDivider true rest = false := by
        apply @hasDivider_behind true (word ++ List.replicate count ' ')
        simpa [List.replicate_succ'] using undivided
      have readsRest : ∀ column,
          ReadsPlain indent (writePlain true column rest ++ tail) rest left := by
        intro column
        rw [unspaced behind]
        exact inductionHypothesis undividedRest column
      rw [writePlain_append noGap, List.append_assoc]
      rcases writePlain_spaces rest (column + word.length) count with
        ⟨next, written⟩ | ⟨rfl, written⟩
      · obtain ⟨goesOn, noComment, shown⟩ :=
          plainStops_writePlain behind undividedRest true next tail
        rw [written, List.append_assoc]
        exact (readsRest next).more nonempty noGap undivided rfl rfl
          (plainSpacing_spaces shown (count + 1)) (by simp) (by simp) goesOn noComment
      · obtain ⟨goesOn, noComment, shown⟩ :=
          plainStops_writePlain behind undividedRest true margin.length tail
        rw [written, List.append_assoc]
        exact (readsRest margin.length).more nonempty noGap undivided rfl rfl
          (plainSpacing_fold shown) (by simp) (fun _ => deepEnough) goesOn noComment

/-! ## Texts that are written plain -/

theorem isGap_of_isWritable
    {c : Char}
    (writable : isWritable c = true)
    (noBreak : isBreak c = false)
    (noSpace : c ≠ ' ') : isGap c = false := by
  have other : c ≠ '\x00' ∧ c ≠ '\r' ∧ c ≠ '\t' := by
    refine ⟨?_, ?_, ?_⟩ <;> rintro rfl <;> contradiction
  simp [isGap, isWhite, other, noBreak, noSpace]

/-- What a text is like that is written plain. -/
structure IsPlain (text : List Char) : Prop where
  words : Words text
  undivided : hasDivider true text = false
  writable : ∀ c ∈ text, isWritable c = true
  isText : resolvePlain text = .text
  /-- The first character marks nothing else. -/
  unmarked : ∀ c rest, text = c :: rest →
    indicatorChars.contains c = false ∧
      ((c == '?' || c == ':' || c == '-') = true → atGap rest = false)

theorem isPlain_of_allowsPlain
    {text : List Char}
    (plain : allowsPlain text = true) : IsPlain text := by
  simp only [allowsPlain, Bool.and_eq_true, Bool.not_eq_true', beq_iff_eq,
    List.all_eq_true, List.any_eq_false] at plain
  obtain ⟨⟨⟨⟨⟨isText, noIndicator⟩, writable⟩, noBreak⟩, starts⟩, ends⟩ := plain
  have visible : ∀ c ∈ text, c = ' ' ∨ isGap c = false := by
    intro c member
    by_cases space : c = ' '
    · exact .inl space
    · exact .inr (isGap_of_isWritable (writable c member)
        (by simpa using noBreak c member) space)
  cases text with
  | nil =>
      have nothing : isNull [] = true := rfl
      simp only [resolvePlain, nothing, if_true] at isText
      repeat' split at isText
      all_goals exact nomatch isText
  | cons c rest =>
      simp only [hasIndicator, Bool.or_eq_false_iff, Bool.and_eq_false_iff]
        at noIndicator
      obtain ⟨⟨⟨_, unmarked⟩, noDash⟩, undivided⟩ := noIndicator
      have noColon : (c == ':' && atGap rest) = false := by
        by_cases colon : c = ':'
        · simpa [colon] using noDash
        · simp [colon]
      have noHash : (c == '#') = false := by
        apply beq_eq_false_iff_ne.mpr
        rintro rfl
        contradiction
      refine ⟨words_of_visible (by simp) visible ?_ ?_, ?_, writable, isText, ?_⟩
      · rintro ⟨⟩
        contradiction
      · intro last
        rw [last] at ends
        contradiction
      · simp [hasDivider, noColon, noHash, undivided]
      · rintro _ _ ⟨rfl, rfl⟩
        refine ⟨unmarked, ?_⟩
        intro dash
        rcases noDash with ⟨⟨noQuestion, noColon⟩, noDash⟩ | goesOn
        · rw [noQuestion, noColon, noDash] at dash
          contradiction
        · exact goesOn

theorem all_isKept_writePlain
    {text : List Char}
    (writable : ∀ c ∈ text, isWritable c = true)
    (afterSpace : Bool)
    (column : Nat) : (writePlain afterSpace column text).all isKept = true := by
  have folded : fold.all isKept = true := by decide
  induction text generalizing afterSpace column with
  | nil => rfl
  | cons c rest inductionHypothesis =>
      obtain ⟨writableHead, writableRest⟩ := List.forall_mem_cons.mp writable
      have kept := isKept_of_isWritable writableHead
      have keptRest := inductionHypothesis writableRest
      rw [writePlain]
      split
      all_goals simp only [List.all_append, List.all_cons, keptRest, folded, kept,
        Bool.and_self]

end Yaml
end ShaderLift
