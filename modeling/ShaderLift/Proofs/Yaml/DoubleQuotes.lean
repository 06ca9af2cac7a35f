import ShaderLift.Proofs.Yaml.QuotedReader

/-!
# Texts between double quotes

Every character that cannot stand for itself is escaped, and lines are cut
behind backslashes, so every text is read as it was written.
-/

namespace ShaderLift
namespace Yaml

/-! ## Escapes -/

theorem takeHex_add
    (count more number : Nat)
    (text : List Char) :
    takeHex (count + more) number text =
      (takeHex count number text).bind fun found => takeHex more found.1 found.2 := by
  induction count generalizing number text with
  | zero => rw [Nat.zero_add]; rfl
  | succ count inductionHypothesis =>
      rw [Nat.succ_add]
      cases text with
      | nil => rfl
      | cons c rest =>
          rw [takeHex, takeHex]
          cases hexValue? c with
          | none => rfl
          | some digit => exact inductionHypothesis (16 * number + digit) rest

theorem takeHex_zeros
    (count more : Nat)
    (text : List Char) :
    takeHex (count + more) 0 (List.replicate count '0' ++ text) =
      takeHex more 0 text := by
  induction count with
  | zero => rw [Nat.zero_add]; rfl
  | succ count inductionHypothesis =>
      rw [Nat.succ_add, List.replicate_succ, List.cons_append, takeHex]
      exact inductionHypothesis

/-- A digit is read as its value in either case. -/
theorem hexValue_digitChar
    {digit : Nat}
    (small : digit < 16) :
    hexValue? digit.digitChar.toUpper = some digit := by
  revert digit
  decide

/-- As many digits as a number has are read as the number. -/
theorem takeHex_toDigits
    (code : Nat)
    (text : List Char) :
    takeHex (Nat.toDigits 16 code).length 0
      ((Nat.toDigits 16 code).map Char.toUpper ++ text) = some (code, text) := by
  induction code using Nat.base_induction 16 (by omega) generalizing text with
  | single code small =>
      rw [Nat.toDigits_of_lt_base small]
      simp [takeHex, hexValue_digitChar small]
  | digit code digit small positive inductionHypothesis =>
      rw [← Nat.toDigits_append_toDigits (by omega) positive small,
        Nat.toDigits_of_lt_base small, List.length_append, takeHex_add,
        List.map_append, List.append_assoc, inductionHypothesis]
      simp [takeHex, hexValue_digitChar small]

theorem takeHex_upperHex
    {width : Nat}
    {c : Char}
    (fits : (Nat.toDigits 16 c.toNat).length ≤ width)
    (text : List Char) :
    takeHex width 0 (upperHex width c ++ text) = some (c.toNat, text) := by
  have padded : width - (Nat.toDigits 16 c.toNat).length +
      (Nat.toDigits 16 c.toNat).length = width := by omega
  unfold upperHex Text.hexDigits
  rw [List.map_append, List.map_replicate, List.append_assoc]
  conv => lhs; arg 1; rw [← padded]
  rw [← takeHex_toDigits c.toNat text]
  exact takeHex_zeros _ _ _

/-- An escape is a backslash and a code that is read as the character. -/
theorem exists_code (c : Char) :
    ∃ code, escape c = '\\' :: code ∧
      ∀ text, takeEscape (code ++ text) = .ok ([c], text) := by
  have valid : c.toNat < 0x110000 := by
    have : c.toNat < 0xD800 ∨ (0xDFFF < c.toNat ∧ c.toNat < 0x110000) := c.valid
    omega
  have numeric : ∀ (letter : Char) (width : Nat), escapedChar? letter = none →
      escapeLength? letter = some width → 0 < width → c.toNat < 16 ^ width →
      ∀ text, takeEscape ((letter :: upperHex width c) ++ text) =
        .ok ([c], text) := by
    intro letter width noChar hasLength positive small text
    have fits := (Nat.length_toDigits_le_iff (by omega) positive).mpr small
    rw [List.cons_append, takeEscape, noChar, hasLength]
    simp only [takeHex_upperHex fits, valid, if_true, charOf_toNat]
  unfold escape
  cases found : escapeLetters.find? fun pair => pair.1 == c with
  | some pair =>
      have known : ∀ pair ∈ escapeLetters, escapedChar? pair.2 = some pair.1 := by
        simp [escapeLetters, escapedChar?]
      have same : pair.1 = c := by
        simpa using List.find?_some found
      refine ⟨[pair.2], rfl, ?_⟩
      intro text
      rw [List.cons_append, takeEscape, known pair (List.mem_of_find?_eq_some found),
        same]
      rfl
  | none =>
      dsimp only
      split
      · exact ⟨_, rfl, numeric 'x' 2 rfl rfl (by omega) ‹_›⟩
      split
      · exact ⟨_, rfl, numeric 'u' 4 rfl rfl (by omega) ‹_›⟩
      · exact ⟨_, rfl, numeric 'U' 8 rfl rfl (by omega) (by omega)⟩

/-! ## Between double quotes -/

theorem isWhite_of_isVerbatim
    {c : Char}
    (verbatim : isVerbatim c = true)
    (noSpace : c ≠ ' ') : isWhite c = false := by
  cases white : isWhite c with
  | false => rfl
  | true =>
      simp only [isWhite, isBreak, Bool.or_eq_true, beq_iff_eq] at white
      rcases white with (rfl | rfl) | ((rfl | rfl) | rfl) | rfl
      · exact absurd rfl noSpace
      all_goals contradiction

theorem isMark_of_isVerbatim
    {c : Char}
    (verbatim : isVerbatim c = true) : isMark true c = false := by
  unfold isVerbatim at verbatim
  unfold isMark
  simp_all

/-- A space behind a backslash is a space. -/
theorem Reads.escapedSpace
    {text content left : List Char}
    (reads : Reads true text content left) :
    Reads true ('\\' :: ' ' :: text) (' ' :: content) left := by
  have taken : takeEscape ([' '] ++ text) = .ok ([' '], text) := rfl
  exact reads.escaped taken

/-- What is written of a text between double quotes never starts with a line
end. -/
theorem staysOnLine_writeDouble
    (isFirst isCut : Bool)
    (column : Nat)
    (text left : List Char) :
    StaysOnLine (writeDouble isFirst isCut column text ++ '"' :: left) := by
  induction text generalizing isFirst isCut column with
  | nil => exact (StartsVisible.cons rfl left).staysOnLine
  | cons c rest inductionHypothesis =>
      have backslash : ∀ text, StaysOnLine ('\\' :: text) := fun text =>
        (StartsVisible.cons rfl text).staysOnLine
      rw [writeDouble]
      dsimp only
      split
      · rename_i verbatim
        split
        · exact backslash _
        · rw [List.cons_append]
          by_cases isSpace : c = ' '
          · rw [isSpace]
            exact (inductionHypothesis _ _ _).space
          · exact (StartsVisible.cons (isWhite_of_isVerbatim verbatim isSpace)
              _).staysOnLine
      · obtain ⟨code, written, _⟩ := exists_code c
        rw [written]
        split <;> exact backslash _

/-- At the start of a line an escape or a visible character is written as it
would be anywhere. -/
theorem startsVisible_writeDouble
    {c : Char}
    (noSpace : c ≠ ' ')
    (isFirst isCut : Bool)
    {column : Nat}
    (short : column ≤ lineWidth)
    (rest left : List Char) :
    StartsVisible (writeDouble isFirst isCut column (c :: rest) ++ left) := by
  have noFold : ¬ lineWidth < column := by omega
  rw [writeDouble]
  dsimp only
  split
  · rename_i verbatim
    simp only [noFold, decide_false, Bool.and_false, Bool.false_eq_true, if_false]
    exact StartsVisible.cons (isWhite_of_isVerbatim verbatim noSpace) _
  · obtain ⟨code, written, _⟩ := exists_code c
    rw [written]
    split <;> exact StartsVisible.cons rfl _

theorem writeDouble_space
    (isFirst isCut : Bool)
    {column : Nat}
    (short : column ≤ lineWidth)
    (rest : List Char) :
    writeDouble isFirst isCut column (' ' :: rest) =
      ' ' :: writeDouble false false (column + 1) rest := by
  have noFold : ¬ lineWidth < column := by omega
  have verbatim : isVerbatim ' ' = true := rfl
  rw [writeDouble]
  simp only [verbatim, noFold, decide_false, Bool.and_false, if_true,
    Bool.false_eq_true, if_false]

/-- A text that is written between double quotes is read as it was, also behind
a backslash if it starts with a space that is written on this line. -/
theorem reads_writeDouble_or_marked
    (isFirst isCut : Bool)
    (column : Nat)
    (text left : List Char) :
    Reads true (writeDouble isFirst isCut column text ++ '"' :: left) text left ∧
      (text.head? = some ' ' → column ≤ lineWidth →
        Reads true ('\\' :: (writeDouble isFirst isCut column text ++ '"' :: left))
          text left) := by
  induction text generalizing isFirst isCut column with
  | nil => exact ⟨reads_double_nil left, by simp⟩
  | cons c rest inductionHypothesis =>
      have readsRest := fun isFirst isCut column =>
        (inductionHypothesis isFirst isCut column).1
      constructor
      · rw [writeDouble]
        dsimp only
        split
        · rename_i verbatim
          by_cases isSpace : c = ' '
          · rw [isSpace]
            split
            · exact ((readsRest _ _ _).escapedSpace).cut (StartsVisible.cons rfl _)
            · exact (readsRest _ _ _).space (staysOnLine_writeDouble _ _ _ _ _)
          · have shown := isWhite_of_isVerbatim verbatim isSpace
            have visible := fun isCut column =>
              (readsRest false isCut column).visible
                (isMark_of_isVerbatim verbatim) shown
            split
            · simp only [beq_eq_false_iff_ne.mpr isSpace, Bool.false_eq_true,
                if_false]
              exact (visible _ _).cut (StartsVisible.cons shown _)
            · exact visible _ _
        · obtain ⟨code, written, taken⟩ := exists_code c
          rw [written]
          split
          · rename_i mayFold
            cases rest with
            | nil => simp at mayFold
            | cons d more =>
                by_cases isSpace : d = ' '
                · have marked := (inductionHypothesis false true (margin.length + 1)).2
                    (by rw [isSpace]; rfl) (by decide)
                  have cut := marked.cut (StartsVisible.cons rfl _)
                  simpa [isSpace] using cut.escaped (taken _)
                · have cut := (readsRest false true margin.length).cut
                    (startsVisible_writeDouble isSpace _ _ (by decide) _ _)
                  simpa [isSpace] using cut.escaped (taken _)
          · simpa using (readsRest _ _ _).escaped (taken _)
      · intro isSpace short
        cases isSpace
        rw [writeDouble_space _ _ short]
        exact (readsRest _ _ _).escapedSpace

/-- A text that is written between double quotes is read as it was. -/
theorem reads_writeDouble
    (isFirst isCut : Bool)
    (column : Nat)
    (text left : List Char) :
    Reads true (writeDouble isFirst isCut column text ++ '"' :: left) text left :=
  (reads_writeDouble_or_marked isFirst isCut column text left).1

/-! ## Characters -/

theorem isKept_of_isVerbatim
    {c : Char}
    (verbatim : isVerbatim c = true) : isKept c = true := by
  have other : c ≠ '\r' := by
    rintro rfl
    contradiction
  simp only [isVerbatim, Bool.or_eq_true, Bool.and_eq_true,
    decide_eq_true_eq] at verbatim
  simp only [isKept, isAllowed, Bool.or_eq_true, Bool.and_eq_true, beq_iff_eq,
    decide_eq_true_eq, bne_iff_ne]
  exact ⟨by omega, other⟩

theorem exists_digit_of_mem_toDigits
    {code : Nat}
    {c : Char}
    (member : c ∈ Nat.toDigits 16 code) :
    ∃ digit, digit < 16 ∧ c = digit.digitChar := by
  induction code using Nat.base_induction 16 (by omega) with
  | single code small =>
      rw [Nat.toDigits_of_lt_base small, List.mem_singleton] at member
      exact ⟨code, small, member⟩
  | digit code digit small positive inductionHypothesis =>
      rw [← Nat.toDigits_append_toDigits (by omega) positive small,
        Nat.toDigits_of_lt_base small, List.mem_append, List.mem_singleton] at member
      exact member.elim inductionHypothesis fun last => ⟨digit, small, last⟩

theorem isKept_digitChar
    {digit : Nat}
    (small : digit < 16) : isKept digit.digitChar.toUpper = true := by
  revert digit
  decide

theorem all_isKept_escape (c : Char) : (escape c).all isKept = true := by
  have hexKept : ∀ width, (upperHex width c).all isKept = true := by
    intro width
    rw [upperHex, Text.hexDigits, List.map_append, List.all_append,
      List.map_replicate, Bool.and_eq_true]
    constructor
    · simp [isKept, isAllowed]
    · simp only [List.all_map, List.all_eq_true]
      intro d member
      obtain ⟨digit, small, rfl⟩ := exists_digit_of_mem_toDigits member
      exact isKept_digitChar small
  unfold escape
  cases found : escapeLetters.find? fun pair => pair.1 == c with
  | some pair =>
      have known : ∀ pair ∈ escapeLetters, isKept pair.2 = true := by
        simp [escapeLetters, isKept, isAllowed]
      simpa [isKept, isAllowed] using known pair (List.mem_of_find?_eq_some found)
  | none =>
      have marks : isKept '\\' = true ∧ isKept 'x' = true ∧ isKept 'u' = true ∧
          isKept 'U' = true := by decide
      dsimp only
      repeat' split
      all_goals simp [marks, hexKept]

theorem all_isKept_writeDouble
    (isFirst isCut : Bool)
    (column : Nat)
    (text : List Char) :
    (writeDouble isFirst isCut column text).all isKept = true := by
  have folded : fold.all isKept = true := by decide
  have backslash : isKept '\\' = true := rfl
  induction text generalizing isFirst isCut column with
  | nil => rfl
  | cons c rest inductionHypothesis =>
      rw [writeDouble]
      dsimp only
      cases verbatim : isVerbatim c with
      | true =>
          have kept := isKept_of_isVerbatim verbatim
          simp only [if_true]
          repeat' split
          all_goals
            simp only [List.all_append, List.all_cons, List.all_nil,
              inductionHypothesis, folded, backslash, kept, Bool.and_self]
      | false =>
          have kept := all_isKept_escape c
          simp only [Bool.false_eq_true, if_false]
          repeat' split
          all_goals
            simp only [List.all_append, List.all_cons, List.all_nil,
              inductionHypothesis, folded, backslash, kept, Bool.and_self]

end Yaml
end ShaderLift
