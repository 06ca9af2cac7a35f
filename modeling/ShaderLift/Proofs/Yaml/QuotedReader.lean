import ShaderLift.Yaml.Scalar
import ShaderLift.Yaml.Write

/-!
# Reading quoted scalars

A reader takes a quoted scalar apart piece by piece: a visible character, a
stretch of white space, an escape, a closing quote.  Each piece is read as what
it stands for, whatever is read behind it.
-/

namespace ShaderLift
namespace Yaml

/-- Reading a quoted scalar behind its opening quote gives the content and
leaves what follows its closing quote. -/
def Reads (double : Bool) (text content left : List Char) : Prop :=
  ∀ fuel, text.length < fuel → takeQuoted double fuel text = .ok (content, left)

/-- The character has a meaning of its own between the quotes. -/
def isMark (double : Bool) (c : Char) : Bool :=
  if double then c == '"' || c == '\\' else c == '\''

/-- The text starts with a character that is no white space. -/
def StartsVisible (text : List Char) : Prop :=
  ∃ c rest, text = c :: rest ∧ isWhite c = false

/-- A space or a tab. -/
def isPad (c : Char) : Bool :=
  c == ' ' || c == '\t'

/-- Behind its first spaces and tabs, the text goes on on the same line. -/
def StaysOnLine (text : List Char) : Prop :=
  ∃ c rest, text.dropWhile isPad = c :: rest ∧ isBreak c = false

/-! ## Characters -/

theorem isWhite_eq (c : Char) : isWhite c = (isPad c || isBreak c) :=
  rfl

theorem isMark_of_isWhite
    {c : Char}
    (white : isWhite c = true)
    (double : Bool) : isMark double c = false := by
  simp only [isWhite, isBreak, Bool.or_eq_true, beq_iff_eq] at white
  rcases white with (rfl | rfl) | ((rfl | rfl) | rfl) | rfl <;>
    cases double <;> rfl

theorem StartsVisible.cons
    {c : Char}
    (visible : isWhite c = false)
    (rest : List Char) : StartsVisible (c :: rest) :=
  ⟨c, rest, rfl, visible⟩

theorem StartsVisible.staysOnLine
    {text : List Char}
    (visible : StartsVisible text) : StaysOnLine text := by
  obtain ⟨c, rest, rfl, shown⟩ := visible
  rw [isWhite_eq, Bool.or_eq_false_iff] at shown
  exact ⟨c, rest, List.dropWhile_cons_of_neg (by simp [shown.1]), shown.2⟩

theorem StaysOnLine.space
    {text : List Char}
    (stays : StaysOnLine text) : StaysOnLine (' ' :: text) := by
  obtain ⟨c, rest, dropped, noBreak⟩ := stays
  exact ⟨c, rest, by rw [List.dropWhile_cons_of_pos rfl, dropped], noBreak⟩

/-- A text is a run of characters of one kind and a rest that does not go on
with it. -/
theorem exists_run
    (kind : Char → Bool)
    (text : List Char) :
    ∃ run rest, text = run ++ rest ∧ (∀ c ∈ run, kind c = true) ∧
      rest.head?.any kind = false := by
  refine ⟨text.takeWhile kind, text.dropWhile kind,
    List.takeWhile_append_dropWhile.symm, List.all_eq_true.mp List.all_takeWhile, ?_⟩
  have stops := text.head?_dropWhile_not kind
  cases found : (text.dropWhile kind).head? with
  | none => rfl
  | some c => rw [found] at stops; exact stops

/-- A document holds the character as it is, also with its line ends unified. -/
def isKept (c : Char) : Bool :=
  isAllowed c && c != '\r'

theorem isKept_of_isWritable
    {c : Char}
    (writable : isWritable c = true) : isKept c = true := by
  have other : c ≠ '\r' := by
    rintro rfl
    contradiction
  simp only [isWritable, Bool.or_eq_true, Bool.and_eq_true, beq_iff_eq,
    decide_eq_true_eq] at writable
  simp only [isKept, isAllowed, Bool.or_eq_true, Bool.and_eq_true, beq_iff_eq,
    decide_eq_true_eq, bne_iff_ne]
  exact ⟨by omega, other⟩

/-! ## White space -/

theorem quotedSpacing_eq (text : List Char) :
    quotedSpacing text =
      match text.dropWhile isPad with
      | [] => .error .malformed
      | c :: rest =>
          if isBreak c then do
            let (breaks, left) ← quotedBreaks true rest
            pure (foldBreaks (readBreak c) breaks, left)
          else .ok (text.takeWhile isPad, c :: rest) :=
  rfl

/-- Spaces before other characters of the line are read as they are. -/
theorem quotedSpacing_of_staysOnLine
    {text : List Char}
    (stays : StaysOnLine text) :
    quotedSpacing text = .ok (text.takeWhile isPad, text.dropWhile isPad) := by
  obtain ⟨c, rest, dropped, noBreak⟩ := stays
  rw [quotedSpacing_eq, dropped]
  simp [noBreak]

/-- Line ends and the margin of the next line are read line end by line end. -/
theorem quotedBreaks_margin
    {text : List Char}
    (visible : StartsVisible text)
    (atStart : Bool) :
    quotedBreaks atStart (margin ++ text) = .ok ([], text) := by
  obtain ⟨c, rest, rfl, shown⟩ := visible
  simp only [isWhite_eq, isPad, Bool.or_eq_false_iff, beq_eq_false_iff_ne]
    at shown
  simp [margin, List.replicate, quotedBreaks, atDocumentMark, shown]

theorem quotedBreaks_breaks
    {breaks text : List Char}
    (all : ∀ c ∈ breaks, isBreak c = true)
    (visible : StartsVisible text) :
    quotedBreaks true (breaks ++ (margin ++ text)) =
      .ok (breaks.map readBreak, text) := by
  induction breaks with
  | nil => exact quotedBreaks_margin visible true
  | cons c breaks inductionHypothesis =>
      obtain ⟨isEnd, all⟩ := List.forall_mem_cons.mp all
      have unmarked : atDocumentMark (c :: (breaks ++ (margin ++ text))) = false := by
        simp only [isBreak, Bool.or_eq_true, beq_iff_eq] at isEnd
        rcases isEnd with ((rfl | rfl) | rfl) | rfl <;> rfl
      have noPad : ¬ (c = ' ' ∨ c = '\t') := by
        rintro (rfl | rfl) <;> contradiction
      rw [List.cons_append, quotedBreaks, inductionHypothesis all]
      simp only [unmarked, Bool.and_false, Bool.false_eq_true, if_false,
        Bool.or_eq_true, decide_eq_true_eq, noPad, isEnd, if_true]
      rfl

/-! ## Pieces of a scalar -/

/-- Put what was read before the rest of a scalar. -/
def continued
    (before : List Char)
    (rest : Except Fault (List Char × List Char)) :
    Except Fault (List Char × List Char) :=
  rest.map fun found => (before ++ found.1, found.2)

theorem takeQuoted_white
    {c : Char}
    (white : isWhite c = true)
    (double : Bool)
    (fuel : Nat)
    (rest : List Char) :
    takeQuoted double (fuel + 1) (c :: rest) =
      (quotedSpacing (c :: rest)).bind fun spaced =>
        continued spaced.1 (takeQuoted double fuel spaced.2) := by
  have unmarked := isMark_of_isWhite white double
  unfold isMark at unmarked
  rw [takeQuoted.eq_def]
  cases double <;> simp_all <;> rfl

theorem takeQuoted_visible
    {double : Bool}
    {c : Char}
    (unmarked : isMark double c = false)
    (visible : isWhite c = false)
    (fuel : Nat)
    (rest : List Char) :
    takeQuoted double (fuel + 1) (c :: rest) =
      continued [c] (takeQuoted double fuel rest) := by
  unfold isMark at unmarked
  rw [takeQuoted.eq_def]
  cases double <;> simp_all <;> rfl

theorem takeQuoted_backslash
    (fuel : Nat)
    (rest : List Char) :
    takeQuoted true (fuel + 1) ('\\' :: rest) =
      (takeEscape rest).bind fun escaped =>
        continued escaped.1 (takeQuoted true fuel escaped.2) := by
  rw [takeQuoted.eq_def]
  simp
  rfl

theorem takeQuoted_twice
    (fuel : Nat)
    (rest : List Char) :
    takeQuoted false (fuel + 1) ('\'' :: '\'' :: rest) =
      continued ['\''] (takeQuoted false fuel rest) :=
  rfl

namespace Reads

variable {double : Bool} {text content left : List Char}

/-- One step of the reader is enough to look at. -/
theorem of_step
    (step : ∀ fuel, text.length ≤ fuel →
      takeQuoted double (fuel + 1) text = .ok (content, left)) :
    Reads double text content left := by
  intro fuel enough
  obtain ⟨fuel, rfl⟩ : ∃ less, fuel = less + 1 := ⟨fuel - 1, by omega⟩
  exact step fuel (by omega)

theorem visible
    {c : Char}
    (reads : Reads double text content left)
    (unmarked : isMark double c = false)
    (shown : isWhite c = false) :
    Reads double (c :: text) (c :: content) left := by
  apply of_step
  intro fuel enough
  rw [takeQuoted_visible unmarked shown, reads fuel enough]
  rfl

/-- A stretch of white space is read as a whole. -/
theorem spacing
    {c : Char}
    {rest spaces : List Char}
    (reads : Reads double text content left)
    (white : isWhite c = true)
    (spaced : quotedSpacing (c :: rest) = .ok (spaces, text))
    (shorter : text.length ≤ rest.length) :
    Reads double (c :: rest) (spaces ++ content) left := by
  apply of_step
  intro fuel enough
  rw [List.length_cons] at enough
  rw [takeQuoted_white white, spaced, Except.bind, reads fuel (by omega)]
  rfl

/-- A space before other characters of the line is read on its own, even if
more spaces follow it. -/
theorem space
    (reads : Reads double text content left)
    (stays : StaysOnLine text) :
    Reads double (' ' :: text) (' ' :: content) left := by
  have spaced := quotedSpacing_of_staysOnLine stays.space
  rw [List.takeWhile_cons_of_pos rfl, List.dropWhile_cons_of_pos rfl] at spaced
  cases text with
  | nil => obtain ⟨c, rest, dropped, _⟩ := stays; contradiction
  | cons c rest =>
      cases padded : isPad c with
      | false =>
          rw [List.takeWhile_cons_of_neg (by simp [padded]),
            List.dropWhile_cons_of_neg (by simp [padded])] at spaced
          exact reads.spacing rfl spaced (Nat.le_refl _)
      | true =>
          -- The reader takes the whole stretch at once, with the space or without.
          have white : isWhite c = true := by rw [isWhite_eq, padded, Bool.true_or]
          apply of_step
          intro fuel enough
          have behind := reads (fuel + 1) (Nat.lt_succ_of_lt enough)
          rw [takeQuoted_white white, quotedSpacing_of_staysOnLine stays,
            Except.bind] at behind
          rw [takeQuoted_white rfl, spaced, Except.bind]
          dsimp only at behind ⊢
          cases taken : takeQuoted double fuel ((c :: rest).dropWhile isPad) with
          | error fault => rw [taken] at behind; contradiction
          | ok found =>
              rw [taken] at behind
              cases behind
              rfl

/-- Line ends before the margin of a line are folded. -/
theorem breaks
    {c : Char}
    {ends : List Char}
    (reads : Reads double text content left)
    (isEnd : isBreak c = true)
    (allEnds : ∀ d ∈ ends, isBreak d = true)
    (shown : StartsVisible text) :
    Reads double (c :: (ends ++ (margin ++ text)))
      (foldBreaks (readBreak c) (ends.map readBreak) ++ content) left := by
  have noPad : isPad c = false := by
    cases padded : isPad c with
    | false => rfl
    | true =>
        simp only [isPad, Bool.or_eq_true, beq_iff_eq] at padded
        rcases padded with rfl | rfl <;> contradiction
  have spaced : quotedSpacing (c :: (ends ++ (margin ++ text))) =
      .ok (foldBreaks (readBreak c) (ends.map readBreak), text) := by
    rw [quotedSpacing_eq, List.dropWhile_cons_of_neg (by simp [noPad])]
    simp only [isEnd, if_true, quotedBreaks_breaks allEnds shown]
    rfl
  refine reads.spacing ?_ spaced ?_
  · rw [isWhite_eq, isEnd, Bool.or_true]
  · rw [List.length_append, List.length_append]
    omega

/-- A folded line is read as a space. -/
theorem fold
    (reads : Reads double text content left)
    (shown : StartsVisible text) :
    Reads double (Yaml.fold ++ text) (' ' :: content) left :=
  reads.breaks rfl (List.forall_mem_nil _) shown

/-- An escape is read as what it stands for. -/
theorem escaped
    {code meaning : List Char}
    (reads : Reads true text content left)
    (taken : takeEscape (code ++ text) = .ok (meaning, text)) :
    Reads true ('\\' :: (code ++ text)) (meaning ++ content) left := by
  apply of_step
  intro fuel enough
  rw [List.length_cons, List.length_append] at enough
  rw [takeQuoted_backslash, taken, Except.bind, reads fuel (by omega)]
  rfl

/-- A line that is cut behind a backslash is read as if it went on. -/
theorem cut
    (reads : Reads true text content left)
    (shown : StartsVisible text) :
    Reads true ('\\' :: (Yaml.fold ++ text)) content left := by
  have taken : takeEscape (Yaml.fold ++ text) = .ok ([], text) :=
    quotedBreaks_margin shown true
  exact reads.escaped taken

/-- A quote that is written twice is one quote. -/
theorem twice (reads : Reads false text content left) :
    Reads false ('\'' :: '\'' :: text) ('\'' :: content) left := by
  apply of_step
  intro fuel enough
  rw [List.length_cons, List.length_cons] at enough
  rw [takeQuoted_twice, reads fuel (by omega)]
  rfl

end Reads

/-- The closing quote ends a scalar between double quotes. -/
theorem reads_double_nil (left : List Char) : Reads true ('"' :: left) [] left := by
  apply Reads.of_step
  intro fuel _
  rw [takeQuoted.eq_def]
  rfl

/-- A quote without another one behind it ends a scalar between single
quotes. -/
theorem reads_single_nil
    {left : List Char}
    (alone : left.head? ≠ some '\'') : Reads false ('\'' :: left) [] left := by
  apply Reads.of_step
  intro fuel _
  rw [takeQuoted.eq_def]
  simp only [Bool.false_and, Bool.not_false, Bool.true_and, beq_self_eq_true,
    if_true, Bool.false_eq_true, if_false]
  split
  · exact absurd rfl alone
  · rfl

end Yaml
end ShaderLift
