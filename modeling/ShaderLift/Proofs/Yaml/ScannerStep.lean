import ShaderLift.Proofs.Yaml.DoubleQuotes
import ShaderLift.Proofs.Yaml.PlainScalar
import ShaderLift.Proofs.Yaml.SingleQuotes
import ShaderLift.Yaml.Token

/-!
# Steps of the scanner

What the scanner does with the pieces of a record: the dash that opens it, a
name, a colon and a text.  Between two pieces only the place, the tokens and the
indentation are of interest; no key is expected and no flow collection is open.
-/

namespace ShaderLift
namespace Yaml

/-! ## Places -/

namespace Place

theorem skip_add
    (count more : Nat)
    (place : Place) : place.skip (count + more) = (place.skip count).skip more := by
  induction count generalizing place with
  | zero => rw [Nat.zero_add]; rfl
  | succ count inductionHypothesis =>
      rw [Nat.succ_add, skip, skip]
      cases found : place.rest with
      | nil =>
          cases more with
          | zero => rfl
          | succ more => rw [skip, found]
      | cons c rest => exact inductionHypothesis _

/-- A character that moves the place by one column. -/
def isPlainStep (c : Char) : Bool :=
  !isBreak c && c != '\ufeff'

theorem skip_append
    {place : Place}
    {word rest : List Char}
    (ahead : place.rest = word ++ rest)
    (steps : ∀ c ∈ word, isPlainStep c = true) :
    place.skip word.length =
      ⟨rest, place.line, place.column + word.length, place.index + word.length⟩ := by
  induction word generalizing place with
  | nil =>
      rw [← (show place.rest = rest from ahead)]
      rfl
  | cons c word inductionHypothesis =>
      obtain ⟨step, steps⟩ := List.forall_mem_cons.mp steps
      simp only [isPlainStep, Bool.and_eq_true, Bool.not_eq_true', bne_iff_ne] at step
      rw [List.cons_append] at ahead
      simp only [List.length_cons, skip, ahead, step, Bool.false_eq_true, if_false]
      rw [inductionHypothesis rfl steps]
      dsimp only
      congr 1 <;> omega

theorem exists_skip_append
    {place : Place}
    {word rest : List Char}
    (ahead : place.rest = word ++ rest) :
    ∃ line column index, place.skip word.length = ⟨rest, line, column, index⟩ := by
  induction word generalizing place with
  | nil =>
      rw [← (show place.rest = rest from ahead)]
      exact ⟨_, _, _, rfl⟩
  | cons c word inductionHypothesis =>
      rw [List.cons_append] at ahead
      simp only [List.length_cons, skip, ahead]
      apply inductionHypothesis
      split <;> rfl

theorem moveTo_append
    {place : Place}
    {word rest : List Char}
    (ahead : place.rest = word ++ rest) :
    place.moveTo rest = place.skip word.length := by
  rw [moveTo, ahead, List.length_append, Nat.add_sub_cancel]

/-- Behind a line end and spaces, the column is the number of spaces. -/
theorem moveTo_line
    {place : Place}
    {word left : List Char}
    {count : Nat}
    (ahead : place.rest = word ++ '\n' :: (List.replicate count ' ' ++ left)) :
    ∃ line index, place.moveTo left = ⟨left, line, count, index⟩ := by
  obtain ⟨line, column, index, skipped⟩ := exists_skip_append ahead
  have steps : ∀ c ∈ List.replicate count ' ', isPlainStep c = true := by
    simp [isPlainStep, isBreak]
  have spaces := @skip_append
    ⟨List.replicate count ' ' ++ left, line + 1, 0, index + 1⟩ _ left rfl steps
  have parts : place.rest = (word ++ '\n' :: List.replicate count ' ') ++ left := by
    simp [ahead]
  rw [moveTo_append parts, List.length_append, skip_add, skipped, List.length_cons, skip]
  simp only [isBreak, beq_self_eq_true, Bool.true_or, if_true]
  rw [spaces, Nat.zero_add, List.length_replicate]
  exact ⟨_, _, rfl⟩

end Place

/-! ## Blanks -/

/-- The text does not start with a blank, a comment or a byte order mark. -/
structure StartsToken (text : List Char) : Prop where
  shown : text = [] ∨ StartsVisible text
  noComment : text.head? ≠ some '#'
  noMark : text.head? ≠ some '\ufeff'

theorem dropBlank_token
    {text : List Char}
    (starts : StartsToken text) : dropBlank false text = (false, text) := by
  obtain ⟨rfl | ⟨c, rest, rfl, visible⟩, noComment, _⟩ := starts
  · rfl
  · simp only [isWhite, Bool.or_eq_false_iff, beq_eq_false_iff_ne] at visible
    have other : c ≠ '#' := by simpa using noComment
    simp [dropBlank, visible, other]

theorem dropBlank_spaces
    {text : List Char}
    (starts : StartsToken text)
    (count : Nat) :
    dropBlank false (List.replicate count ' ' ++ text) = (false, text) := by
  induction count with
  | zero => exact dropBlank_token starts
  | succ count inductionHypothesis =>
      simpa [List.replicate_succ, dropBlank, isBreak] using inductionHypothesis

theorem dropBlank_line
    {text : List Char}
    (starts : StartsToken text)
    (count : Nat) :
    dropBlank false ('\n' :: (List.replicate count ' ' ++ text)) = (true, text) := by
  simp [dropBlank, isBreak, dropBlank_spaces starts]

/-! ## States -/

namespace Scanner

/-- The scanner outside flow collections, where a key may start and no
candidate is open. -/
def ready
    (place : Place)
    (tokens : List Token)
    (indent : Int)
    (outer : List Int) : Scanner :=
  { place, tokens, indent, outer }

/-- The scanner goes on at a column with a text, after it has taken the
tokens. -/
def GoesOn
    (scanner : Scanner)
    (column : Nat)
    (text : List Char)
    (tokens : List Token)
    (indent : Int)
    (outer : List Int) : Prop :=
  ∃ line index,
    scanner.toNextToken = ready ⟨text, line, column, index⟩ tokens indent outer

/-- So many steps lead from one scanner to the other. -/
def Leads (count : Nat) (scanner next : Scanner) : Prop :=
  ∀ fuel, scanAll (fuel + count) scanner = scanAll fuel next

theorem Leads.trans
    {count more : Nat}
    {first second third : Scanner}
    (leads : Leads count first second)
    (goesOn : Leads more second third) : Leads (more + count) first third := by
  intro fuel
  rw [← Nat.add_assoc, leads, goesOn]

/-- One token is taken. -/
theorem leads_one
    {scanner fresh next : Scanner}
    {c : Char}
    {rest : List Char}
    (refreshed : scanner.toNextToken.refreshAll = .ok fresh)
    (ahead : (fresh.unwind fresh.place.column).place.rest = c :: rest)
    (taken : (fresh.unwind fresh.place.column).takeToken c rest = .ok next) :
    Leads 1 scanner next := by
  intro fuel
  rw [scanAll]
  simp only [refreshed, ahead, taken]

theorem unwind_of_le
    {scanner : Scanner}
    {column : Int}
    (deep : scanner.indent ≤ column) : scanner.unwind column = scanner := by
  have kept : closeBlocks column scanner.outer scanner.indent scanner.tokens =
      (scanner.outer, scanner.indent, scanner.tokens) := by
    cases found : scanner.outer with
    | nil => rfl
    | cons next outer => rw [closeBlocks, if_neg (by omega)]
  unfold unwind
  split
  · rfl
  · rw [kept]

/-- One token is taken inside the collections that are open. -/
theorem leads_taken
    {scanner ahead next : Scanner}
    {c : Char}
    {rest : List Char}
    (stands : scanner.toNextToken = ahead)
    (fresh : ahead.refreshAll = .ok ahead)
    (deep : ahead.indent ≤ ahead.place.column)
    (text : ahead.place.rest = c :: rest)
    (taken : ahead.takeToken c rest = .ok next) : Leads 1 scanner next := by
  have unwound : ahead.unwind ahead.place.column = ahead := unwind_of_le deep
  subst stands
  apply leads_one fresh
  · rw [unwound, text]
  · rw [unwound, taken]

theorem toNextToken_of_startsToken
    {scanner : Scanner}
    (starts : StartsToken scanner.place.rest) : scanner.toNextToken = scanner := by
  have noMark : (scanner.place.rest.head? == some '\ufeff') = false :=
    beq_eq_false_iff_ne.mpr starts.noMark
  have stays : scanner.place.moveTo scanner.place.rest = scanner.place := by
    rw [Place.moveTo, Nat.sub_self]
    rfl
  unfold toNextToken
  rw [noMark]
  simp only [Bool.and_false, Bool.false_eq_true, if_false, dropBlank_token starts,
    Bool.false_and, Scanner.moveTo, stays]

theorem toNextToken_space
    {scanner : Scanner}
    {text : List Char}
    (ahead : scanner.place.rest = ' ' :: text)
    (starts : StartsToken text) :
    scanner.toNextToken =
      { scanner with
        place := ⟨text, scanner.place.line, scanner.place.column + 1,
          scanner.place.index + 1⟩ } := by
  have noMark : (scanner.place.rest.head? == some '\ufeff') = false := by
    rw [ahead]
    rfl
  have blank : dropBlank false (' ' :: text) = (false, text) := dropBlank_spaces starts 1
  have moved : scanner.place.moveTo text =
      ⟨text, scanner.place.line, scanner.place.column + 1, scanner.place.index + 1⟩ := by
    rw [@Place.moveTo_append _ [' '] text ahead]
    exact @Place.skip_append _ [' '] text ahead (by simp [Place.isPlainStep, isBreak])
  unfold toNextToken
  rw [noMark]
  simp only [Bool.and_false, Bool.false_eq_true, if_false, ahead, blank,
    Scanner.moveTo, moved, Bool.false_and]

theorem toNextToken_line
    {scanner : Scanner}
    {count : Nat}
    {left : List Char}
    (ahead : scanner.place.rest = '\n' :: (List.replicate count ' ' ++ left))
    (starts : StartsToken left)
    (outside : scanner.around = []) :
    ∃ line index, scanner.toNextToken =
      { scanner with place := ⟨left, line, count, index⟩, keyAllowed := true } := by
  obtain ⟨line, index, moved⟩ := @Place.moveTo_line scanner.place [] left count ahead
  refine ⟨line, index, ?_⟩
  have noMark : (scanner.place.rest.head? == some '\ufeff') = false := by
    rw [ahead]
    rfl
  unfold toNextToken
  rw [noMark]
  simp only [Bool.and_false, Bool.false_eq_true, if_false, ahead,
    dropBlank_line starts, Scanner.moveTo, moved, inFlow, outside, List.isEmpty_nil,
    Bool.not_true, Bool.not_false, Bool.and_self, if_true]

/-! ## Scalars -/

/-- The token that a text is read as once it is written. -/
def scalarToken (text : List Char) : Token :=
  match styleOf text with
  | .plain => .scalar true text
  | .single => .scalar false (foldNextLines false text)
  | .double => .scalar false text

/-- The scanner behind a colon, where no key may start. -/
def waiting
    (place : Place)
    (tokens : List Token)
    (indent : Int)
    (outer : List Int) : Scanner :=
  { ready place tokens indent outer with keyAllowed := false }

/-- A text that may start a plain scalar starts nothing else. -/
theorem takeToken_plain
    {scanner : Scanner}
    {c : Char}
    {rest : List Char}
    (starts : plainStarts false (c :: rest) = true)
    (outside : scanner.around = [])
    (inside : scanner.place.column ≠ 0) :
    scanner.takeToken c rest = scanner.takePlainScalar := by
  have unmarked : ∀ mark ∈ ['%', '[', ']', '{', '}', ',', '*', '&', '!', '|', '>',
      '\'', '"'], c ≠ mark := by
    rintro mark member rfl
    simp only [List.mem_cons, List.not_mem_nil, or_false] at member
    rcases member with rfl | rfl | rfl | rfl | rfl | rfl | rfl | rfl | rfl | rfl | rfl |
      rfl | rfl <;> simp [plainStarts] at starts
  have undashed : ∀ mark ∈ ['-', '?', ':'], ¬ (c = mark ∧ atWordEnd rest = true) := by
    rintro mark member ⟨rfl, ends⟩
    simp only [List.mem_cons, List.not_mem_nil, or_false] at member
    rcases member with rfl | rfl | rfl <;> simp [plainStarts, ends] at starts
  have flow : scanner.inFlow = false := by rw [inFlow, outside]; rfl
  simp only [List.forall_mem_cons] at unmarked undashed
  unfold takeToken
  simp [unmarked, undashed, flow, inside, starts]

theorem takePlainScalar_waiting
    (place : Place)
    (tokens : List Token)
    (outer : List Int) :
    (waiting place tokens 2 outer).takePlainScalar =
      let scanned := takePlain false 3 (place.rest.length + 1) place.rest
      .ok { waiting (place.moveTo scanned.rest)
        (tokens ++ [.scalar true scanned.text]) 2 outer with
        keyAllowed := scanned.broken } :=
  rfl

/-- What is written of a plain text starts a plain scalar. -/
theorem exists_plainStarts
    {text : List Char}
    (plain : IsPlain text)
    (column : Nat)
    (tail : List Char) :
    ∃ c rest, writePlain false column text ++ tail = c :: rest ∧
      plainStarts false (c :: rest) = true := by
  obtain ⟨c, behind, rfl, noGap⟩ := plain.words.exists_cons
  obtain ⟨rest, written, noEnd⟩ := exists_writePlain_cons noGap false column behind tail
  obtain ⟨unmarked, dashed⟩ := plain.unmarked c behind rfl
  refine ⟨c, rest, written, ?_⟩
  by_cases dash : (c == '?' || c == ':' || c == '-') = true
  · have goesOn := noEnd (dashed dash)
    simp only [Bool.or_eq_true] at dash
    rcases dash with (dash | dash) | dash <;> simp [plainStarts, goesOn, dash]
  · have marks : ("-?:,[]\x7b\x7d#&*!|>'\"%@`".toList.all fun mark =>
        indicatorChars.contains mark || (mark == '?' || mark == ':' || mark == '-')) =
          true := rfl
    have unlisted : "-?:,[]\x7b\x7d#&*!|>'\"%@`".toList.contains c = false := by
      cases listed : "-?:,[]\x7b\x7d#&*!|>'\"%@`".toList.contains c with
      | false => rfl
      | true =>
          have known := List.all_eq_true.mp marks c (List.contains_iff_mem.mp listed)
          rw [unmarked, Bool.false_or] at known
          exact absurd known dash
    rw [plainStarts, isWhite_of_isGap noGap, unlisted]
    rfl

/-- A plain text behind a colon, up to the next line. -/
theorem goesOn_plain
    {place : Place}
    {text left : List Char}
    {column count : Nat}
    (plain : IsPlain text)
    (ahead : place.rest =
      writePlain false column text ++ '\n' :: (List.replicate count ' ' ++ left))
    (shallow : count < 3)
    (starts : StartsToken left)
    (tokens : List Token)
    (outer : List Int) :
    ∃ next, (waiting place tokens 2 outer).takePlainScalar = .ok next ∧
      GoesOn next count left (tokens ++ [.scalar true text]) 2 outer := by
  have reads : ReadsPlain 3 place.rest text left := by
    rw [ahead]
    exact readsPlain_writePlain plain.words plain.undivided (by decide)
      ⟨⟨count, shallow, rfl⟩, starts.shown⟩ false column
  obtain ⟨line, index, moved⟩ := Place.moveTo_line ahead
  refine ⟨ready ⟨left, line, count, index⟩ (tokens ++ [.scalar true text]) 2 outer,
    ?_, line, index, toNextToken_of_startsToken starts⟩
  rw [takePlainScalar_waiting, reads _ (Nat.lt_succ_self _)]
  dsimp only
  rw [moved]
  rfl

/-- The quote that opens a scalar. -/
def openingQuote (double : Bool) : Char :=
  if double then '"' else '\''

theorem takeToken_quote
    (scanner : Scanner)
    (double : Bool)
    (rest : List Char) :
    scanner.takeToken (openingQuote double) rest =
      scanner.takeContent fun _ =>
        (takeQuoted double (rest.length + 1) rest).map fun found =>
          (.scalar false found.1, found.2) := by
  cases double <;> simp [takeToken, openingQuote, atDocumentMark] <;> rfl

/-- A quoted text behind a colon, up to the next line. -/
theorem goesOn_quoted
    {double : Bool}
    {place : Place}
    {inside content left : List Char}
    {count : Nat}
    (ahead : place.rest = openingQuote double :: (inside ++
      openingQuote double :: '\n' :: (List.replicate count ' ' ++ left)))
    (reads : Reads double
      (inside ++ openingQuote double :: '\n' :: (List.replicate count ' ' ++ left))
      content ('\n' :: (List.replicate count ' ' ++ left)))
    (starts : StartsToken left)
    (tokens : List Token)
    (outer : List Int) :
    ∃ next, (waiting place tokens 2 outer).takeToken (openingQuote double) (inside ++
        openingQuote double :: '\n' :: (List.replicate count ' ' ++ left)) =
        .ok next ∧
      GoesOn next count left (tokens ++ [.scalar false content]) 2 outer := by
  have taken := reads _ (Nat.lt_succ_self _)
  have parts : place.rest = (openingQuote double :: (inside ++ [openingQuote double])) ++
      '\n' :: (List.replicate count ' ' ++ left) := by
    simp [ahead]
  obtain ⟨line, column, index, moved⟩ := Place.exists_skip_append parts
  rw [← Place.moveTo_append parts] at moved
  obtain ⟨line, index, advanced⟩ := @toNextToken_line
    (waiting ⟨'\n' :: (List.replicate count ' ' ++ left), line, column, index⟩
      (tokens ++ [.scalar false content]) 2 outer) count left rfl starts rfl
  refine ⟨_, ?_, line, index, advanced⟩
  rw [takeToken_quote, takeContent, taken, ← moved]
  rfl

/-- A text is plain, or it is written between quotes and read again up to the
closing one. -/
theorem isPlain_or_quoted
    (column : Nat)
    (text : List Char) :
    (IsPlain text ∧ writeScalar column text = writePlain false column text ∧
      scalarToken text = .scalar true text) ∨
    ∃ double inside content,
      writeScalar column text = openingQuote double :: (inside ++ [openingQuote double]) ∧
      scalarToken text = .scalar false content ∧
      ∀ left : List Char, left.head? ≠ some '\'' →
        Reads double (inside ++ openingQuote double :: left) content left := by
  unfold writeScalar scalarToken styleOf
  cases plain : allowsPlain text with
  | true => exact .inl ⟨isPlain_of_allowsPlain plain, rfl, rfl⟩
  | false =>
      cases single : allowsSingle text with
      | true =>
          refine .inr ⟨false, _, _, rfl, rfl, ?_⟩
          intro left alone
          exact reads_writeSingle (fitsSingle_of_allowsSingle single) (by simp)
            (column + 1) alone
      | false =>
          refine .inr ⟨true, _, _, rfl, rfl, ?_⟩
          intro left _
          exact reads_writeDouble true true (column + 1) text left

/-- What is written of a text is the start of a token. -/
theorem startsToken_writeScalar
    (column : Nat)
    (text rest : List Char) : StartsToken (writeScalar column text ++ rest) := by
  rcases isPlain_or_quoted column text with ⟨plain, written, _⟩ |
    ⟨double, inside, content, written, _⟩
  · obtain ⟨c, behind, rfl, noGap⟩ := plain.words.exists_cons
    obtain ⟨more, found, _⟩ := exists_writePlain_cons noGap false column behind rest
    have unmarked := (plain.unmarked c behind rfl).1
    have writable := plain.writable c List.mem_cons_self
    rw [written, found]
    refine ⟨.inr (StartsVisible.cons (isWhite_of_isGap noGap) more), ?_, ?_⟩
    · rintro ⟨⟩
      contradiction
    · rintro ⟨⟩
      contradiction
  · rw [written]
    cases double with
    | true => exact ⟨.inr (StartsVisible.cons rfl _), by simp [openingQuote],
        by simp [openingQuote]⟩
    | false => exact ⟨.inr (StartsVisible.cons rfl _), by simp [openingQuote],
        by simp [openingQuote]⟩

/-- A text behind a colon, up to the next line. -/
theorem leads_scalar
    {scanner : Scanner}
    {place : Place}
    {text left : List Char}
    {column count : Nat}
    {tokens : List Token}
    {outer : List Int}
    (stands : scanner.toNextToken = waiting place tokens 2 outer)
    (ahead : place.rest =
      writeScalar column text ++ '\n' :: (List.replicate count ' ' ++ left))
    (inside : 2 ≤ place.column)
    (shallow : count < 3)
    (starts : StartsToken left) :
    ∃ next, Leads 1 scanner next ∧
      GoesOn next count left (tokens ++ [scalarToken text]) 2 outer := by
  have deep : (2 : Int) ≤ place.column := by omega
  rcases isPlain_or_quoted column text with ⟨plain, written, token⟩ |
    ⟨double, inside, content, written, token, reads⟩
  · rw [written] at ahead
    rw [token]
    obtain ⟨c, rest, begins, isStart⟩ := exists_plainStarts plain column
      ('\n' :: (List.replicate count ' ' ++ left))
    obtain ⟨next, taken, goesOn⟩ := goesOn_plain plain ahead shallow starts tokens outer
    have notFirst : (waiting place tokens 2 outer).place.column ≠ 0 := by
      show place.column ≠ 0
      omega
    rw [← takeToken_plain isStart rfl notFirst] at taken
    exact ⟨next, leads_taken stands rfl deep (ahead.trans begins) taken, goesOn⟩
  · rw [written, List.cons_append, List.append_assoc, List.singleton_append] at ahead
    rw [token]
    obtain ⟨next, taken, goesOn⟩ :=
      goesOn_quoted ahead (reads _ (by simp)) starts tokens outer
    exact ⟨next, leads_taken stands rfl deep ahead taken, goesOn⟩

end Scanner

end Yaml
end ShaderLift
