import ShaderLift.Proofs.MarginRenaming

/-!
# The signature that is replaced

A signature of the entry point is written out with the blanks between its words.
Where the names of the parameters are visible, the width of every gap is fixed by
the text, so that one signature at most starts at a place.  A source is rewritten
exactly if it holds a signature, and then the one that starts leftmost is
replaced, with the spaces and tabs behind it.
-/

namespace ShaderLift
namespace Shader
namespace EntryPoint

open Text Name

/-- Blanks, or nothing. -/
def IsGap (text : List Char) : Prop :=
  ∀ c ∈ text, isBlank c = true

/-- One blank or more. -/
structure IsSpacing (text : List Char) : Prop where
  present : text ≠ []
  blank : IsGap text

/-- A signature of the entry point with the given names of its parameters. -/
def IsSignature (colour coordinate text : List Char) : Prop :=
  ∃ afterVoid beforeOpening afterOpening afterOut afterColourType beforeComma
      afterComma afterIn afterCoordinateType beforeClosing,
    text = "void".toList ++ (afterVoid ++ ("mainImage".toList ++
      (beforeOpening ++ (['('] ++ (afterOpening ++ ("out".toList ++ (afterOut ++
      ("vec4".toList ++ (afterColourType ++ (colour ++ (beforeComma ++ ([','] ++
      (afterComma ++ ("in".toList ++ (afterIn ++ ("vec2".toList ++
      (afterCoordinateType ++ (coordinate ++
      (beforeClosing ++ [')']))))))))))))))))))) ∧
    IsSpacing afterVoid ∧ IsGap beforeOpening ∧ IsGap afterOpening ∧
    IsSpacing afterOut ∧ IsSpacing afterColourType ∧ IsGap beforeComma ∧
    IsGap afterComma ∧ IsSpacing afterIn ∧ IsSpacing afterCoordinateType ∧
    IsGap beforeClosing

/-- A signature between two texts.  Every other signature in the source starts
further right. -/
structure IsLeftmost (colour coordinate before found after : List Char) :
    Prop where
  isSignature : IsSignature colour coordinate found
  leftmost : ∀ before' found' after',
    before ++ (found ++ after) = before' ++ (found' ++ after') →
    IsSignature colour coordinate found' →
      before.length < before'.length ∨ before = before' ∧ found = found'

/-- The result of replacing the leftmost signature in a source, with all the
spaces and tabs that follow it. -/
def ReplacesLeftmost (colour coordinate source result : List Char) : Prop :=
  ∃ before found spaces after,
    source = before ++ (found ++ (spaces ++ after)) ∧
    IsLeftmost colour coordinate before found (spaces ++ after) ∧
    (∀ c ∈ spaces, c = ' ' ∨ c = '\t') ∧
    (∀ c, after.head? = some c → c ≠ ' ' ∧ c ≠ '\t') ∧
    result = before ++ ("void main() ".toList ++ after)

/-! ## Spelling a signature -/

theorem isSignature_iff_spells (colour coordinate text : List Char) :
    IsSignature colour coordinate text ↔
      Spells (signature colour coordinate) text := by
  constructor
  · rintro ⟨_, _, _, _, _, _, _, _, _, _, rfl, g1, g2, g3, g4, g5, g6, g7, g8,
      g9, g10⟩
    exact .exactly (.blanks g1.blank g1.present (.exactly (.gap g2 (.exactly
      (.gap g3 (.exactly (.blanks g4.blank g4.present (.exactly
      (.blanks g5.blank g5.present (.exactly (.gap g6 (.exactly (.gap g7
      (.exactly (.blanks g8.blank g8.present (.exactly
      (.blanks g9.blank g9.present (.exactly (.gap g10
      (.exactly .nil))))))))))))))))))))
  · intro spelled
    obtain ⟨_, rfl, afterVoid⟩ := exists_of_spells_exactly spelled
    obtain ⟨_, _, rfl, b1, p1, fromName⟩ := exists_of_spells_blanks afterVoid
    obtain ⟨_, rfl, afterName⟩ := exists_of_spells_exactly fromName
    obtain ⟨_, _, rfl, b2, fromOpening⟩ := exists_of_spells_gap afterName
    obtain ⟨_, rfl, afterOpening⟩ := exists_of_spells_exactly fromOpening
    obtain ⟨_, _, rfl, b3, fromOut⟩ := exists_of_spells_gap afterOpening
    obtain ⟨_, rfl, afterOut⟩ := exists_of_spells_exactly fromOut
    obtain ⟨_, _, rfl, b4, p4, fromColourType⟩ :=
      exists_of_spells_blanks afterOut
    obtain ⟨_, rfl, afterColourType⟩ := exists_of_spells_exactly fromColourType
    obtain ⟨_, _, rfl, b5, p5, fromColour⟩ :=
      exists_of_spells_blanks afterColourType
    obtain ⟨_, rfl, afterColour⟩ := exists_of_spells_exactly fromColour
    obtain ⟨_, _, rfl, b6, fromComma⟩ := exists_of_spells_gap afterColour
    obtain ⟨_, rfl, afterComma⟩ := exists_of_spells_exactly fromComma
    obtain ⟨_, _, rfl, b7, fromIn⟩ := exists_of_spells_gap afterComma
    obtain ⟨_, rfl, afterIn⟩ := exists_of_spells_exactly fromIn
    obtain ⟨_, _, rfl, b8, p8, fromCoordinateType⟩ :=
      exists_of_spells_blanks afterIn
    obtain ⟨_, rfl, afterCoordinateType⟩ :=
      exists_of_spells_exactly fromCoordinateType
    obtain ⟨_, _, rfl, b9, p9, fromCoordinate⟩ :=
      exists_of_spells_blanks afterCoordinateType
    obtain ⟨_, rfl, afterCoordinate⟩ := exists_of_spells_exactly fromCoordinate
    obtain ⟨_, _, rfl, b10, fromClosing⟩ := exists_of_spells_gap afterCoordinate
    obtain ⟨_, rfl, done⟩ := exists_of_spells_exactly fromClosing
    cases done
    exact ⟨_, _, _, _, _, _, _, _, _, _, rfl, ⟨p1, b1⟩, b2, b3, ⟨p4, b4⟩,
      ⟨p5, b5⟩, b6, b7, ⟨p8, b8⟩, ⟨p9, b9⟩, b10⟩

theorem occurs_signature_iff (colour coordinate source : List Char) :
    Occurs (signature colour coordinate) source ↔
      ∃ before found after, source = before ++ (found ++ after) ∧
        IsSignature colour coordinate found := by
  simp only [Occurs, isSignature_iff_spells, List.append_assoc]

/-- Blanks before a visible text are all the blanks there. -/
theorem Firm.takeWhile_eq
    {wanted : List Char}
    {rest : List Part}
    (firm : Firm (.exactly wanted :: rest))
    {between text : List Char}
    (blank : ∀ c ∈ between, isBlank c = true)
    (spelled : Spells (.exactly wanted :: rest) text)
    (behind : List Char) :
    (between ++ (text ++ behind)).takeWhile isBlank = between := by
  cases firm with
  | exactly present shown _ =>
      obtain ⟨left, rfl, -⟩ := exists_of_spells_exactly spelled
      obtain ⟨c, cs, rfl⟩ := List.exists_cons_of_ne_nil present
      rw [List.takeWhile_append_of_pos blank]
      simp [shown c List.mem_cons_self]

/-- The blanks before a visible text are fixed. -/
theorem Firm.between_unique
    {wanted : List Char}
    {rest : List Part}
    (firm : Firm (.exactly wanted :: rest))
    {between between' text text' after after' : List Char}
    (blank : ∀ c ∈ between, isBlank c = true)
    (blank' : ∀ c ∈ between', isBlank c = true)
    (spelled : Spells (.exactly wanted :: rest) text)
    (spelled' : Spells (.exactly wanted :: rest) text')
    (same : between ++ text ++ after = between' ++ text' ++ after') :
    between = between' ∧ text ++ after = text' ++ after' := by
  rw [List.append_assoc, List.append_assoc] at same
  obtain rfl : between = between' := by
    rw [← firm.takeWhile_eq blank spelled after, same,
      firm.takeWhile_eq blank' spelled' after']
  exact ⟨rfl, List.append_cancel_left same⟩

/-- One spelling at most starts at a place. -/
theorem Firm.spells_unique
    {parts : List Part}
    (firm : Firm parts)
    {found found' : List Char}
    (spelled : Spells parts found)
    (spelled' : Spells parts found')
    {after after' : List Char}
    (same : found ++ after = found' ++ after') : found = found' := by
  -- Each part takes as much of both texts, so what is behind it stays the same.
  induction firm generalizing found found' with
  | nil =>
      cases spelled
      cases spelled'
      rfl
  | exactly _ _ _ inductionHypothesis =>
      obtain ⟨left, rfl, rest⟩ := exists_of_spells_exactly spelled
      obtain ⟨left', rfl, rest'⟩ := exists_of_spells_exactly spelled'
      rw [List.append_assoc, List.append_assoc,
        List.append_cancel_left_eq] at same
      rw [inductionHypothesis rest rest' same]
  | gap firm inductionHypothesis =>
      obtain ⟨between, left, rfl, blank, rest⟩ := exists_of_spells_gap spelled
      obtain ⟨between', left', rfl, blank', rest'⟩ :=
        exists_of_spells_gap spelled'
      obtain ⟨rfl, behind⟩ := firm.between_unique blank blank' rest rest' same
      rw [inductionHypothesis rest rest' behind]
  | blanks firm inductionHypothesis =>
      obtain ⟨between, left, rfl, blank, -, rest⟩ :=
        exists_of_spells_blanks spelled
      obtain ⟨between', left', rfl, blank', -, rest'⟩ :=
        exists_of_spells_blanks spelled'
      obtain ⟨rfl, behind⟩ := firm.between_unique blank blank' rest rest' same
      rw [inductionHypothesis rest rest' behind]

/-! ## Cutting at the leftmost occurrence -/

/-- A text is cut at an occurrence of the parts, and none starts further
left. -/
theorem exists_of_cut
    {parts : List Part}
    {text before left : List Char}
    (found : cut parts text = some (before, left)) :
    ∃ here, text = before ++ (here ++ left) ∧ Spells parts here ∧
      ∀ before' here' left', text = before' ++ (here' ++ left') →
        Spells parts here' → before.length ≤ before'.length := by
  induction text generalizing before with
  | nil =>
      rw [cut, Option.map_eq_some_iff] at found
      obtain ⟨_, matched, equal⟩ := found
      obtain ⟨rfl, rfl⟩ := Prod.mk.inj equal
      obtain ⟨here, divided, spelled⟩ := exists_spelling_of_matchParts matched
      exact ⟨here, divided, spelled, fun _ _ _ _ _ => Nat.zero_le _⟩
  | cons c cs inductionHypothesis =>
      rw [cut] at found
      split at found
      · next matched =>
          obtain ⟨rfl, rfl⟩ := Prod.mk.inj (Option.some.inj found)
          obtain ⟨here, divided, spelled⟩ :=
            exists_spelling_of_matchParts matched
          exact ⟨here, divided, spelled, fun _ _ _ _ _ => Nat.zero_le _⟩
      · next unmatched =>
          obtain ⟨⟨front, _⟩, later, equal⟩ := Option.map_eq_some_iff.mp found
          obtain ⟨rfl, rfl⟩ := Prod.mk.inj equal
          obtain ⟨here, divided, spelled, leftmost⟩ := inductionHypothesis later
          refine ⟨here, congrArg (c :: ·) divided, spelled, ?_⟩
          intro before' here' left' equal spelled'
          -- An occurrence at the very front would have been matched.
          cases before' with
          | nil =>
              have matched := isSome_matchParts_of_spells spelled' left'
              rw [← List.nil_append (here' ++ left'), ← equal, unmatched]
                at matched
              contradiction
          | cons d front' =>
              obtain ⟨-, equal⟩ := List.cons.inj equal
              exact Nat.succ_le_succ (leftmost _ _ _ equal spelled')

/-- A source is cut at its leftmost signature. -/
theorem exists_isLeftmost_of_cut
    {colour coordinate source before left : List Char}
    (firm : Firm (signature colour coordinate))
    (found : cut (signature colour coordinate) source = some (before, left)) :
    ∃ here, source = before ++ (here ++ left) ∧
      IsLeftmost colour coordinate before here left := by
  obtain ⟨here, rfl, spelled, leftmost⟩ := exists_of_cut found
  refine ⟨here, rfl, (isSignature_iff_spells _ _ _).mpr spelled, ?_⟩
  intro before' here' left' equal isSignature
  have spelled' := (isSignature_iff_spells _ _ _).mp isSignature
  rcases Nat.lt_or_eq_of_le (leftmost _ _ _ equal spelled') with
    further | sameLength
  · exact Or.inl further
  · obtain ⟨rfl, same⟩ := List.append_inj equal sameLength
    exact Or.inr ⟨rfl, firm.spells_unique spelled spelled' same⟩

/-- Two leftmost signatures of a source are the same. -/
theorem IsLeftmost.unique
    {colour coordinate before found after before' found' after' : List Char}
    (first : IsLeftmost colour coordinate before found after)
    (second : IsLeftmost colour coordinate before' found' after')
    (same : before ++ (found ++ after) = before' ++ (found' ++ after')) :
    before = before' ∧ found = found' ∧ after = after' := by
  rcases first.leftmost _ _ _ same second.isSignature with further | equal
  · rcases second.leftmost _ _ _ same.symm first.isSignature with
      further' | ⟨rfl, -⟩
    · exact absurd further (Nat.lt_asymm further')
    · exact absurd further (Nat.lt_irrefl _)
  · obtain ⟨rfl, rfl⟩ := equal
    exact ⟨rfl, rfl, by simpa using same⟩

/-! ## Replacing the signature -/

theorem isSpaceOrTab_iff (c : Char) :
    isSpaceOrTab c = true ↔ c = ' ' ∨ c = '\t' := by
  simp [isSpaceOrTab]

/-- What is dropped behind a signature is fixed by the text. -/
theorem dropWhile_isSpaceOrTab_append
    {spaces after : List Char}
    (spaced : ∀ c ∈ spaces, c = ' ' ∨ c = '\t')
    (stops : ∀ c, after.head? = some c → c ≠ ' ' ∧ c ≠ '\t') :
    (spaces ++ after).dropWhile isSpaceOrTab = after := by
  have allSpaces : ∀ c ∈ spaces, isSpaceOrTab c = true :=
    fun c member => (isSpaceOrTab_iff c).mpr (spaced c member)
  rw [List.dropWhile_append_of_pos allSpaces]
  cases after with
  | nil => rfl
  | cons c cs =>
      have shown : isSpaceOrTab c = false := by
        have apart := stops c rfl
        simpa [isSpaceOrTab] using apart
      rw [List.dropWhile_cons_of_neg (by simp [shown])]

/-- A leftmost signature is replaced in one way. -/
theorem ReplacesLeftmost.unique
    {colour coordinate source result result' : List Char}
    (first : ReplacesLeftmost colour coordinate source result)
    (second : ReplacesLeftmost colour coordinate source result') :
    result = result' := by
  obtain ⟨before, found, spaces, after, rfl, leftmost, spaced, stops, rfl⟩ :=
    first
  obtain ⟨before', found', spaces', after', same, leftmost', spaced', stops',
    rfl⟩ := second
  obtain ⟨rfl, rfl, behind⟩ := leftmost.unique leftmost' same
  rw [← dropWhile_isSpaceOrTab_append spaced stops, behind,
    dropWhile_isSpaceOrTab_append spaced' stops']

theorem replacesLeftmost_of_replace?
    {colour coordinate source result : List Char}
    (firm : Firm (signature colour coordinate))
    (replaced : replace? colour coordinate source = some result) :
    ReplacesLeftmost colour coordinate source result := by
  obtain ⟨⟨before, left⟩, found, rfl⟩ := Option.map_eq_some_iff.mp replaced
  obtain ⟨here, rfl, leftmost⟩ := exists_isLeftmost_of_cut firm found
  refine ⟨before, here, left.takeWhile isSpaceOrTab,
    left.dropWhile isSpaceOrTab, ?_, ?_, ?_, ?_, ?_⟩
  · rw [List.takeWhile_append_dropWhile]
  · rwa [List.takeWhile_append_dropWhile]
  · intro c member
    exact (isSpaceOrTab_iff c).mp (List.mem_takeWhile_imp member)
  · intro c first
    have shown := List.head?_dropWhile_not isSpaceOrTab left
    rw [first] at shown
    simpa [isSpaceOrTab] using shown
  · exact List.append_assoc before mainSignature _

/-- The replacement of a source is that of its leftmost signature. -/
theorem replace?_eq_some_iff
    {colour coordinate : List Char}
    (firm : Firm (signature colour coordinate))
    (source result : List Char) :
    replace? colour coordinate source = some result ↔
      ReplacesLeftmost colour coordinate source result := by
  constructor
  · exact replacesLeftmost_of_replace? firm
  · intro wanted
    have occurs : Occurs (signature colour coordinate) source := by
      obtain ⟨before, found, spaces, after, rfl, leftmost, -⟩ := wanted
      exact (occurs_signature_iff _ _ _).mpr
        ⟨_, _, _, rfl, leftmost.isSignature⟩
    obtain ⟨replaced, equal⟩ := Option.isSome_iff_exists.mp
      ((isSome_replace?_iff_occurs _ _ _).mpr occurs)
    rw [equal, (replacesLeftmost_of_replace? firm equal).unique wanted]

end EntryPoint
end Shader

namespace Conversion

open Shader Text Name EntryPoint

theorem outcome_replaceEntryPoint
    (dialect : Dialect)
    (source : List Char) :
    (replaceEntryPoint dialect source).outcome =
      (replace? dialect.fragColor.toList dialect.fragCoord.toList source).elim
        (.error .missingEntryPoint) .ok := by
  rw [replaceEntryPoint]
  cases replace? dialect.fragColor.toList dialect.fragCoord.toList source with
  | none => rfl
  | some replaced => rfl

/-- A source is rewritten exactly if it holds a signature of the entry point.
Then the leftmost one is replaced, and otherwise the entry point is missing. -/
theorem replaceEntryPoint_replaces_leftmost
    (dialect : Dialect)
    (colourPresent : dialect.fragColor.toList ≠ [])
    (colourShown : ∀ c ∈ dialect.fragColor.toList, isBlank c = false)
    (coordinatePresent : dialect.fragCoord.toList ≠ [])
    (coordinateShown : ∀ c ∈ dialect.fragCoord.toList, isBlank c = false)
    (source : List Char) :
    ((∃ result, (replaceEntryPoint dialect source).outcome = .ok result) ↔
      isIn dialect.fragColor.toList dialect.fragCoord.toList source = true) ∧
    (isIn dialect.fragColor.toList dialect.fragCoord.toList source = true ↔
      ∃ before found after, source = before ++ (found ++ after) ∧
        IsSignature dialect.fragColor.toList dialect.fragCoord.toList found) ∧
    (∀ result, (replaceEntryPoint dialect source).outcome = .ok result ↔
      ReplacesLeftmost dialect.fragColor.toList dialect.fragCoord.toList source
        result) ∧
    (isIn dialect.fragColor.toList dialect.fragCoord.toList source = false →
      (replaceEntryPoint dialect source).outcome =
        .error .missingEntryPoint) := by
  have firm := firm_signature_of_shown colourPresent colourShown
    coordinatePresent coordinateShown
  have occurring : isIn dialect.fragColor.toList dialect.fragCoord.toList source
      = (replace? dialect.fragColor.toList dialect.fragCoord.toList
          source).isSome := by
    rw [isIn, replace?, Option.isSome_map]
  refine ⟨?_, ?_, ?_, ?_⟩
  · rw [occurring, outcome_replaceEntryPoint]
    cases replace? dialect.fragColor.toList dialect.fragCoord.toList source with
    | none => simp
    | some replaced => simp
  · rw [occurring, isSome_replace?_iff_occurs, occurs_signature_iff]
  · intro result
    rw [← replace?_eq_some_iff firm, outcome_replaceEntryPoint]
    cases replace? dialect.fragColor.toList dialect.fragCoord.toList source with
    | none => simp
    | some replaced => simp
  · intro absent
    rw [occurring, Option.isSome_eq_false_iff, Option.isNone_iff_eq_none]
      at absent
    rw [outcome_replaceEntryPoint, absent]
    rfl

/-- Two signatures behind the beginning of one, with tabs and a line break in
their gaps. -/
def repeatedSignature : List Char :=
  ("void mainImage(out void\n mainImage (out\tvec4 fragColor ,in vec2 " ++
    "fragCoord\n) \t\n{}\nvoid mainImage(out vec4 fragColor, " ++
    "in vec2 fragCoord) {}").toList

theorem replaceEntryPoint_replaces_leftmost_repeatedSignature :
    (Dialect.builtin.fragColor.toList ≠ [] ∧
      (∀ c ∈ Dialect.builtin.fragColor.toList, isBlank c = false) ∧
      Dialect.builtin.fragCoord.toList ≠ [] ∧
      ∀ c ∈ Dialect.builtin.fragCoord.toList, isBlank c = false) ∧
    ReplacesLeftmost "fragColor".toList "fragCoord".toList repeatedSignature
      ("void mainImage(out void main() \n{}\nvoid mainImage(" ++
        "out vec4 fragColor, in vec2 fragCoord) {}").toList := by
  have isColour : IsName Dialect.builtin.fragColor.toList := by
    decide +kernel
  have isCoordinate : IsName Dialect.builtin.fragCoord.toList := by
    decide +kernel
  have colourShown : ∀ c ∈ Dialect.builtin.fragColor.toList,
      isBlank c = false :=
    fun c member => isBlank_of_isWord (isColour.allWord c member)
  have coordinateShown : ∀ c ∈ Dialect.builtin.fragCoord.toList,
      isBlank c = false :=
    fun c member => isBlank_of_isWord (isCoordinate.allWord c member)
  refine ⟨⟨isColour.nonempty, colourShown, isCoordinate.nonempty,
    coordinateShown⟩, ?_⟩
  obtain ⟨-, -, replacing, -⟩ := replaceEntryPoint_replaces_leftmost .builtin
    isColour.nonempty colourShown isCoordinate.nonempty coordinateShown
    repeatedSignature
  refine (replacing _).mp ?_
  rw [outcome_replaceEntryPoint]
  decide +kernel

end Conversion
end ShaderLift
