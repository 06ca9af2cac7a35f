import ShaderLift.Shader.EntryPoint

/-!
# Where a signature occurs

A text spells a sequence of parts if it is made of their exact texts, with
blanks for their gaps.  Matching tries every width of every gap, so it succeeds
at the beginning of a text exactly if some beginning spells the parts, and a
text can be cut exactly if some stretch of it does.
-/

namespace ShaderLift
namespace Shader
namespace EntryPoint

open Text

/-- The text is made of the parts, in order. -/
inductive Spells : List Part → List Char → Prop
  | nil : Spells [] []
  | exactly {wanted text : List Char} {rest : List Part}
      (tail : Spells rest text) :
      Spells (.exactly wanted :: rest) (wanted ++ text)
  | gap {between text : List Char} {rest : List Part}
      (blank : ∀ c ∈ between, isBlank c = true)
      (tail : Spells rest text) :
      Spells (.gap :: rest) (between ++ text)
  | blanks {between text : List Char} {rest : List Part}
      (blank : ∀ c ∈ between, isBlank c = true)
      (present : between ≠ [])
      (tail : Spells rest text) :
      Spells (.blanks :: rest) (between ++ text)

/-- Some stretch of the text spells the parts. -/
def Occurs (parts : List Part) (text : List Char) : Prop :=
  ∃ before found after,
    text = before ++ found ++ after ∧ Spells parts found

/-! ## Gaps -/

/-- What a gap leads to is reached behind some blanks. -/
theorem exists_of_overGap
    {next : List Char → Option β}
    {text : List Char}
    {result : β}
    (reached : overGap next text = some result) :
    ∃ between rest, text = between ++ rest ∧
      (∀ c ∈ between, isBlank c = true) ∧ next rest = some result := by
  induction text with
  | nil => exact ⟨[], [], rfl, by simp, reached⟩
  | cons c cs inductionHypothesis =>
      rw [overGap] at reached
      split at reached
      · next blank =>
          rw [Option.or_eq_some_iff] at reached
          rcases reached with farther | ⟨-, here⟩
          · obtain ⟨between, rest, rfl, allBlank, found⟩ :=
              inductionHypothesis farther
            exact ⟨c :: between, rest, rfl, by simpa [blank] using allBlank,
              found⟩
          · exact ⟨[], c :: cs, rfl, by simp, here⟩
      · exact ⟨[], c :: cs, rfl, by simp, reached⟩

/-- A gap tries what stands behind any number of blanks. -/
theorem isSome_overGap
    {next : List Char → Option β}
    {between rest : List Char}
    (blank : ∀ c ∈ between, isBlank c = true)
    (succeeds : (next rest).isSome) :
    (overGap next (between ++ rest)).isSome := by
  induction between with
  | nil =>
      cases rest with
      | nil => exact succeeds
      | cons c cs =>
          rw [List.nil_append, overGap]
          split
          · rw [Option.isSome_or, succeeds, Bool.or_true]
          · exact succeeds
  | cons c cs inductionHypothesis =>
      have firstBlank : isBlank c = true := blank c List.mem_cons_self
      have reached := inductionHypothesis fun d member =>
        blank d (List.mem_cons_of_mem c member)
      rw [List.cons_append, overGap, if_pos firstBlank, Option.isSome_or,
        reached, Bool.true_or]

/-! ## Matching -/

/-- What a match passes over spells the parts. -/
theorem exists_spelling_of_matchParts
    {parts : List Part}
    {text left : List Char}
    (matched : matchParts parts text = some left) :
    ∃ found, text = found ++ left ∧ Spells parts found := by
  induction parts generalizing text with
  | nil =>
      rw [matchParts, Option.some.injEq] at matched
      exact ⟨[], by simpa using matched, .nil⟩
  | cons part rest inductionHypothesis =>
      cases part with
      | exactly wanted =>
          rw [matchParts] at matched
          split at matched
          · contradiction
          · next behind removed =>
              obtain ⟨found, rfl, spelled⟩ := inductionHypothesis matched
              rw [dropExact_eq_some_iff] at removed
              exact ⟨wanted ++ found, by simpa using removed, .exactly spelled⟩
      | gap =>
          rw [matchParts] at matched
          obtain ⟨between, behind, rfl, blank, reached⟩ :=
            exists_of_overGap matched
          obtain ⟨found, rfl, spelled⟩ := inductionHypothesis reached
          exact ⟨between ++ found, by simp, .gap blank spelled⟩
      | blanks =>
          cases text with
          | nil => simp [matchParts] at matched
          | cons c cs =>
              rw [matchParts] at matched
              split at matched
              · next first =>
                  obtain ⟨between, behind, rfl, blank, reached⟩ :=
                    exists_of_overGap matched
                  obtain ⟨found, rfl, spelled⟩ := inductionHypothesis reached
                  have allBlank : ∀ d ∈ c :: between, isBlank d = true := by
                    simpa [first] using blank
                  exact ⟨(c :: between) ++ found, by simp,
                    .blanks allBlank (by simp) spelled⟩
              · contradiction

/-- Parts match at the beginning of a text that starts by spelling them. -/
theorem isSome_matchParts_of_spells
    {parts : List Part}
    {found : List Char}
    (spelled : Spells parts found)
    (rest : List Char) :
    (matchParts parts (found ++ rest)).isSome := by
  induction spelled with
  | nil => simp [matchParts]
  | @exactly wanted text parts _ inductionHypothesis =>
      have removed : dropExact wanted (wanted ++ text ++ rest) =
          some (text ++ rest) := by
        rw [dropExact_eq_some_iff, List.append_assoc]
      rw [matchParts, removed]
      exact inductionHypothesis
  | gap blank _ inductionHypothesis =>
      rw [matchParts, List.append_assoc]
      exact isSome_overGap blank inductionHypothesis
  | @blanks between text parts blank present _ inductionHypothesis =>
      cases between with
      | nil => exact absurd rfl present
      | cons c cs =>
          have firstBlank : isBlank c = true := blank c List.mem_cons_self
          rw [List.cons_append, List.cons_append, matchParts,
            if_pos firstBlank, List.append_assoc]
          exact isSome_overGap
            (fun d member => blank d (List.mem_cons_of_mem c member))
            inductionHypothesis

/-- A text can be cut exactly if the parts occur in it. -/
theorem isSome_cut_iff_occurs
    (parts : List Part)
    (text : List Char) : (cut parts text).isSome ↔ Occurs parts text := by
  constructor
  · intro found
    induction text with
    | nil =>
        rw [cut, Option.isSome_map, Option.isSome_iff_exists] at found
        obtain ⟨left, matched⟩ := found
        obtain ⟨here, equal, spelled⟩ := exists_spelling_of_matchParts matched
        exact ⟨[], here, left, equal, spelled⟩
    | cons c cs inductionHypothesis =>
        rw [cut] at found
        split at found
        · next left matched =>
            obtain ⟨here, equal, spelled⟩ :=
              exists_spelling_of_matchParts matched
            exact ⟨[], here, left, equal, spelled⟩
        · rw [Option.isSome_map] at found
          obtain ⟨before, here, after, rfl, spelled⟩ :=
            inductionHypothesis found
          exact ⟨c :: before, here, after, rfl, spelled⟩
  · rintro ⟨before, here, after, rfl, spelled⟩
    have matched := isSome_matchParts_of_spells spelled after
    induction before with
    | nil =>
        rw [List.nil_append]
        cases behind : here ++ after with
        | nil =>
            rw [behind] at matched
            rw [cut, Option.isSome_map]
            exact matched
        | cons c cs =>
            rw [behind, Option.isSome_iff_exists] at matched
            obtain ⟨left, matched⟩ := matched
            rw [cut, matched]
            rfl
    | cons c cs inductionHypothesis =>
        rw [List.cons_append, List.cons_append, cut]
        split
        · rfl
        · rw [Option.isSome_map]
          exact inductionHypothesis

/-- The entry point is replaced exactly if the signature occurs. -/
theorem isSome_replace?_iff_occurs (colour coordinate source : List Char) :
    (replace? colour coordinate source).isSome ↔
      Occurs (signature colour coordinate) source := by
  rw [replace?, Option.isSome_map, isSome_cut_iff_occurs]

end EntryPoint
end Shader
end ShaderLift
