import ShaderLift.Text.Replace

/-!
# Replacement as a relation

The walk of a replacement over a text is a sequence of steps.  A character is
kept where no occurrence starts, an occurrence is replaced as a whole, and an
occurrence of no characters is written before the character it stands at.
Statements about a replacement go by induction on these steps.
-/

namespace ShaderLift
namespace Text

/-- The second text is the first one with its occurrences replaced, where the
first one follows the given character. -/
inductive Replaced (search : Search) :
    Option Char → List Char → List Char → Prop
  | nil {before : Option Char} : Replaced search before [] []
  | keep {before : Option Char} {c : Char} {rest written : List Char}
      (absent : search before (c :: rest) = none)
      (tail : Replaced search (some c) rest written) :
      Replaced search before (c :: rest) (c :: written)
  | insert {before : Option Char} {c : Char}
      {rest replacement written : List Char}
      (found : search before (c :: rest) = some ⟨0, replacement⟩)
      (tail : Replaced search (some c) rest written) :
      Replaced search before (c :: rest) (replacement ++ c :: written)
  | replace {before : Option Char}
      {taken rest replacement written : List Char}
      (found : search before (taken ++ rest) =
        some ⟨taken.length, replacement⟩)
      (present : taken ≠ [])
      (tail : Replaced search taken.getLast? rest written) :
      Replaced search before (taken ++ rest) (replacement ++ written)

/-- A search never takes more characters than there are. -/
def Search.IsBounded (search : Search) : Prop :=
  ∀ before text occurrence, search before text = some occurrence →
    occurrence.length ≤ text.length

theorem getLast?_cons_or
    (c : Char)
    (cs : List Char)
    (previous : Option Char) :
    (c :: cs).getLast?.or previous = cs.getLast?.or (some c) := by
  rw [List.getLast?_cons]
  cases cs.getLast? <;> rfl

theorem getLast?_append_or
    {taken : List Char}
    (present : taken ≠ [])
    (rest : List Char)
    (previous : Option Char) :
    (taken ++ rest).getLast?.or previous =
      rest.getLast?.or taken.getLast? := by
  rw [List.getLast?_append, List.getLast?_eq_some_getLast present]
  cases rest.getLast? <;> rfl

/-- Passing over characters leads to what follows them. -/
theorem replaceFrom_append
    (search : Search)
    (before : Option Char)
    (passed rest : List Char) :
    replaceFrom search passed.length before (passed ++ rest) =
      replaceFrom search 0 (passed.getLast?.or before) rest := by
  induction passed generalizing before with
  | nil => rfl
  | cons c cs inductionHypothesis =>
      rw [List.length_cons, List.cons_append, replaceFrom_skip,
        inductionHypothesis, getLast?_cons_or]

/-- Where nothing is found a character is kept. -/
theorem replaceFrom_kept
    {search : Search}
    {before : Option Char}
    {c : Char}
    {rest : List Char}
    (absent : search before (c :: rest) = none) :
    replaceFrom search 0 before (c :: rest) =
      c :: replaceFrom search 0 (some c) rest := by
  rw [replaceFrom, absent]

/-- What is found is replaced, and the walk goes on behind it. -/
theorem replaceFrom_found
    {search : Search}
    {before : Option Char}
    {taken rest replacement : List Char}
    (found : search before (taken ++ rest) = some ⟨taken.length, replacement⟩)
    (present : taken ≠ []) :
    replaceFrom search 0 before (taken ++ rest) =
      replacement ++ replaceFrom search 0 taken.getLast? rest := by
  cases taken with
  | nil => exact absurd rfl present
  | cons c cs =>
      rw [List.cons_append, List.length_cons] at found
      rw [List.cons_append, replaceFrom, found]
      dsimp only
      rw [replaceFrom_append]
      cases cs <;> simp [List.getLast?_cons]

/-- The walk of a bounded search is a sequence of steps. -/
theorem replaced_replaceFrom
    {search : Search}
    (bounded : search.IsBounded)
    (before : Option Char)
    (text : List Char) :
    Replaced search before text (replaceFrom search 0 before text) := by
  match text with
  | [] => exact .nil
  | c :: cs =>
      cases finding : search before (c :: cs) with
      | none =>
          rw [replaceFrom_kept finding]
          exact .keep finding (replaced_replaceFrom bounded (some c) cs)
      | some occurrence =>
          obtain ⟨length, replacement⟩ := occurrence
          cases length with
          | zero =>
              rw [replaceFrom, finding]
              exact .insert finding (replaced_replaceFrom bounded (some c) cs)
          | succ passed =>
              have room : passed + 1 ≤ (c :: cs).length :=
                bounded _ _ _ finding
              obtain ⟨taken, rest, divided, length⟩ : ∃ taken rest,
                  c :: cs = taken ++ rest ∧ taken.length = passed + 1 :=
                ⟨_, _, (List.take_append_drop (passed + 1) (c :: cs)).symm,
                  List.length_take_of_le room⟩
              have present : taken ≠ [] :=
                List.ne_nil_of_length_eq_add_one length
              have shorter : rest.length < (c :: cs).length := by
                rw [divided, List.length_append, length]
                omega
              rw [divided, ← length] at finding
              rw [divided, replaceFrom_found finding present]
              exact .replace finding present
                (replaced_replaceFrom bounded _ rest)
termination_by text.length
decreasing_by
  · exact Nat.lt_succ_self _
  · exact Nat.lt_succ_self _
  · exact shorter

/-- Every replacement in a text is a sequence of steps. -/
theorem replaced_replaceAll
    {search : Search}
    (bounded : search.IsBounded)
    (text : List Char) :
    Replaced search none text (replaceAll search text) :=
  replaced_replaceFrom bounded none text

/-! ## Places -/

/-- Some place of the text is as asked for.  A place is the character before it
and the text from there, and the whole text follows the given character. -/
def Somewhere
    (place : Option Char → List Char → Prop)
    (previous : Option Char)
    (text : List Char) : Prop :=
  ∃ before rest, text = before ++ rest ∧
    place (before.getLast?.or previous) rest

theorem somewhere_cons
    {place : Option Char → List Char → Prop}
    {previous : Option Char}
    {c : Char}
    {rest : List Char} :
    Somewhere place previous (c :: rest) ↔
      place previous (c :: rest) ∨ Somewhere place (some c) rest := by
  constructor
  · rintro ⟨before, behind, equal, found⟩
    cases before with
    | nil =>
        rw [List.nil_append] at equal
        rw [equal]
        exact Or.inl found
    | cons d ds =>
        rw [List.cons_append, List.cons.injEq] at equal
        obtain ⟨rfl, rfl⟩ := equal
        rw [getLast?_cons_or] at found
        exact Or.inr ⟨ds, behind, rfl, found⟩
  · rintro (found | ⟨before, behind, rfl, found⟩)
    · exact ⟨[], c :: rest, rfl, found⟩
    · refine ⟨c :: before, behind, rfl, ?_⟩
      rwa [getLast?_cons_or]

/-- A place of a text that is put together lies in its second part or has some
of the first part behind it. -/
theorem somewhere_append
    {place : Option Char → List Char → Prop}
    {previous : Option Char}
    {first second : List Char} :
    Somewhere place previous (first ++ second) ↔
      (∃ before c behind, first = before ++ c :: behind ∧
        place (before.getLast?.or previous) (c :: behind ++ second)) ∨
      Somewhere place (first.getLast?.or previous) second := by
  constructor
  · rintro ⟨before, rest, equal, found⟩
    rcases List.append_eq_append_iff.mp equal with
      ⟨passed, rfl, rfl⟩ | ⟨behind, rfl, rfl⟩
    · rw [List.getLast?_append, Option.or_assoc] at found
      exact Or.inr ⟨passed, rest, rfl, found⟩
    · cases behind with
      | nil =>
          rw [List.append_nil]
          exact Or.inr ⟨[], second, rfl, found⟩
      | cons c behind => exact Or.inl ⟨before, c, behind, rfl, found⟩
  · rintro (⟨before, c, behind, rfl, found⟩ | ⟨passed, rest, rfl, found⟩)
    · exact ⟨before, c :: behind ++ second, by simp, found⟩
    · refine ⟨first ++ passed, rest, by simp, ?_⟩
      rwa [List.getLast?_append, Option.or_assoc]

end Text
end ShaderLift
