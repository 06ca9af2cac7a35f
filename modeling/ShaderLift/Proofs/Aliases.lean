import ShaderLift.Proofs.Renaming

/-!
# Resolving aliases makes no new names

What an alias is resolved to is a value of the dialect, perhaps with the member
that the use selects.  If no value of the dialect holds the first letter of a
name, resolving a whole table of aliases does not bring the name back: a member
may hold the letter, but it stands behind a dot.
-/

namespace ShaderLift
namespace Shader

open Text Name

/-- The value starts and ends with a word, and it does not hold the letter. -/
structure Lacks (letter : Char) (value : List Char) : Prop where
  starts : ∃ c, value.head? = some c ∧ isWord c = true
  ends : value.getLast?.any isWord = true
  absent : letter ∉ value

/-- The text starts with a letter or an underscore. -/
def StartsName (name : List Char) : Prop :=
  ∃ c cs, name = c :: cs ∧ isNameStart c = true

/-! ## Members -/

theorem isWord_of_isNameStart
    {c : Char}
    (start : isNameStart c = true) : isWord c = true := by
  rw [isNameStart, Bool.or_eq_true] at start
  rw [isWord, Bool.or_eq_true, Bool.or_eq_true]
  rcases start with alpha | underscore
  · exact Or.inl (Or.inl (by rw [Char.isAlphanum, alpha, Bool.true_or]))
  · exact Or.inl (Or.inr underscore)

theorem ne_dot_of_isWord {c : Char} (word : isWord c = true) : c ≠ '.' := by
  rintro rfl
  have dot : isWord '.' = false := by decide +kernel
  simp [dot] at word

theorem StartsName.head?_ne
    {name : List Char}
    (starts : StartsName name)
    (rest : List Char) :
    ∃ c, (name ++ rest).head? = some c ∧ c ≠ '=' := by
  obtain ⟨c, cs, rfl, start⟩ := starts
  refine ⟨c, rfl, ?_⟩
  rintro rfl
  have noStart : isNameStart '=' = false := by decide
  simp [noStart] at start

/-- A name that is taken off a text is made of word characters. -/
theorem exists_of_takeName
    {text name rest : List Char}
    (taken : Define.takeName text = some (name, rest)) :
    text = name ++ rest ∧ StartsName name ∧ ∀ c ∈ name, isWord c = true := by
  cases text with
  | nil => contradiction
  | cons c cs =>
      rw [Define.takeName] at taken
      split at taken
      · next start =>
          rw [Option.some.injEq, Prod.mk.injEq] at taken
          obtain ⟨rfl, rfl⟩ := taken
          refine ⟨by simp, ⟨c, _, rfl, start⟩, fun d member => ?_⟩
          rcases List.mem_cons.mp member with rfl | later
          · exact isWord_of_isNameStart start
          · exact List.mem_takeWhile_imp later
      · contradiction

/-- A selected member stands behind a dot, and before the dot is a beginning of
the value. -/
theorem exists_of_resolveMember
    {letter : Char}
    {value : List Char}
    (lacks : Lacks letter value)
    (member : List Char) :
    ∃ base, resolveMember value member = base ++ '.' :: member ∧
      base.head? = value.head? ∧ letter ∉ base := by
  have whole : ∃ base, value ++ '.' :: member = base ++ '.' :: member ∧
      base.head? = value.head? ∧ letter ∉ base :=
    ⟨value, rfl, rfl, lacks.absent⟩
  unfold resolveMember
  split
  · next component =>
      split
      · refine ⟨baseOf value, rfl, ?_, fun found =>
          lacks.absent ((List.takeWhile_subset _) found)⟩
        obtain ⟨c, first, word⟩ := lacks.starts
        obtain ⟨more, rfl⟩ := List.head?_eq_some_iff.mp first
        simp [baseOf, ne_dot_of_isWord word]
      · exact whole
  · exact whole

/-- A name that starts in a selected member is not its beginning. -/
theorem attached_of_member
    {letter : Char}
    (isLetter : isWord letter = true)
    {base member before after : List Char}
    (absent : letter ∉ base)
    (allWord : ∀ c ∈ member, isWord c = true)
    (equal : base ++ '.' :: member = before ++ letter :: after) :
    before.getLast?.any attaches = true := by
  rcases List.append_eq_append_iff.mp equal with
    ⟨passed, rfl, divided⟩ | ⟨behind, rfl, divided⟩
  · -- The letter is the dot or one of the member.
    cases passed with
    | nil =>
        rw [List.nil_append, List.cons.injEq] at divided
        exact absurd divided.1.symm (ne_dot_of_isWord isLetter)
    | cons c cs =>
        rw [List.cons_append, List.cons.injEq] at divided
        obtain ⟨rfl, rfl⟩ := divided
        rw [List.getLast?_append, List.getLast?_cons, Option.some_or,
          Option.any_some]
        cases last : cs.getLast? with
        | none => decide +kernel
        | some d =>
            have member : d ∈ cs := List.mem_of_getLast? last
            exact attaches_of_isWord (allWord d (by simp [member]))
  · -- The letter is one of the base or the dot.
    cases behind with
    | nil =>
        rw [List.nil_append, List.cons.injEq] at divided
        exact absurd divided.1 (ne_dot_of_isWord isLetter)
    | cons c cs =>
        rw [List.cons_append, List.cons.injEq] at divided
        exact absurd (by simp [divided.1]) absent

theorem fits_resolveMember
    {letter : Char}
    (isLetter : isWord letter = true)
    {value member taken : List Char}
    (lacks : Lacks letter value)
    (named : StartsName member)
    (allWord : ∀ c ∈ member, isWord c = true)
    (starts : ∃ c, taken.head? = some c ∧ c ≠ '=') :
    Fits letter taken (resolveMember value member) := by
  obtain ⟨base, equal, first, absent⟩ := exists_of_resolveMember lacks member
  obtain ⟨c, begins, word⟩ := lacks.starts
  rw [equal]
  refine
    { starts := starts
      word := ⟨c, by rw [List.head?_append, first, begins, Option.some_or],
        word⟩
      hidden := fun before after => attached_of_member isLetter absent allWord
      closed := fun _ => ?_ }
  obtain ⟨c, cs, rfl, -⟩ := named
  rw [List.getLast?_append, List.getLast?_cons_cons,
    List.getLast?_eq_some_getLast (List.cons_ne_nil c cs), Option.some_or]
  exact attaches_of_isWord (allWord _ (List.getLast_mem _))

/-! ## Aliases -/

/-- What a use of an alias takes: the name, alone or with a member. -/
theorem exists_of_aliasUse
    {name value : List Char}
    {previous : Option Char}
    {text : List Char}
    {occurrence : Occurrence}
    (found : aliasUse name value previous text = some occurrence) :
    previous.any attaches = false ∧
    ((∃ rest, text = name ++ rest ∧ occurrence = ⟨name.length, value⟩) ∨
      ∃ member rest, text = (name ++ '.' :: member) ++ rest ∧
        StartsName member ∧ (∀ c ∈ member, isWord c = true) ∧
        occurrence =
          ⟨(name ++ '.' :: member).length, resolveMember value member⟩) := by
  unfold aliasUse at found
  split at found
  · contradiction
  · next rest stands =>
      have parted := eq_append_of_standsAt stands
      refine ⟨free_of_standsAt stands, ?_⟩
      split at found
      · exact Or.inl ⟨'.' :: rest, parted, (Option.some.inj found).symm⟩
      · next member left taken =>
          obtain ⟨rfl, starts, allWord⟩ := exists_of_takeName taken
          refine Or.inr ⟨member, left, by simp [parted], starts, allWord, ?_⟩
          rw [← Option.some.inj found, Occurrence.mk.injEq]
          simp only [List.length_append, List.length_cons, and_true]
          omega
  · next rest _ stands =>
      exact ⟨free_of_standsAt stands,
        Or.inl ⟨rest, eq_append_of_standsAt stands,
          (Option.some.inj found).symm⟩⟩

theorem tidy_aliasUse
    {letter : Char}
    (isLetter : isWord letter = true)
    {name value : List Char}
    (named : StartsName name)
    (lacks : Lacks letter value) :
    Tidy letter (aliasUse name value) := by
  have alone : Fits letter name value :=
    { starts := by simpa using named.head?_ne []
      word := lacks.starts
      hidden := fun before after equal =>
        absurd (by simp [equal]) lacks.absent
      closed := fun _ => by
        obtain ⟨last, isLast, word⟩ := (Option.any_eq_true _ _).mp lacks.ends
        rw [isLast, Option.any_some, attaches_of_isWord word] }
  intro previous text occurrence found
  obtain ⟨free, ⟨rest, parted, rfl⟩ |
    ⟨member, rest, parted, starts, allWord, rfl⟩⟩ := exists_of_aliasUse found
  · exact ⟨free, name, rest, parted, rfl, alone⟩
  · exact ⟨free, name ++ '.' :: member, rest, parted, rfl,
      fits_resolveMember isLetter lacks starts allWord (named.head?_ne _)⟩

/-! ## Tables -/

/-- Every alias of the table has a name. -/
def Named (table : Define.Table) : Prop :=
  ∀ define ∈ table, StartsName define.name.toList

/-- The name that a directive defines is taken off its text. -/
theorem exists_takeName_of_ofDirective?
    {directive : List Char}
    {define : Define}
    (read : Define.ofDirective? directive = some define) :
    ∃ text rest, Define.takeName text = some (define.name.toList, rest) := by
  simp only [Define.ofDirective?, Option.bind_eq_bind,
    Option.bind_eq_some_iff] at read
  obtain ⟨_, -, text, -, ⟨name, rest⟩, taken, _, -, ⟨value, _⟩, -, ended⟩ :=
    read
  split at ended
  · rw [Option.some.injEq] at ended
    rw [← ended, String.toList_ofList]
    exact ⟨text, rest, taken⟩
  · contradiction

theorem forall_mem_set
    {holds : Define → Prop}
    {table : Define.Table}
    (all : ∀ define ∈ table, holds define)
    {added : Define}
    (new : holds added) :
    ∀ define ∈ table.set added, holds define := by
  induction table with
  | nil => simpa [Define.Table.set] using new
  | cons first rest inductionHypothesis =>
      obtain ⟨firstHolds, restHolds⟩ := List.forall_mem_cons.mp all
      rw [Define.Table.set]
      split
      · exact List.forall_mem_cons.mpr ⟨new, restHolds⟩
      · exact List.forall_mem_cons.mpr
          ⟨firstHolds, inductionHypothesis restHolds⟩

/-- A directive is recorded or dropped, whatever is logged. -/
theorem value_record_cons
    (table : Define.Table)
    (directive : List Char)
    (rest : List (List Char)) :
    (Define.record table (directive :: rest)).value =
      (Define.record
        (((Define.ofDirective? directive).map table.set).getD table)
        rest).value := by
  rw [Define.record]
  cases Define.ofDirective? directive with
  | none => rfl
  | some define =>
      cases found : table.find? define.name <;> simp only [found] <;> rfl

/-- What holds of every definition that is read holds of the whole table. -/
theorem forall_mem_record
    {holds : Define → Prop}
    {directives : List (List Char)}
    (reads : ∀ directive ∈ directives, ∀ define,
      Define.ofDirective? directive = some define → holds define)
    {table : Define.Table}
    (all : ∀ define ∈ table, holds define) :
    ∀ define ∈ (Define.record table directives).value, holds define := by
  induction directives generalizing table with
  | nil => exact all
  | cons directive rest inductionHypothesis =>
      obtain ⟨first, later⟩ := List.forall_mem_cons.mp reads
      rw [value_record_cons]
      cases read : Define.ofDirective? directive with
      | none => exact inductionHypothesis later all
      | some define =>
          exact inductionHypothesis later
            (forall_mem_set all (first define read))

theorem forall_mem_extract
    {holds : Define → Prop}
    {source : List Char}
    (reads : ∀ directive ∈ Define.directives source, ∀ define,
      Define.ofDirective? directive = some define → holds define) :
    ∀ define ∈ (Define.extract source).value.1, holds define :=
  forall_mem_record reads (List.forall_mem_nil _)

theorem named_extract (source : List Char) :
    Named (Define.extract source).value.1 := by
  refine forall_mem_extract fun directive _ define read => ?_
  obtain ⟨text, rest, taken⟩ := exists_takeName_of_ofDirective? read
  exact (exists_of_takeName taken).2.1

/-- An alias is resolved or left in place, whatever is logged. -/
theorem value_substituteDefines_cons
    (dialect : Dialect)
    (define : Define)
    (rest : Define.Table)
    (source : List Char) :
    (substituteDefines dialect (define :: rest) source).value =
      (substituteDefines dialect rest
        (if dialect.canonicalIdentifiers.contains define.value then
          substituteAlias source define.name.toList define.value.toList
        else source)).value := by
  rw [substituteDefines]
  split <;> rfl

/-- Resolving a table of aliases does not bring a name back. -/
theorem not_standsIn_substituteDefines
    {letter : Char}
    {more : List Char}
    (allWord : ∀ c ∈ letter :: more, isWord c = true)
    {followed : List Char → Prop}
    (carries : ∀ search, Tidy letter search → Carries search followed)
    {dialect : Dialect}
    (lacks : ∀ value ∈ dialect.canonicalIdentifiers, Lacks letter value.toList)
    {table : Define.Table}
    (named : Named table)
    {source : List Char}
    (absent : ¬ StandsIn (letter :: more) followed source) :
    ¬ StandsIn (letter :: more) followed
      (substituteDefines dialect table source).value := by
  induction table generalizing source with
  | nil => exact absent
  | cons define rest inductionHypothesis =>
      obtain ⟨starts, restNamed⟩ := List.forall_mem_cons.mp named
      rw [value_substituteDefines_cons]
      apply inductionHypothesis restNamed
      split
      · next known =>
          have tidy : Tidy letter
              (aliasUse define.name.toList define.value.toList) :=
            tidy_aliasUse (allWord letter List.mem_cons_self) starts
              (lacks define.value (by simpa using known))
          exact fun stands => absent
            (tidy.standsIn_of_standsIn_replaceAll allWord (carries _ tidy)
              stands)
      · exact absent

end Shader
end ShaderLift
