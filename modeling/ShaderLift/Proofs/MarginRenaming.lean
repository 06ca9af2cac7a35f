import ShaderLift.Proofs.Margin
import ShaderLift.Proofs.Parameters
import ShaderLift.Proofs.Tokens

/-!
# Renaming and margins

Two texts that are the same but for margins are renamed in step: every search
for whole tokens finds the same in both, and what is written keeps them alike.
The leftmost signature is at the same place in both.
-/

namespace ShaderLift
namespace Shader

open Text Name

/-- Options stay related when their values are mapped. -/
theorem rel_map
    {related : α → β → Prop}
    {related' : γ → δ → Prop}
    {left : α → γ}
    {right : β → δ}
    {first : Option α}
    {second : Option β}
    (rel : Option.Rel related first second)
    (carries : ∀ a b, related a b → related' (left a) (right b)) :
    Option.Rel related' (first.map left) (second.map right) := by
  cases rel with
  | some holds => exact .some (carries _ _ holds)
  | none => exact .none

/-! ## Replacement -/

/-- A search finds nothing at either of two places, or it finds something with
one replacement at both and leaves texts that are alike. -/
inductive SameFinding
    (search : Search)
    (before before' : Option Char) : List Char → List Char → Prop
  | neither {text text' : List Char}
      (absent : search before text = none)
      (absent' : search before' text' = none) :
      SameFinding search before before' text text'
  | both {taken taken' left left' replacement : List Char}
      (found : search before (taken ++ left) =
        some ⟨taken.length, replacement⟩)
      (found' : search before' (taken' ++ left') =
        some ⟨taken'.length, replacement⟩)
      (present : taken ≠ [])
      (present' : taken' ≠ [])
      (attached : taken.getLast?.any attaches = taken'.getLast?.any attaches)
      (alike : Alike left left') :
      SameFinding search before before' (taken ++ left) (taken' ++ left')

/-- A search for whole tokens that finds the same in texts that are alike. -/
structure IsSteady (search : Search) : Prop extends IsTokenwise search where
  finds : ∀ {token rest rest' : List Char} {before before' : Option Char},
    IsName token → EndsWord rest → EndsWord rest' → Alike rest rest' →
    before.any attaches = false → before'.any attaches = false →
    SameFinding search before before' (token ++ rest) (token ++ rest')

theorem IsTokenwise.replaceFrom_blanks
    {search : Search}
    (tokenwise : IsTokenwise search)
    {blanks : List Char}
    (blank : ∀ c ∈ blanks, isBlank c = true)
    (before : Option Char)
    (rest : List Char) :
    replaceFrom search 0 before (blanks ++ rest) =
      blanks ++ replaceFrom search 0 (blanks.getLast?.or before) rest := by
  induction blanks generalizing before with
  | nil => rfl
  | cons c cs inductionHypothesis =>
      obtain ⟨first, later⟩ := List.forall_mem_cons.mp blank
      rw [List.cons_append,
        tokenwise.replaceFrom_pass (Or.inr (isWord_of_isBlank first)),
        inductionHypothesis later, getLast?_cons_or, List.cons_append]

theorem attaches_getLast?_of_blank
    {blanks : List Char}
    (blank : ∀ c ∈ blanks, isBlank c = true)
    {before : Option Char}
    (free : blanks = [] → before.any attaches = false) :
    (blanks.getLast?.or before).any attaches = false := by
  cases last : blanks.getLast? with
  | none => exact free (List.getLast?_eq_none_iff.mp last)
  | some c =>
      exact attaches_of_isBlank (blank c (List.mem_of_getLast? last))

/-- The first words of texts that are alike. -/
theorem Alike.exists_token
    {first second : List Char}
    (alike : Alike first second)
    {c : Char}
    (isLetter : isWord c = true) :
    ∃ token rest rest', c :: first = token ++ rest ∧
      c :: second = token ++ rest' ∧ IsName token ∧ EndsWord rest ∧
      EndsWord rest' ∧ Alike rest rest' := by
  obtain ⟨same, behind⟩ := (Alike.same c alike).word
  refine ⟨(c :: first).takeWhile isWord, _, _,
    List.takeWhile_append_dropWhile.symm, ?_, isName_takeWhile isLetter first,
    endsWord_dropWhile _, endsWord_dropWhile _, behind⟩
  rw [same, List.takeWhile_append_dropWhile]

namespace IsSteady

variable {search : Search}

/-- Replacement keeps texts alike. -/
theorem alike_replaceFrom
    (steady : IsSteady search)
    {first second : List Char}
    (alike : Alike first second)
    {before before' : Option Char}
    (same : before.any attaches = before'.any attaches) :
    Alike (replaceFrom search 0 before first)
      (replaceFrom search 0 before' second) := by
  have walk := steady.toIsTokenwise
  -- An occurrence may take more than one step of the relation.
  induction length : first.length using Nat.strong_induction_on
    generalizing first second before before' with
  | _ length inductionHypothesis =>
  subst length
  cases alike with
  | done padding padding' =>
      have kept := walk.replaceFrom_blanks padding.blank before []
      have kept' := walk.replaceFrom_blanks padding'.blank before' []
      rw [replaceFrom_nil, List.append_nil] at kept kept'
      rw [kept, kept']
      exact .done padding padding'
  | @same first second c tail =>
      by_cases inside : before.any attaches = true ∨ isWord c = false
      · have inside' : before'.any attaches = true ∨ isWord c = false := by
          rwa [← same]
        rw [walk.replaceFrom_pass inside, walk.replaceFrom_pass inside']
        exact .same c (inductionHypothesis _ (by simp) tail rfl rfl)
      · rw [not_or, Bool.not_eq_true, Bool.not_eq_false] at inside
        obtain ⟨free, isLetter⟩ := inside
        obtain ⟨token, rest, rest', divided, divided', isName, ends, ends',
          behind⟩ := tail.exists_token isLetter
        have finding := steady.finds isName ends ends' behind free
          (by rw [← same, free])
        rw [divided] at inductionHypothesis ⊢
        rw [divided']
        generalize text : token ++ rest = whole at finding inductionHypothesis
        generalize text' : token ++ rest' = whole' at finding
        cases finding with
        | neither absent absent' =>
            rw [← text] at absent inductionHypothesis ⊢
            rw [← text'] at absent' ⊢
            rw [walk.detached.replaceFrom_token isName absent,
              walk.detached.replaceFrom_token isName absent']
            refine (inductionHypothesis _ ?_ behind rfl rfl).append_left token
            simpa using List.length_pos_iff.mpr isName.nonempty
        | both found found' present present' attached alike =>
            rw [replaceFrom_found found present,
              replaceFrom_found found' present']
            refine (inductionHypothesis _ ?_ alike attached rfl).append_left _
            simpa using List.length_pos_iff.mpr present
  | @line first second closing closing' opening opening' padding padding'
      indent indent' tail =>
      have blank := blank_of_margins padding indent
      have blank' := blank_of_margins padding' indent'
      rw [margins_append, margins_append closing',
        walk.replaceFrom_blanks blank, walk.replaceFrom_blanks blank',
        ← margins_append, ← margins_append]
      refine .line padding padding' indent indent'
        (inductionHypothesis _ (by simp; omega) tail ?_ rfl)
      rw [attaches_getLast?_of_blank blank (by simp),
        attaches_getLast?_of_blank blank' (by simp)]

theorem alikeText_replaceAll
    (steady : IsSteady search)
    {first second : List Char}
    (alike : AlikeText first second) :
    AlikeText (replaceAll search first) (replaceAll search second) := by
  obtain ⟨indent, indent', alike⟩ := alike
  rw [replaceAll, replaceAll,
    steady.replaceFrom_blanks indent.isPadding.blank,
    steady.replaceFrom_blanks indent'.isPadding.blank]
  refine .intro indent indent' (steady.alike_replaceFrom alike ?_)
  rw [attaches_getLast?_of_blank indent.isPadding.blank fun _ => rfl,
    attaches_getLast?_of_blank indent'.isPadding.blank fun _ => rfl]

end IsSteady

/-! ## Names and members -/

namespace Alike

variable {first second : List Char}

/-- The same name may be taken off both texts, or none off either. -/
theorem takeName (alike : Alike first second) :
    Option.Rel (fun taken taken' => taken.1 = taken'.1 ∧
        Alike taken.2 taken'.2)
      (Define.takeName first) (Define.takeName second) := by
  rcases alike.head_cases with ⟨c, first, second, rfl, rfl, -, tail⟩ |
    ⟨blank, blank'⟩
  · rw [Define.takeName, Define.takeName]
    split
    · exact .some ⟨by rw [tail.word.1], tail.word.2⟩
    · exact .none
  · have nothing : ∀ text : List Char, (∀ c ∈ text.head?, isBlank c = true) →
        Define.takeName text = none := by
      intro text blank
      cases text with
      | nil => rfl
      | cons c cs =>
          simp [Define.takeName, isNameStart_of_isBlank (blank c rfl)]
    rw [nothing first blank, nothing second blank']
    exact .none

theorem takeMember (alike : Alike first second) :
    Option.Rel (fun taken taken' => taken.1 = taken'.1 ∧
        Alike taken.2 taken'.2)
      (Shader.takeMember first) (Shader.takeMember second) := by
  rcases alike.head_cases with ⟨c, first, second, rfl, rfl, -, tail⟩ |
    ⟨blank, blank'⟩
  · by_cases dot : c = '.'
    · subst dot
      exact tail.takeName
    · have nothing : ∀ text, Shader.takeMember (c :: text) = none := by
        intro text
        rw [takeMember_eq_none_iff]
        rintro d rest equal
        exact absurd (List.cons.inj equal).1 dot
      rw [nothing, nothing]
      exact .none
  · have nothing : ∀ text : List Char, (∀ c ∈ text.head?, isBlank c = true) →
        Shader.takeMember text = none := by
      intro text blank
      rw [takeMember_eq_none_iff]
      rintro c rest rfl
      exact absurd (blank '.' rfl) (by decide)
    rw [nothing first blank, nothing second blank']
    exact .none

/-- A visible character leads both texts or neither. -/
theorem head?_eq_iff
    (alike : Alike first second)
    {c : Char}
    (shown : isBlank c = false) :
    first.head? = some c ↔ second.head? = some c := by
  rcases alike.head_cases with ⟨d, _, _, rfl, rfl, -⟩ | ⟨blank, blank'⟩
  · rfl
  · constructor
    · exact fun leads => absurd (blank c leads) (by simp [shown])
    · exact fun leads => absurd (blank' c leads) (by simp [shown])

theorem behindEquals (alike : Alike first second) :
    Option.Rel Alike (Shader.behindEquals first)
      (Shader.behindEquals second) := by
  have shown : isBlank '=' = false := by decide
  have nothing : ∀ text : List Char, text.head? ≠ some '=' →
      Shader.behindEquals text = none := by
    intro text other
    rw [Option.eq_none_iff_forall_ne_some]
    intro value found
    rw [behindEquals_eq_some_iff] at found
    exact other (by rw [found.1]; rfl)
  by_cases leads : first.head? = some '='
  · rcases alike.head_cases with ⟨c, value, value', rfl, rfl, -, tail⟩ |
      ⟨blank, -⟩
    · rw [List.head?_cons, Option.some.injEq] at leads
      subst leads
      by_cases double : value.head? = some '='
      · obtain ⟨more, rfl⟩ := List.head?_eq_some_iff.mp double
        obtain ⟨more', rfl⟩ := List.head?_eq_some_iff.mp
          ((tail.head?_eq_iff shown).mp double)
        exact .none
      · have double' := mt (tail.head?_eq_iff shown).mpr double
        rw [(behindEquals_eq_some_iff _ value).mpr ⟨rfl, double⟩,
          (behindEquals_eq_some_iff _ value').mpr ⟨rfl, double'⟩]
        exact .some tail
    · exact absurd (blank '=' leads) (by decide)
  · rw [nothing first leads,
      nothing second (mt (alike.head?_eq_iff shown).mpr leads)]
    exact .none

/-- The same assignment starts in both texts, or none in either. -/
theorem takeAssignment (alike : Alike first second) :
    Option.Rel (fun taken taken' => Alike taken.2 taken'.2)
      (Shader.takeAssignment first) (Shader.takeAssignment second) :=
  rel_map alike.dropWhile_isBlank.behindEquals
    fun _ _ tail => tail.dropWhile_isSpaceOrTab

end Alike

/-! ## The three searches -/

theorem isSteady_tokenUse
    {meaning : Meaning}
    (isNamed : meaning.IsNamed) :
    IsSteady (tokenUse meaning) where
  toIsTokenwise := isTokenwise_tokenUse isNamed
  finds {token rest rest' before before'} isName ends ends' alike free
      free' := by
    cases meant : meaning token with
    | none =>
        exact .neither (tokenUse_stay isName ends meant before)
          (tokenUse_stay isName ends' meant before')
    | some value =>
        have members := alike.takeMember
        cases selected : takeMember rest <;>
          cases selected' : takeMember rest' <;>
          rw [selected, selected'] at members <;> cases members
        · exact .both (tokenUse_alone free isName ends meant selected)
            (tokenUse_alone free' isName ends' meant selected')
            isName.nonempty isName.nonempty rfl alike
        · next taken taken' same =>
            obtain ⟨member, left⟩ := taken
            obtain ⟨member', left'⟩ := taken'
            obtain ⟨rfl, tail⟩ : member = member' ∧ Alike left left' := same
            obtain ⟨rfl, isMember, endsLeft⟩ := exists_of_takeMember selected
            obtain ⟨rfl, -, endsLeft'⟩ := exists_of_takeMember selected'
            rw [← List.cons_append, ← List.append_assoc, ← List.cons_append,
              ← List.append_assoc]
            exact .both (tokenUse_select free isName isMember endsLeft meant)
              (tokenUse_select free' isName isMember endsLeft' meant)
              (by simp) (by simp) rfl tail

theorem isSteady_useOf
    {name : List Char}
    (isName : IsName name)
    (parts : List Template.Part) :
    IsSteady (useOf name parts) where
  toIsTokenwise := isTokenwise_useOf isName parts
  finds {token rest rest' before before'} isToken ends ends' alike free
      free' := by
    by_cases other : token = name
    · subst other
      have alone := standsAt_of_endsWord isName.endsInWord free ends
      have alone' := standsAt_of_endsWord isName.endsInWord free' ends'
      exact .both (by rw [useOf, alone]) (by rw [useOf, alone'])
        isName.nonempty isName.nonempty rfl alike
    · exact .neither
        (by rw [useOf, standsAt_other isName isToken other ends])
        (by rw [useOf, standsAt_other isName isToken other ends'])

theorem isSteady_assignmentTo
    {name : List Char}
    (isName : IsName name)
    (written : List Char) :
    IsSteady (assignmentTo name (written.map .literal)) where
  toIsTokenwise := isTokenwise_assignmentTo isName _
  finds {token rest rest' before before'} isToken ends ends' alike free
      free' := by
    by_cases other : token = name
    · subst other
      have finding := assignmentTo_of_standsAt
        (standsAt_of_endsWord isName.endsInWord free ends)
        (written.map .literal)
      have finding' := assignmentTo_of_standsAt
        (standsAt_of_endsWord isName.endsInWord free' ends')
        (written.map .literal)
      have assignments := alike.takeAssignment
      cases assigned : takeAssignment rest <;>
        cases assigned' : takeAssignment rest' <;>
        rw [assigned, assigned'] at assignments <;> cases assignments
      · rw [assigned] at finding
        rw [assigned'] at finding'
        exact .neither finding finding'
      · next found found' tail =>
          rw [assigned, Option.map_some, Template.expand_literals] at finding
          rw [assigned', Option.map_some, Template.expand_literals] at finding'
          obtain ⟨rfl, between, spaces, equal, -, spaced⟩ :=
            exists_of_takeAssignment assigned
          obtain ⟨rfl, between', spaces', equal', -, spaced'⟩ :=
            exists_of_takeAssignment assigned'
          rw [← List.append_assoc] at finding finding' ⊢
          rw [← List.append_assoc]
          refine .both finding finding' (by simp [isName.nonempty])
            (by simp [isName.nonempty]) ?_ tail
          rw [equal, equal', ← List.append_assoc, ← List.append_assoc,
            attaches_getLast?_of_assignment spaced,
            attaches_getLast?_of_assignment spaced']
    · exact .neither
        (by rw [assignmentTo, standsAt_other isName isToken other ends])
        (by rw [assignmentTo, standsAt_other isName isToken other ends'])

/-! ## All renames -/

theorem AlikeText.substituteDefines
    {first second : List Char}
    (alike : AlikeText first second)
    (dialect : Dialect)
    {table : Define.Table}
    (names : ∀ define ∈ table, IsName define.name.toList) :
    AlikeText (Shader.substituteDefines dialect table first).value
      (Shader.substituteDefines dialect table second).value := by
  induction table generalizing first second with
  | nil => exact alike
  | cons define rest inductionHypothesis =>
      obtain ⟨isName, restNames⟩ := List.forall_mem_cons.mp names
      rw [value_substituteDefines_cons, value_substituteDefines_cons]
      refine inductionHypothesis ?_ restNames
      split
      · rw [substituteAlias_eq_resolve isName,
          substituteAlias_eq_resolve isName]
        exact (isSteady_tokenUse
          (Meaning.isNamed_only isName _)).alikeText_replaceAll alike
      · exact alike

end Shader

namespace Conversion

open Shader Text Name

theorem isName_colour : IsName Dialect.builtin.fragColor.toList :=
  ⟨by decide, isWord_colour⟩

theorem isName_coordinate : IsName Dialect.builtin.fragCoord.toList :=
  ⟨by decide, isWord_coordinate⟩

/-- The built-in dialect renames texts that are alike in step. -/
theorem alikeText_rename
    {first second : List Char}
    (alike : AlikeText first second)
    {table : Define.Table}
    (names : ∀ define ∈ table, IsName define.name.toList) :
    AlikeText (renameBuiltin table first) (renameBuiltin table second) := by
  have assigned := (isSteady_assignmentTo isName_colour
    (outputTemplate .builtin)).alikeText_replaceAll alike
  have used := (isSteady_useOf isName_coordinate
    (Dialect.builtin.fragCoordBuiltin.toList.map .literal)).alikeText_replaceAll
      assigned
  exact used.substituteDefines .builtin names

end Conversion

namespace Shader
namespace EntryPoint

open Text Name

/-! ## The signature -/

/-- Every exact text is visible, and every gap stands before one. -/
inductive Firm : List Part → Prop
  | nil : Firm []
  | exactly {wanted : List Char} {rest : List Part}
      (present : wanted ≠ [])
      (shown : ∀ c ∈ wanted, isBlank c = false)
      (tail : Firm rest) :
      Firm (.exactly wanted :: rest)
  | gap {wanted : List Char} {rest : List Part}
      (tail : Firm (.exactly wanted :: rest)) :
      Firm (.gap :: .exactly wanted :: rest)
  | blanks {wanted : List Char} {rest : List Part}
      (tail : Firm (.exactly wanted :: rest)) :
      Firm (.blanks :: .exactly wanted :: rest)

/-- A signature that starts with a visible text does not start at a blank. -/
theorem matchParts_blank
    {wanted : List Char}
    {rest : List Part}
    (firm : Firm (.exactly wanted :: rest))
    {text : List Char}
    (blank : ∀ c ∈ text.head?, isBlank c = true) :
    matchParts (.exactly wanted :: rest) text = none := by
  cases firm with
  | exactly present shown _ =>
      obtain ⟨c, cs, rfl⟩ := List.exists_cons_of_ne_nil present
      cases text with
      | nil => rfl
      | cons d ds =>
          have other : c ≠ d :=
            Ne.symm (ne_of_isBlank (blank d rfl) (shown c List.mem_cons_self))
          simp [matchParts, dropExact, other]

theorem overGap_eq
    {next : List Char → Option β}
    (fails : ∀ c cs, isBlank c = true → next (c :: cs) = none)
    (text : List Char) :
    overGap next text = next (text.dropWhile isBlank) := by
  induction text with
  | nil => rfl
  | cons c cs inductionHypothesis =>
      rw [overGap]
      split
      · next blank =>
          rw [inductionHypothesis, fails c cs blank, Option.or_none,
            List.dropWhile_cons_of_pos blank]
      · next shown => rw [List.dropWhile_cons_of_neg shown]

section Gap

variable {wanted : List Char} {rest : List Part}

theorem matchParts_gap
    (firm : Firm (.exactly wanted :: rest))
    (text : List Char) :
    matchParts (.gap :: .exactly wanted :: rest) text =
      matchParts (.exactly wanted :: rest) (text.dropWhile isBlank) :=
  overGap_eq (fun c cs blank => matchParts_blank firm (by simpa using blank))
    text

theorem matchParts_blanks
    (firm : Firm (.exactly wanted :: rest))
    (text : List Char) :
    matchParts (.blanks :: .exactly wanted :: rest) text =
      if text.head?.any isBlank then
        matchParts (.exactly wanted :: rest) (text.dropWhile isBlank)
      else none := by
  cases text with
  | nil => rfl
  | cons c cs =>
      have step : matchParts (.blanks :: .exactly wanted :: rest) (c :: cs) =
          if isBlank c then matchParts (.gap :: .exactly wanted :: rest) cs
          else none := by
        rw [matchParts, matchParts]
      rw [step, matchParts_gap firm, List.head?_cons, Option.any_some]
      split
      · next blank => rw [List.dropWhile_cons_of_pos blank]
      · rfl

end Gap

theorem Alike.dropExact
    {wanted first second : List Char}
    (shown : ∀ c ∈ wanted, isBlank c = false)
    (alike : Alike first second) :
    Option.Rel Alike (Text.dropExact wanted first)
      (Text.dropExact wanted second) := by
  induction wanted generalizing first second with
  | nil => exact .some alike
  | cons c cs inductionHypothesis =>
      obtain ⟨firstShown, restShown⟩ := List.forall_mem_cons.mp shown
      rcases alike.head_cases with ⟨d, first, second, rfl, rfl, -, tail⟩ |
        ⟨blank, blank'⟩
      · rw [Text.dropExact, Text.dropExact]
        split
        · exact inductionHypothesis restShown tail
        · exact .none
      · have nothing : ∀ text : List Char,
            (∀ c ∈ text.head?, isBlank c = true) →
              Text.dropExact (c :: cs) text = none := by
          intro text blank
          cases text with
          | nil => rfl
          | cons d ds =>
              exact if_neg (Ne.symm (ne_of_isBlank (blank d rfl) firstShown))
        rw [nothing first blank, nothing second blank']
        exact .none

/-- The parts match both texts or neither, and what is left is alike. -/
theorem Firm.alike_matchParts
    {parts : List Part}
    (firm : Firm parts)
    {first second : List Char}
    (alike : Alike first second) :
    Option.Rel Alike (matchParts parts first) (matchParts parts second) := by
  induction firm generalizing first second with
  | nil => exact .some alike
  | @exactly wanted rest _ shown _ inductionHypothesis =>
      have matched := Alike.dropExact shown alike
      rw [matchParts, matchParts]
      generalize dropExact wanted first = left at matched
      generalize dropExact wanted second = left' at matched
      cases matched with
      | none => exact .none
      | some tail => exact inductionHypothesis tail
  | gap tail inductionHypothesis =>
      rw [matchParts_gap tail, matchParts_gap tail]
      exact inductionHypothesis alike.dropWhile_isBlank
  | blanks tail inductionHypothesis =>
      rw [matchParts_blanks tail, matchParts_blanks tail]
      rcases alike.startsBlank_cases with same | ⟨empty, empty'⟩
      · rw [same]
        split
        · exact inductionHypothesis alike.dropWhile_isBlank
        · exact .none
      · rw [empty, empty', matchParts_blank tail (by simp), ite_self, ite_self]
        exact .none

/-! ## Cutting at the signature -/

/-- Two beginnings that may be put before texts that are alike. -/
def Lead (before before' : List Char) : Prop :=
  ∀ first second, Alike first second →
    Alike (before ++ first) (before' ++ second)

theorem cut_blanks
    {wanted : List Char}
    {rest : List Part}
    (firm : Firm (.exactly wanted :: rest))
    {blanks : List Char}
    (blank : ∀ c ∈ blanks, isBlank c = true)
    (text : List Char) :
    cut (.exactly wanted :: rest) (blanks ++ text) =
      (cut (.exactly wanted :: rest) text).map fun divided =>
        (blanks ++ divided.1, divided.2) := by
  induction blanks with
  | nil => simp
  | cons c cs inductionHypothesis =>
      obtain ⟨first, later⟩ := List.forall_mem_cons.mp blank
      rw [List.cons_append, cut, matchParts_blank firm (by simpa using first),
        inductionHypothesis later, Option.map_map]
      rfl

/-- Texts that are alike are cut at the same place. -/
theorem Firm.alike_cut
    {wanted : List Char}
    {rest : List Part}
    (firm : Firm (.exactly wanted :: rest))
    {first second : List Char}
    (alike : Alike first second) :
    Option.Rel (fun divided divided' => Lead divided.1 divided'.1 ∧
        Alike divided.2 divided'.2)
      (cut (.exactly wanted :: rest) first)
      (cut (.exactly wanted :: rest) second) := by
  induction alike with
  | done padding padding' =>
      have nothing : ∀ text, IsPadding text →
          cut (.exactly wanted :: rest) text = none := by
        intro text padding
        have blanks := cut_blanks firm padding.blank []
        rwa [List.append_nil, cut, matchParts_blank firm (by simp)] at blanks
      rw [nothing _ padding, nothing _ padding']
      exact .none
  | @same first second c tail inductionHypothesis =>
      have matched := firm.alike_matchParts (Alike.same c tail)
      rw [cut, cut]
      generalize matchParts (.exactly wanted :: rest) (c :: first) = left
        at matched
      generalize matchParts (.exactly wanted :: rest) (c :: second) = left'
        at matched
      cases matched with
      | some left => exact .some ⟨fun _ _ alike => alike, left⟩
      | none =>
          exact rel_map inductionHypothesis fun divided divided' related =>
            ⟨fun _ _ alike => .same c (related.1 _ _ alike), related.2⟩
  | @line first second closing closing' opening opening' padding padding'
      indent indent' tail inductionHypothesis =>
      rw [margins_append, margins_append,
        cut_blanks firm (blank_of_margins padding indent),
        cut_blanks firm (blank_of_margins padding' indent')]
      refine rel_map inductionHypothesis fun divided divided' related =>
        ⟨fun first second alike => ?_, related.2⟩
      rw [List.append_assoc (closing ++ '\n' :: opening),
        List.append_assoc (closing' ++ '\n' :: opening'), ← margins_append,
        ← margins_append]
      exact .line padding padding' indent indent' (related.1 _ _ alike)

/-- Texts that are alike have an entry point at the same place. -/
theorem Firm.alikeText_cut
    {wanted : List Char}
    {rest : List Part}
    (firm : Firm (.exactly wanted :: rest))
    {first second : List Char}
    (alike : AlikeText first second) :
    Option.Rel (fun divided divided' =>
        (∀ first second, Alike first second →
          AlikeText (divided.1 ++ first) (divided'.1 ++ second)) ∧
        Alike divided.2 divided'.2)
      (cut (.exactly wanted :: rest) first)
      (cut (.exactly wanted :: rest) second) := by
  obtain ⟨indent, indent', alike⟩ := alike
  rw [cut_blanks firm indent.isPadding.blank,
    cut_blanks firm indent'.isPadding.blank]
  refine rel_map (firm.alike_cut alike) fun divided divided' related =>
    ⟨fun first second alike => ?_, related.2⟩
  rw [List.append_assoc, List.append_assoc]
  exact .intro indent indent' (related.1 _ _ alike)

/-- A signature is firm if the names of its parameters are visible. -/
theorem firm_signature_of_shown
    {colour coordinate : List Char}
    (colourPresent : colour ≠ [])
    (colourShown : ∀ c ∈ colour, isBlank c = false)
    (coordinatePresent : coordinate ≠ [])
    (coordinateShown : ∀ c ∈ coordinate, isBlank c = false) :
    Firm (signature colour coordinate) := by
  have shown : ∀ {text : List Char}, text.all (fun c => !isBlank c) = true →
      ∀ c ∈ text, isBlank c = false := by
    intro text all c member
    simpa using List.all_eq_true.mp all c member
  exact .exactly (by decide) (shown (by decide)) (.blanks
    (.exactly (by decide) (shown (by decide)) (.gap
    (.exactly (by decide) (shown (by decide)) (.gap
    (.exactly (by decide) (shown (by decide)) (.blanks
    (.exactly (by decide) (shown (by decide)) (.blanks
    (.exactly colourPresent colourShown (.gap
    (.exactly (by decide) (shown (by decide)) (.gap
    (.exactly (by decide) (shown (by decide)) (.blanks
    (.exactly (by decide) (shown (by decide)) (.blanks
    (.exactly coordinatePresent coordinateShown (.gap
    (.exactly (by decide) (shown (by decide)) .nil))))))))))))))))))))

theorem firm_signature
    {colour coordinate : List Char}
    (isColour : IsName colour)
    (isCoordinate : IsName coordinate) :
    Firm (signature colour coordinate) := by
  have named : ∀ {name}, IsName name → ∀ c ∈ name, isBlank c = false :=
    fun isName c member => isBlank_of_isWord (isName.allWord c member)
  exact firm_signature_of_shown isColour.nonempty (named isColour)
    isCoordinate.nonempty (named isCoordinate)

/-- The entry point is replaced in both texts or in neither. -/
theorem alikeText_replace?
    {colour coordinate : List Char}
    (isColour : IsName colour)
    (isCoordinate : IsName coordinate)
    {first second : List Char}
    (alike : AlikeText first second) :
    Option.Rel AlikeText (replace? colour coordinate first)
      (replace? colour coordinate second) := by
  refine rel_map
    ((firm_signature isColour isCoordinate).alikeText_cut alike)
    fun divided divided' related => ?_
  obtain ⟨lead, left⟩ := related
  dsimp only
  rw [List.append_assoc, List.append_assoc]
  exact lead _ _ (left.dropWhile_isSpaceOrTab.append_left mainSignature)

end EntryPoint
end Shader
end ShaderLift
