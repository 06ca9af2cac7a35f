import Mathlib.Data.List.Nodup
import ShaderLift.Proofs.Tokens

/-!
# Resolving aliases one by one and all at once

Aliases are resolved one after another, each in the text that the one before it
has written.  If what an alias stands for starts with no other alias, nothing
that is written is resolved again, so two walks over a text are one walk for
both meanings.  A whole table of such aliases is resolved at once, in any order,
and none of its aliases is left.
-/

namespace ShaderLift
namespace Shader

open Text Name

/-- A name with at most one member. -/
def IsReference (value : List Char) : Prop :=
  IsName value ∨
    ∃ base member, IsName base ∧ IsName member ∧ value = base ++ '.' :: member

/-! ## What is written for a token -/

/-- The text is the name, perhaps with members. -/
structure Accesses (base text : List Char) : Prop where
  isName : IsName base
  allAttach : ∀ c ∈ text, attaches c = true
  divided : ∃ members, text = base ++ members ∧ EndsWord members

namespace Accesses

variable {base text : List Char}

theorem nonempty (accesses : Accesses base text) : text ≠ [] := by
  obtain ⟨members, rfl, -⟩ := accesses.divided
  simp [accesses.isName.nonempty]

theorem attached (accesses : Accesses base text) :
    text.getLast?.any attaches = true := by
  rw [List.getLast?_eq_some_getLast accesses.nonempty, Option.any_some]
  exact accesses.allAttach _ (List.getLast_mem _)

/-- A further member is one more access. -/
theorem append
    (accesses : Accesses base text)
    {member : List Char}
    (isName : IsName member) :
    Accesses base (text ++ '.' :: member) where
  isName := accesses.isName
  allAttach := by
    intro c found
    rcases List.mem_append.mp found with inText | inMember
    · exact accesses.allAttach c inText
    · rcases List.mem_cons.mp inMember with rfl | later
      · exact attaches_dot
      · exact isName.allAttach c later
  divided := by
    obtain ⟨members, rfl, ends⟩ := accesses.divided
    refine ⟨members ++ '.' :: member, by simp, ?_⟩
    cases members with
    | nil => exact endsWord_dot member
    | cons c cs => exact ends

/-- The first token of an access is its base. -/
theorem exists_token
    (accesses : Accesses base text)
    {rest : List Char}
    (ends : EndsWord rest) :
    ∃ behind, text ++ rest = base ++ behind ∧ EndsWord behind := by
  obtain ⟨members, rfl, endsBase⟩ := accesses.divided
  refine ⟨members ++ rest, by simp, ?_⟩
  cases members with
  | nil => exact ends
  | cons c cs => exact endsBase

end Accesses

theorem accesses_self
    {name : List Char}
    (isName : IsName name) : Accesses name name :=
  ⟨isName, isName.allAttach, [], by simp, rfl⟩

namespace IsReference

variable {value : List Char}

theorem accesses (reference : IsReference value) :
    Accesses (baseOf value) value := by
  rcases reference with isName | ⟨base, member, isBase, isMember, rfl⟩
  · rw [baseOf_name isName]
    exact accesses_self isName
  · rw [baseOf_append_dot isBase]
    exact (accesses_self isBase).append isMember

/-- What a use with a member becomes starts with the same name. -/
theorem accesses_resolveMember
    (reference : IsReference value)
    {member : List Char}
    (isMember : IsMember member) :
    Accesses (baseOf value) (resolveMember value member) := by
  have whole : Accesses (baseOf value) (value ++ '.' :: member) :=
    reference.accesses.append isMember.toIsName
  unfold resolveMember
  split
  · split
    · exact (accesses_self reference.accesses.isName).append isMember.toIsName
    · exact whole
  · exact whole

end IsReference

/-! ## Two walks are one -/

/-- What the first meaning gives starts with no token that the second knows. -/
def Meaning.Precedes (first second : Meaning) : Prop :=
  ∀ token value, first token = some value →
    IsReference value ∧ second (baseOf value) = none

/-- An access to a name without a meaning is passed over. -/
theorem resolveFrom_accesses
    {meaning : Meaning}
    {base text : List Char}
    (accesses : Accesses base text)
    (meaningless : meaning base = none)
    {rest : List Char}
    (ends : EndsWord rest)
    (before : Option Char) :
    resolveFrom meaning before (text ++ rest) =
      text ++ resolveFrom meaning text.getLast? rest := by
  have attached := accesses.isName.attached
  obtain ⟨behind, divided, endsBase⟩ := accesses.exists_token ends
  obtain ⟨members, rfl, -⟩ := accesses.divided
  rw [List.append_assoc, List.append_cancel_left_eq] at divided
  have membersAttach : ∀ c ∈ members, attaches c = true := fun c member =>
    accesses.allAttach c (List.mem_append_right base member)
  rw [List.append_assoc, divided,
    resolveFrom_stay accesses.isName endsBase meaningless, ← divided,
    resolveFrom_attached membersAttach attached, List.getLast?_append,
    List.append_assoc]

/-- A second walk over a resolved text resolves for both meanings. -/
theorem Resolved.either
    {first second : Meaning}
    (precedes : first.Precedes second)
    (isNamed : second.IsNamed)
    {attached : Bool}
    {text written : List Char}
    (resolved : Resolved first attached text written)
    {before : Option Char}
    (behind : before.any attaches = attached) :
    Resolved (first.either second) attached text
      (resolveFrom second before written) := by
  -- What the first walk writes for a token is passed over as a whole; a token
  -- that it keeps is followed by the same member as in the text.
  induction resolved generalizing before with
  | nil => exact .nil
  | pass inside _ inductionHypothesis =>
      rw [resolveFrom_pass isNamed (by rwa [behind])]
      exact .pass inside (inductionHypothesis rfl)
  | @stay token rest written isName ends meaningless tail
      inductionHypothesis =>
      have endsWritten := tail.endsWord_iff.mpr ends
      have later := inductionHypothesis isName.attached
      cases meant : second token with
      | none =>
          rw [resolveFrom_stay isName endsWritten meant]
          exact .stay isName ends (by simp [Meaning.either, meaningless, meant])
            later
      | some value =>
          have both : first.either second token = some value := by
            simp [Meaning.either, meaningless, meant]
          cases selected : takeMember rest with
          | none =>
              rw [resolveFrom_alone behind isName endsWritten meant
                (tail.takeMember_eq_none selected)]
              exact .alone isName ends both selected later
          | some found =>
              obtain ⟨member, rest⟩ := found
              obtain ⟨rfl, isMember, endsRest⟩ := exists_of_takeMember selected
              have dotted : ∀ c ∈ '.' :: member, attaches c = true :=
                List.forall_mem_cons.mpr ⟨attaches_dot, isMember.allAttach⟩
              have divided : '.' :: (member ++ rest) =
                  ('.' :: member) ++ rest := rfl
              rw [divided] at tail later
              obtain ⟨written, rfl, kept⟩ := tail.exists_kept_stretch dotted
              rw [resolveFrom_attached dotted isName.attached,
                ← List.getLast?_append, isMember.getLast?_append_dot] at later
              obtain ⟨_, equal, later⟩ := later.exists_kept_stretch dotted
              rw [List.append_cancel_left_eq] at equal
              rw [List.cons_append, resolveFrom_select behind isName isMember
                (kept.endsWord_iff.mpr endsRest) meant, equal]
              exact .select isName isMember endsRest both later
  | @alone token value rest written isName ends meant noMember tail
      inductionHypothesis =>
      obtain ⟨reference, unknown⟩ := precedes _ _ meant
      have accesses := reference.accesses
      rw [resolveFrom_accesses accesses unknown
        (tail.endsWord_iff.mpr ends)]
      exact .alone isName ends (by simp [Meaning.either, meant]) noMember
        (inductionHypothesis accesses.attached)
  | @select token value member rest written isName isMember ends meant tail
      inductionHypothesis =>
      obtain ⟨reference, unknown⟩ := precedes _ _ meant
      have accesses := reference.accesses_resolveMember isMember
      rw [resolveFrom_accesses accesses unknown
        (tail.endsWord_iff.mpr ends)]
      exact .select isName isMember ends (by simp [Meaning.either, meant])
        (inductionHypothesis accesses.attached)

/-- Resolving for one meaning and then for another is resolving for both. -/
theorem resolve_resolve
    {first second : Meaning}
    (precedes : first.Precedes second)
    (firstNamed : first.IsNamed)
    (secondNamed : second.IsNamed)
    (text : List Char) :
    resolve second (resolve first text) =
      resolve (first.either second) text := by
  have resolved := resolved_resolveFrom firstNamed none text
  have both := resolved.either precedes secondNamed rfl
  exact both.eq_resolveFrom (Meaning.isNamed_either firstNamed secondNamed) rfl

/-- Without meanings a text stays as it is. -/
theorem resolve_none (text : List Char) :
    resolve (fun _ => none) text = text := by
  have stays : ∀ {attached written},
      Resolved (fun _ => none) attached text written → written = text := by
    intro attached written resolved
    induction resolved with
    | nil => rfl
    | pass _ _ inductionHypothesis => rw [inductionHypothesis]
    | stay _ _ _ _ inductionHypothesis => rw [inductionHypothesis]
    | alone _ _ meant _ _ _ => contradiction
    | select _ _ _ meant _ _ => contradiction
  have isNamed : Meaning.IsNamed fun _ => none := rfl
  exact stays (resolved_resolveFrom isNamed none text)

/-! ## No alias is left -/

/-- A name does not stand alone in an access to another one. -/
theorem not_somewhere_accesses
    {base text name : List Char}
    (accesses : Accesses base text)
    (isName : IsName name)
    (other : base ≠ name)
    {rest : List Char}
    (ends : EndsWord rest)
    (absent : ¬ Somewhere (Stands name EndsWord) text.getLast? rest)
    (before : Option Char) :
    ¬ Somewhere (Stands name EndsWord) before (text ++ rest) := by
  rw [somewhere_append, List.getLast?_eq_some_getLast accesses.nonempty,
    Option.some_or, ← List.getLast?_eq_some_getLast accesses.nonempty]
  rintro (⟨passed, c, behind, rfl, free, after, equal, next⟩ | later)
  · rcases passed.eq_nil_or_concat with rfl | ⟨front, last, rfl⟩
    · -- At the beginning the token is the base.
      obtain ⟨members, divided, endsBase⟩ := accesses.exists_token ends
      rw [List.nil_append] at divided
      rw [divided] at equal
      have token := congrArg (List.takeWhile isWord) equal
      rw [accesses.isName.takeWhile_append endsBase,
        isName.takeWhile_append next] at token
      exact other token
    · -- Every other place lies behind a character that attaches.
      have attached : attaches last = true :=
        accesses.allAttach last (by simp)
      simp [attached] at free
  · exact absent later

/-- No token with a meaning stands alone in a resolved text, unless something is
written that starts with it. -/
theorem Resolved.not_somewhere
    {meaning : Meaning}
    (precedes : meaning.Precedes meaning)
    {name : List Char}
    (isName : IsName name)
    (known : meaning name ≠ none)
    {attached : Bool}
    {text written : List Char}
    (resolved : Resolved meaning attached text written)
    {before : Option Char}
    (behind : before.any attaches = attached) :
    ¬ Somewhere (Stands name EndsWord) before written := by
  induction resolved generalizing before with
  | nil =>
      rintro ⟨passed, rest, equal, -, after, rfl, -⟩
      simp [isName.nonempty] at equal
  | @pass attached c rest written inside tail inductionHypothesis =>
      rw [somewhere_cons]
      rintro (⟨free, after, equal, -⟩ | later)
      · obtain ⟨d, more, rfl⟩ := List.exists_cons_of_ne_nil isName.nonempty
        have word : isWord d = true := isName.allWord d List.mem_cons_self
        rw [List.cons_append, List.cons.injEq] at equal
        rw [equal.1, word, ← behind, free] at inside
        simp at inside
      · exact inductionHypothesis rfl later
  | stay isToken ends meaningless tail inductionHypothesis =>
      refine not_somewhere_accesses (accesses_self isToken) isName ?_
        (tail.endsWord_iff.mpr ends) (inductionHypothesis isToken.attached) _
      rintro rfl
      exact known meaningless
  | alone _ ends meant _ tail inductionHypothesis =>
      obtain ⟨reference, unknown⟩ := precedes _ _ meant
      have accesses := reference.accesses
      refine not_somewhere_accesses accesses isName ?_
        (tail.endsWord_iff.mpr ends) (inductionHypothesis accesses.attached) _
      rintro rfl
      exact known unknown
  | select _ isMember ends meant tail inductionHypothesis =>
      obtain ⟨reference, unknown⟩ := precedes _ _ meant
      have accesses := reference.accesses_resolveMember isMember
      refine not_somewhere_accesses accesses isName ?_
        (tail.endsWord_iff.mpr ends) (inductionHypothesis accesses.attached) _
      rintro rfl
      exact known unknown

/-! ## Tables -/

/-- The dialect knows what the alias stands for. -/
def Known (dialect : Dialect) (define : Define) : Bool :=
  dialect.canonicalIdentifiers.contains define.value

/-- What a table of aliases says of a token: the value of the first alias of
that name that the dialect knows. -/
def meaningOf (dialect : Dialect) (table : Define.Table) : Meaning :=
  fun token =>
    (List.find? (fun define =>
      Known dialect define && define.name.toList == token) table).map
        fun define => define.value.toList

/-- Aliases that do not interfere: each has one name, stands for a name with at
most one member, and no known one is what a known value starts with. -/
structure Independent (dialect : Dialect) (table : Define.Table) : Prop where
  distinct : (table.map Define.name).Nodup
  named : ∀ define ∈ table, IsName define.name.toList
  referring : ∀ define ∈ table, IsReference define.value.toList
  apart : ∀ define ∈ table, ∀ other ∈ table,
    Known dialect define = true → Known dialect other = true →
    define.name.toList ≠ baseOf other.value.toList

theorem exists_of_meaningOf
    {dialect : Dialect}
    {table : Define.Table}
    {token value : List Char}
    (meant : meaningOf dialect table token = some value) :
    ∃ define ∈ table, Known dialect define = true ∧
      define.name.toList = token ∧ define.value.toList = value := by
  obtain ⟨define, found, rfl⟩ := Option.map_eq_some_iff.mp meant
  have satisfied := List.find?_some found
  rw [Bool.and_eq_true, beq_iff_eq] at satisfied
  exact ⟨define, List.mem_of_find?_eq_some found, satisfied.1, satisfied.2, rfl⟩

theorem meaningOf_ne_none
    {dialect : Dialect}
    {table : Define.Table}
    {define : Define}
    (member : define ∈ table)
    (known : Known dialect define = true) :
    meaningOf dialect table define.name.toList ≠ none := by
  rw [meaningOf, Ne, Option.map_eq_none_iff, List.find?_eq_none]
  intro absent
  simpa [known] using absent define member

/-- The meaning of a table is that of its first alias, or else of the others. -/
theorem meaningOf_cons
    (dialect : Dialect)
    (define : Define)
    (rest : Define.Table) :
    meaningOf dialect (define :: rest) =
      if Known dialect define then
        (Meaning.only define.name.toList define.value.toList).either
          (meaningOf dialect rest)
      else meaningOf dialect rest := by
  funext token
  cases known : Known dialect define with
  | false => simp [meaningOf, known]
  | true =>
      by_cases same : define.name.toList = token
      · simp [meaningOf, Meaning.either, Meaning.only, known, same]
      · simp [meaningOf, Meaning.either, Meaning.only, known, same,
          Ne.symm same]

namespace Independent

variable {dialect : Dialect} {table : Define.Table}

theorem isNamed (independent : Independent dialect table) :
    (meaningOf dialect table).IsNamed := by
  rw [Meaning.IsNamed]
  cases meant : meaningOf dialect table [] with
  | none => rfl
  | some value =>
      obtain ⟨define, member, -, nameless, -⟩ := exists_of_meaningOf meant
      exact absurd nameless (independent.named define member).nonempty

theorem precedes (independent : Independent dialect table) :
    (meaningOf dialect table).Precedes (meaningOf dialect table) := by
  intro token value meant
  obtain ⟨define, member, known, -, rfl⟩ := exists_of_meaningOf meant
  refine ⟨independent.referring define member, ?_⟩
  cases resolved : meaningOf dialect table (baseOf define.value.toList) with
  | none => rfl
  | some _ =>
      obtain ⟨other, otherMember, otherKnown, same, -⟩ :=
        exists_of_meaningOf resolved
      exact absurd same
        (independent.apart other otherMember define member otherKnown known)

theorem tail
    {define : Define}
    (independent : Independent dialect (define :: table)) :
    Independent dialect table where
  distinct := (List.nodup_cons.mp independent.distinct).2
  named := fun other member =>
    independent.named other (List.mem_cons_of_mem define member)
  referring := fun other member =>
    independent.referring other (List.mem_cons_of_mem define member)
  apart := fun first firstMember second secondMember =>
    independent.apart first (List.mem_cons_of_mem define firstMember) second
      (List.mem_cons_of_mem define secondMember)

theorem perm
    {other : Define.Table}
    (independent : Independent dialect table)
    (permuted : other.Perm table) :
    Independent dialect other where
  distinct := (permuted.map Define.name).nodup_iff.mpr independent.distinct
  named := fun define member =>
    independent.named define (permuted.mem_iff.mp member)
  referring := fun define member =>
    independent.referring define (permuted.mem_iff.mp member)
  apart := fun first firstMember second secondMember =>
    independent.apart first (permuted.mem_iff.mp firstMember) second
      (permuted.mem_iff.mp secondMember)

/-- The first alias does not write what the others would resolve. -/
theorem only_precedes
    {define : Define}
    (independent : Independent dialect (define :: table))
    (known : Known dialect define = true) :
    (Meaning.only define.name.toList define.value.toList).Precedes
      (meaningOf dialect table) := by
  intro token value meant
  have whole : meaningOf dialect (define :: table) token = some value := by
    rw [meaningOf_cons, if_pos known, Meaning.either, meant, Option.some_or]
  obtain ⟨reference, unknown⟩ := independent.precedes token value whole
  rw [meaningOf_cons, if_pos known, Meaning.either, Option.or_eq_none_iff]
    at unknown
  exact ⟨reference, unknown.2⟩

/-- Resolving a table of aliases one after another resolves them at once. -/
theorem substituteDefines_eq_resolve
    (independent : Independent dialect table)
    (source : List Char) :
    (substituteDefines dialect table source).value =
      resolve (meaningOf dialect table) source := by
  induction table generalizing source with
  | nil => exact (resolve_none source).symm
  | cons define rest inductionHypothesis =>
      rw [value_substituteDefines_cons, inductionHypothesis independent.tail,
        meaningOf_cons]
      change resolve _ (if Known dialect define = true then _ else _) = _
      split
      · next known =>
          have isName := independent.named define List.mem_cons_self
          rw [substituteAlias_eq_resolve isName,
            resolve_resolve (independent.only_precedes known)
              (Meaning.isNamed_only isName _) independent.tail.isNamed]
      · rfl

/-- Each name has one value, so the order of the aliases does not matter. -/
theorem meaningOf_perm
    {other : Define.Table}
    (independent : Independent dialect table)
    (permuted : other.Perm table) :
    meaningOf dialect other = meaningOf dialect table := by
  have agree : ∀ {first second : Define.Table}, first.Perm second →
      (second.map Define.name).Nodup → ∀ {token value : List Char},
      meaningOf dialect first token = some value →
      meaningOf dialect second token = some value := by
    intro first second permuted distinct token value meant
    obtain ⟨define, member, known, rfl, rfl⟩ := exists_of_meaningOf meant
    have inSecond := permuted.mem_iff.mp member
    obtain ⟨value, found⟩ :=
      Option.ne_none_iff_exists'.mp (meaningOf_ne_none inSecond known)
    obtain ⟨twin, twinMember, -, sameName, rfl⟩ := exists_of_meaningOf found
    rw [found, List.inj_on_of_nodup_map distinct twinMember inSecond
      (String.toList_inj.mp sameName)]
  funext token
  apply Option.ext
  intro value
  constructor
  · exact agree permuted independent.distinct
  · exact agree permuted.symm (independent.perm permuted).distinct

end Independent

/-- Aliases that the dialect does not know make no difference. -/
theorem substituteDefines_filter
    (dialect : Dialect)
    (table : Define.Table)
    (source : List Char) :
    (substituteDefines dialect (table.filter (Known dialect)) source).value =
      (substituteDefines dialect table source).value := by
  induction table generalizing source with
  | nil => rfl
  | cons define rest inductionHypothesis =>
      rw [List.filter_cons, value_substituteDefines_cons dialect define rest]
      change _ = (substituteDefines dialect rest
        (if Known dialect define = true then _ else _)).value
      split
      · next known =>
          rw [value_substituteDefines_cons, inductionHypothesis]
          change (substituteDefines dialect rest
            (if Known dialect define = true then _ else _)).value = _
          rw [if_pos known]
      · exact inductionHypothesis source

/-- For aliases that do not interfere, resolving them one after another is
resolving them at once, whatever their order; none that the dialect knows is
left, and those that it does not know change nothing. -/
theorem substituteDefines_at_once
    {dialect : Dialect}
    {table : Define.Table}
    (independent : Independent dialect table)
    (source : List Char) :
    (substituteDefines dialect table source).value =
      resolve (meaningOf dialect table) source ∧
    (∀ other : Define.Table, other.Perm table →
      (substituteDefines dialect other source).value =
        (substituteDefines dialect table source).value) ∧
    (∀ define ∈ table, Known dialect define = true →
      ¬ StandsIn define.name.toList EndsWord
        (substituteDefines dialect table source).value) ∧
    (substituteDefines dialect (table.filter (Known dialect)) source).value =
      (substituteDefines dialect table source).value ∧
    ((∀ define ∈ table, Known dialect define = false) →
      (substituteDefines dialect table source).value = source) := by
  have atOnce := independent.substituteDefines_eq_resolve source
  have inert := substituteDefines_filter dialect table source
  refine ⟨atOnce, fun other permuted => ?_, fun define member known => ?_,
    inert, fun unknown => ?_⟩
  · rw [atOnce, (independent.perm permuted).substituteDefines_eq_resolve,
      independent.meaningOf_perm permuted]
  · rw [atOnce, standsIn_iff_somewhere]
    exact (resolved_resolveFrom independent.isNamed none source).not_somewhere
      independent.precedes (independent.named define member)
      (meaningOf_ne_none member known) rfl
  · have empty : table.filter (Known dialect) = [] := by
      rw [List.filter_eq_nil_iff]
      simpa using unknown
    rw [← inert, empty]
    rfl

/-- Two aliases that the dialect knows, and one that it does not. -/
def crossedAliases : Define.Table :=
  [⟨"t", "iTime"⟩, ⟨"res", "iResolution.xy"⟩, ⟨"m", "iMouse"⟩]

theorem independent_crossedAliases :
    Independent Dialect.builtin crossedAliases where
  distinct := by decide
  named := by decide +kernel
  referring := by
    simp only [crossedAliases, List.forall_mem_cons]
    exact ⟨.inl (by decide +kernel),
      .inr ⟨"iResolution".toList, "xy".toList, by decide +kernel,
        by decide +kernel, rfl⟩,
      .inl (by decide +kernel), List.forall_mem_nil _⟩
  apart := by decide +kernel

/-- Each alias is also a member that another one selects. -/
theorem substituteDefines_at_once_crossedAliases :
    Independent Dialect.builtin crossedAliases ∧
      ∀ other : Define.Table, other.Perm crossedAliases →
        (substituteDefines .builtin other
          "res.t + t.res / res.x - m.t".toList).value =
          "iResolution.xy.t + iTime.res / iResolution.x - m.t".toList := by
  refine ⟨independent_crossedAliases, fun other permuted => ?_⟩
  rw [(substituteDefines_at_once independent_crossedAliases _).2.1 other
    permuted]
  decide +kernel

end Shader
end ShaderLift
