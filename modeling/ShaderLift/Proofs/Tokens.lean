import ShaderLift.Proofs.Aliases

/-!
# Tokens and what they stand for

A token is a longest run of word characters.  A meaning says what tokens stand
for, and one walk over a text resolves every token with a meaning that is not
part of a member access.  The walk is a sequence of steps, one for each kind of
stretch of the text; statements about resolved texts go by induction on them.
Resolving a single alias is the walk for the meaning of that alias.
-/

namespace ShaderLift
namespace Shader

open Text Name

/-- One or more word characters. -/
structure IsName (text : List Char) : Prop where
  nonempty : text ≠ []
  allWord : ∀ c ∈ text, isWord c = true

theorem isName_iff (text : List Char) :
    IsName text ↔ text ≠ [] ∧ text.all isWord = true := by
  rw [List.all_eq_true]
  exact ⟨fun isName => ⟨isName.nonempty, isName.allWord⟩,
    fun ⟨nonempty, allWord⟩ => ⟨nonempty, allWord⟩⟩

instance (text : List Char) : Decidable (IsName text) :=
  decidable_of_iff _ (isName_iff text).symm

/-- What a token stands for, if it does not stand for itself. -/
abbrev Meaning :=
  List Char → Option (List Char)

namespace Meaning

/-- One token has a meaning. -/
def only (name value : List Char) : Meaning :=
  fun token => if token = name then some value else none

theorem ne_of_only_eq_none
    {name value token : List Char}
    (meaningless : only name value token = none) : token ≠ name := by
  rintro rfl
  simp [only] at meaningless

theorem eq_of_only_eq_some
    {name value token meant : List Char}
    (known : only name value token = some meant) :
    token = name ∧ meant = value := by
  unfold only at known
  split at known
  · next same => exact ⟨same, (Option.some.inj known).symm⟩
  · contradiction

/-- The first meaning of a token, or else the second. -/
def either (first second : Meaning) : Meaning :=
  fun token => (first token).or (second token)

/-- Nothing but a token has a meaning. -/
def IsNamed (meaning : Meaning) : Prop :=
  meaning [] = none

theorem isNamed_only
    {name : List Char}
    (isName : IsName name)
    (value : List Char) :
    IsNamed (only name value) :=
  if_neg (Ne.symm isName.nonempty)

theorem isNamed_either
    {first second : Meaning}
    (firstNamed : first.IsNamed)
    (secondNamed : second.IsNamed) :
    (first.either second).IsNamed := by
  rw [IsNamed, either, firstNamed, secondNamed, Option.or_none]

end Meaning

/-! ## Names and members -/

namespace IsName

variable {name : List Char}

theorem endsInWord (isName : IsName name) :
    name.getLast?.any isWord = true := by
  rw [List.getLast?_eq_some_getLast isName.nonempty, Option.any_some]
  exact isName.allWord _ (List.getLast_mem _)

theorem attached (isName : IsName name) :
    name.getLast?.any attaches = true := by
  rw [List.getLast?_eq_some_getLast isName.nonempty, Option.any_some]
  exact attaches_of_isWord (isName.allWord _ (List.getLast_mem _))

theorem allAttach (isName : IsName name) : ∀ c ∈ name, attaches c = true :=
  fun c member => attaches_of_isWord (isName.allWord c member)

theorem getLast?_or
    (isName : IsName name)
    (before : Option Char) : name.getLast?.or before = name.getLast? := by
  rw [List.getLast?_eq_some_getLast isName.nonempty, Option.some_or]

theorem getLast?_append_dot
    (isName : IsName name)
    (front : List Char) : (front ++ '.' :: name).getLast? = name.getLast? := by
  obtain ⟨c, cs, rfl⟩ := List.exists_cons_of_ne_nil isName.nonempty
  rw [List.getLast?_append, List.getLast?_cons_cons, List.getLast?_cons,
    Option.some_or]

theorem takeWhile_append
    (isName : IsName name)
    {rest : List Char}
    (ends : EndsWord rest) :
    (name ++ rest).takeWhile isWord = name := by
  rw [List.takeWhile_append_of_pos isName.allWord]
  cases rest with
  | nil => simp
  | cons c cs =>
      have noWord : isWord c = false := ends
      simp [noWord]

theorem dropWhile_append
    (isName : IsName name)
    {rest : List Char}
    (ends : EndsWord rest) :
    (name ++ rest).dropWhile isWord = rest := by
  rw [List.dropWhile_append_of_pos isName.allWord]
  cases rest with
  | nil => rfl
  | cons c cs =>
      have noWord : isWord c = false := ends
      simp [noWord]

end IsName

theorem attaches_dot : attaches '.' = true := by
  decide +kernel

theorem endsWord_dot (rest : List Char) : EndsWord ('.' :: rest) := by
  have noWord : isWord '.' = false := by decide +kernel
  exact noWord

theorem baseOf_append_dot
    {base : List Char}
    (isName : IsName base)
    (rest : List Char) :
    baseOf (base ++ '.' :: rest) = base := by
  have noDot : ∀ c ∈ base, (c != '.') = true := fun c member => by
    simpa using ne_dot_of_isWord (isName.allWord c member)
  rw [baseOf, List.takeWhile_append_of_pos noDot]
  simp

theorem baseOf_name
    {name : List Char}
    (isName : IsName name) : baseOf name = name := by
  rw [baseOf, List.takeWhile_eq_self_iff]
  intro c member
  simpa using ne_dot_of_isWord (isName.allWord c member)

theorem isNameStart_of_isBlank
    {c : Char}
    (blank : isBlank c = true) : isNameStart c = false := by
  cases start : isNameStart c with
  | false => rfl
  | true =>
      have noWord := isWord_of_isBlank blank
      rw [isWord_of_isNameStart start] at noWord
      contradiction

/-- What stands behind the longest run of word characters ends a word. -/
theorem endsWord_dropWhile (text : List Char) :
    EndsWord (text.dropWhile isWord) := by
  have stopped := List.head?_dropWhile_not isWord text
  rw [EndsWord]
  cases first : (text.dropWhile isWord).head? with
  | none => rfl
  | some c => simpa [first] using stopped

theorem isName_takeWhile
    {c : Char}
    (word : isWord c = true)
    (cs : List Char) :
    IsName ((c :: cs).takeWhile isWord) where
  nonempty := by simp [word]
  allWord := fun _ member => List.mem_takeWhile_imp member

/-- Take a dot and a name off a text. -/
def takeMember : List Char → Option (List Char × List Char)
  | '.' :: rest => Define.takeName rest
  | _ => none

/-- A member that a use may select. -/
structure IsMember (member : List Char) : Prop extends IsName member where
  starts : StartsName member

theorem takeName_append
    {member rest : List Char}
    (isMember : IsMember member)
    (ends : EndsWord rest) :
    Define.takeName (member ++ rest) = some (member, rest) := by
  obtain ⟨c, cs, rfl, start⟩ := isMember.starts
  have word : isWord c = true := isMember.allWord c List.mem_cons_self
  have taken := isMember.takeWhile_append ends
  have dropped := isMember.dropWhile_append ends
  rw [List.cons_append, List.takeWhile_cons_of_pos word, List.cons.injEq]
    at taken
  rw [List.cons_append, List.dropWhile_cons_of_pos word] at dropped
  rw [List.cons_append, Define.takeName, if_pos start, taken.2, dropped]

theorem takeMember_append
    {member rest : List Char}
    (isMember : IsMember member)
    (ends : EndsWord rest) :
    takeMember ('.' :: (member ++ rest)) = some (member, rest) :=
  takeName_append isMember ends

theorem exists_of_takeMember
    {text member rest : List Char}
    (taken : takeMember text = some (member, rest)) :
    text = '.' :: (member ++ rest) ∧ IsMember member ∧ EndsWord rest := by
  unfold takeMember at taken
  split at taken
  · next behind =>
      obtain ⟨rfl, starts, allWord⟩ := exists_of_takeName taken
      have isMember : IsMember member :=
        { nonempty := by obtain ⟨c, cs, rfl, -⟩ := starts; simp
          allWord := allWord
          starts := starts }
      refine ⟨rfl, isMember, ?_⟩
      obtain ⟨c, cs, rfl, start⟩ := starts
      rw [List.cons_append, Define.takeName, if_pos start, Option.some.injEq,
        Prod.mk.injEq] at taken
      rw [← taken.2]
      exact endsWord_dropWhile _
  · contradiction

/-- Whether a member follows is decided by the first two characters. -/
theorem takeMember_eq_none_iff (text : List Char) :
    takeMember text = none ↔
      ∀ c rest, text = '.' :: c :: rest → isNameStart c = false := by
  constructor
  · rintro absent c rest rfl
    cases start : isNameStart c with
    | false => rfl
    | true => simp [takeMember, Define.takeName, start] at absent
  · intro noStart
    unfold takeMember
    split
    · next behind =>
        cases behind with
        | nil => rfl
        | cons c cs => simp [Define.takeName, noStart c cs rfl]
    · rfl

/-! ## Searches for whole tokens -/

/-- The search finds nothing behind a character that attaches. -/
def IsDetached (search : Search) : Prop :=
  ∀ before text, before.any attaches = true → search before text = none

namespace IsDetached

variable {search : Search} {before : Option Char}

/-- Behind a character that attaches, a stretch of such characters stays. -/
theorem replaceFrom_attached
    (detached : IsDetached search)
    {stretch : List Char}
    (allAttach : ∀ c ∈ stretch, attaches c = true)
    (attached : before.any attaches = true)
    (rest : List Char) :
    replaceFrom search 0 before (stretch ++ rest) =
      stretch ++ replaceFrom search 0 (stretch.getLast?.or before) rest := by
  induction stretch generalizing before with
  | nil => rfl
  | cons c cs inductionHypothesis =>
      have first : (some c).any attaches = true :=
        allAttach c List.mem_cons_self
      rw [List.cons_append, replaceFrom_kept (detached _ _ attached),
        inductionHypothesis
          (fun d member => allAttach d (List.mem_cons_of_mem c member)) first,
        getLast?_cons_or, List.cons_append]

/-- A token that is not found stays as a whole. -/
theorem replaceFrom_token
    (detached : IsDetached search)
    {token : List Char}
    (isName : IsName token)
    {rest : List Char}
    (absent : search before (token ++ rest) = none) :
    replaceFrom search 0 before (token ++ rest) =
      token ++ replaceFrom search 0 token.getLast? rest := by
  obtain ⟨c, cs, rfl⟩ := List.exists_cons_of_ne_nil isName.nonempty
  have first : (some c).any attaches = true :=
    isName.allAttach c List.mem_cons_self
  rw [List.cons_append] at absent
  rw [List.cons_append, replaceFrom_kept absent, detached.replaceFrom_attached
    (fun d member => isName.allAttach d (List.mem_cons_of_mem c member)) first,
    ← getLast?_cons_or c cs none, Option.or_none, List.cons_append]

end IsDetached

/-- The search finds nothing but whole tokens. -/
structure IsTokenwise (search : Search) : Prop where
  detached : IsDetached search
  silent : ∀ before c rest, isWord c = false → search before (c :: rest) = none

/-- A place inside a word or a member access is passed over, and so is one that
is not of a word. -/
theorem IsTokenwise.replaceFrom_pass
    {search : Search}
    (tokenwise : IsTokenwise search)
    {before : Option Char}
    {c : Char}
    (inside : before.any attaches = true ∨ isWord c = false)
    (rest : List Char) :
    replaceFrom search 0 before (c :: rest) =
      c :: replaceFrom search 0 (some c) rest := by
  apply replaceFrom_kept
  rcases inside with attached | noWord
  · exact tokenwise.detached before _ attached
  · exact tokenwise.silent before c rest noWord

/-! ## The walk -/

/-- Find a token with a meaning that is no member, with the member that it
selects. -/
def tokenUse (meaning : Meaning) : Search :=
  fun before text =>
    if before.any attaches then none
    else
      let token := text.takeWhile isWord
      match meaning token with
      | none => none
      | some value =>
          match takeMember (text.dropWhile isWord) with
          | none => some ⟨token.length, value⟩
          | some (member, _) =>
              some ⟨token.length + 1 + member.length,
                resolveMember value member⟩

/-- Resolve the tokens of a text that follows the given character. -/
def resolveFrom
    (meaning : Meaning)
    (before : Option Char)
    (text : List Char) : List Char :=
  replaceFrom (tokenUse meaning) 0 before text

/-- Resolve all tokens of a text at once. -/
def resolve (meaning : Meaning) (text : List Char) : List Char :=
  resolveFrom meaning none text

section Steps

variable {meaning : Meaning} {before : Option Char}

@[simp] theorem resolveFrom_nil
    (meaning : Meaning)
    (before : Option Char) : resolveFrom meaning before [] = [] :=
  rfl

theorem isDetached_tokenUse (meaning : Meaning) :
    IsDetached (tokenUse meaning) := by
  intro before text attached
  rw [tokenUse, if_pos attached]

theorem isTokenwise_tokenUse (isNamed : meaning.IsNamed) :
    IsTokenwise (tokenUse meaning) where
  detached := isDetached_tokenUse meaning
  silent := fun before c rest noWord => by
    have noToken : (c :: rest).takeWhile isWord = [] := by simp [noWord]
    simp only [tokenUse, noToken]
    split
    · rfl
    · rw [isNamed]

theorem resolveFrom_pass
    (isNamed : meaning.IsNamed)
    {c : Char}
    (inside : before.any attaches = true ∨ isWord c = false)
    (rest : List Char) :
    resolveFrom meaning before (c :: rest) =
      c :: resolveFrom meaning (some c) rest :=
  (isTokenwise_tokenUse isNamed).replaceFrom_pass inside rest

theorem resolveFrom_attached
    {stretch : List Char}
    (allAttach : ∀ c ∈ stretch, attaches c = true)
    (attached : before.any attaches = true)
    (rest : List Char) :
    resolveFrom meaning before (stretch ++ rest) =
      stretch ++ resolveFrom meaning (stretch.getLast?.or before) rest :=
  (isDetached_tokenUse meaning).replaceFrom_attached allAttach attached rest

section Token

variable {token rest : List Char}

/-- A token without a meaning is not found. -/
theorem tokenUse_stay
    (isName : IsName token)
    (ends : EndsWord rest)
    (meaningless : meaning token = none)
    (before : Option Char) :
    tokenUse meaning before (token ++ rest) = none := by
  simp only [tokenUse, isName.takeWhile_append ends, meaningless, ite_self]

theorem tokenUse_alone
    (free : before.any attaches = false)
    (isName : IsName token)
    (ends : EndsWord rest)
    {value : List Char}
    (meant : meaning token = some value)
    (noMember : takeMember rest = none) :
    tokenUse meaning before (token ++ rest) = some ⟨token.length, value⟩ := by
  simp only [tokenUse, free, isName.takeWhile_append ends,
    isName.dropWhile_append ends, meant, noMember]
  rfl

theorem tokenUse_select
    (free : before.any attaches = false)
    (isName : IsName token)
    {member : List Char}
    (isMember : IsMember member)
    (ends : EndsWord rest)
    {value : List Char}
    (meant : meaning token = some value) :
    tokenUse meaning before ((token ++ '.' :: member) ++ rest) =
      some ⟨(token ++ '.' :: member).length, resolveMember value member⟩ := by
  have behind := endsWord_dot (member ++ rest)
  rw [List.append_assoc, List.cons_append]
  simp only [tokenUse, free, isName.takeWhile_append behind,
    isName.dropWhile_append behind, meant, takeMember_append isMember ends,
    List.length_append, List.length_cons, Bool.false_eq_true, if_false,
    Option.some.injEq, Occurrence.mk.injEq, and_true]
  omega

/-- A token without a meaning stays. -/
theorem resolveFrom_stay
    (isName : IsName token)
    (ends : EndsWord rest)
    (meaningless : meaning token = none) :
    resolveFrom meaning before (token ++ rest) =
      token ++ resolveFrom meaning token.getLast? rest :=
  (isDetached_tokenUse meaning).replaceFrom_token isName
    (tokenUse_stay isName ends meaningless before)

/-- A token that selects nothing becomes what it stands for. -/
theorem resolveFrom_alone
    (free : before.any attaches = false)
    (isName : IsName token)
    (ends : EndsWord rest)
    {value : List Char}
    (meant : meaning token = some value)
    (noMember : takeMember rest = none) :
    resolveFrom meaning before (token ++ rest) =
      value ++ resolveFrom meaning token.getLast? rest :=
  replaceFrom_found (tokenUse_alone free isName ends meant noMember)
    isName.nonempty

/-- A token that selects a member is resolved together with it. -/
theorem resolveFrom_select
    (free : before.any attaches = false)
    (isName : IsName token)
    {member : List Char}
    (isMember : IsMember member)
    (ends : EndsWord rest)
    {value : List Char}
    (meant : meaning token = some value) :
    resolveFrom meaning before (token ++ '.' :: (member ++ rest)) =
      resolveMember value member ++
        resolveFrom meaning member.getLast? rest := by
  have walked := replaceFrom_found
    (tokenUse_select free isName isMember ends meant) (by simp)
  rw [List.append_assoc, List.cons_append, isMember.getLast?_append_dot]
    at walked
  exact walked

end Token
end Steps

/-! ## The walk as a relation -/

/-- The second text is the first one with its tokens resolved.  The flag says
whether the first one follows a character that attaches. -/
inductive Resolved (meaning : Meaning) :
    Bool → List Char → List Char → Prop
  | nil {attached : Bool} : Resolved meaning attached [] []
  | pass {attached : Bool} {c : Char} {rest written : List Char}
      (inside : attached = true ∨ isWord c = false)
      (tail : Resolved meaning (attaches c) rest written) :
      Resolved meaning attached (c :: rest) (c :: written)
  | stay {token rest written : List Char}
      (isName : IsName token)
      (ends : EndsWord rest)
      (meaningless : meaning token = none)
      (tail : Resolved meaning true rest written) :
      Resolved meaning false (token ++ rest) (token ++ written)
  | alone {token value rest written : List Char}
      (isName : IsName token)
      (ends : EndsWord rest)
      (meant : meaning token = some value)
      (noMember : takeMember rest = none)
      (tail : Resolved meaning true rest written) :
      Resolved meaning false (token ++ rest) (value ++ written)
  | select {token value member rest written : List Char}
      (isName : IsName token)
      (isMember : IsMember member)
      (ends : EndsWord rest)
      (meant : meaning token = some value)
      (tail : Resolved meaning true rest written) :
      Resolved meaning false (token ++ '.' :: (member ++ rest))
        (resolveMember value member ++ written)

/-- The walk is a sequence of steps. -/
theorem resolved_resolveFrom
    {meaning : Meaning}
    (isNamed : meaning.IsNamed)
    (before : Option Char)
    (text : List Char) :
    Resolved meaning (before.any attaches) text
      (resolveFrom meaning before text) := by
  match text with
  | [] => exact .nil
  | c :: cs =>
      by_cases inside : before.any attaches = true ∨ isWord c = false
      · rw [resolveFrom_pass isNamed inside]
        exact .pass inside (resolved_resolveFrom isNamed (some c) cs)
      · rw [not_or, Bool.not_eq_true, Bool.not_eq_false] at inside
        obtain ⟨free, word⟩ := inside
        have isName := isName_takeWhile word cs
        have ends := endsWord_dropWhile (c :: cs)
        have divided :=
          List.takeWhile_append_dropWhile (p := isWord) (l := c :: cs)
        have shorter :
            ((c :: cs).dropWhile isWord).length < (c :: cs).length := by
          have some := List.length_pos_iff.mpr isName.nonempty
          have sum := congrArg List.length divided
          rw [List.length_append] at sum
          omega
        generalize (c :: cs).takeWhile isWord = token at isName divided
        generalize (c :: cs).dropWhile isWord = rest at ends divided shorter
        rw [← divided, free]
        have tail := resolved_resolveFrom isNamed token.getLast? rest
        rw [isName.attached] at tail
        cases meant : meaning token with
        | none =>
            rw [resolveFrom_stay isName ends meant]
            exact .stay isName ends meant tail
        | some value =>
            cases selected : takeMember rest with
            | none =>
                rw [resolveFrom_alone free isName ends meant selected]
                exact .alone isName ends meant selected tail
            | some found =>
                obtain ⟨member, behind⟩ := found
                obtain ⟨rfl, isMember, endsBehind⟩ :=
                  exists_of_takeMember selected
                have tail :=
                  resolved_resolveFrom isNamed member.getLast? behind
                rw [isMember.attached] at tail
                rw [resolveFrom_select free isName isMember endsBehind meant]
                exact .select isName isMember endsBehind meant tail
termination_by text.length
decreasing_by
  all_goals simp_all
  all_goals omega

namespace Resolved

variable {meaning : Meaning} {attached : Bool} {text written : List Char}

/-- There is one way to resolve a text. -/
theorem eq_resolveFrom
    (isNamed : meaning.IsNamed)
    (resolved : Resolved meaning attached text written)
    {before : Option Char}
    (behind : before.any attaches = attached) :
    written = resolveFrom meaning before text := by
  induction resolved generalizing before with
  | nil => rfl
  | pass inside _ inductionHypothesis =>
      rw [← behind] at inside
      rw [resolveFrom_pass isNamed inside, ← inductionHypothesis rfl]
  | stay isName ends meaningless _ inductionHypothesis =>
      rw [resolveFrom_stay isName ends meaningless,
        ← inductionHypothesis isName.attached]
  | alone isName ends meant noMember _ inductionHypothesis =>
      rw [resolveFrom_alone behind isName ends meant noMember,
        ← inductionHypothesis isName.attached]
  | select isName isMember ends meant _ inductionHypothesis =>
      rw [resolveFrom_select behind isName isMember ends meant,
        ← inductionHypothesis isMember.attached]

/-- Behind a character that attaches, the next one is kept. -/
theorem exists_kept
    {c : Char}
    (resolved : Resolved meaning true (c :: text) written) :
    ∃ behind, written = c :: behind ∧
      Resolved meaning (attaches c) text behind := by
  cases resolved with
  | pass _ tail => exact ⟨_, rfl, tail⟩

/-- Behind a character that attaches, a stretch of such characters is kept. -/
theorem exists_kept_stretch
    {stretch : List Char}
    (allAttach : ∀ c ∈ stretch, attaches c = true)
    (resolved : Resolved meaning true (stretch ++ text) written) :
    ∃ behind, written = stretch ++ behind ∧
      Resolved meaning true text behind := by
  induction stretch generalizing written with
  | nil => exact ⟨written, rfl, resolved⟩
  | cons c cs inductionHypothesis =>
      obtain ⟨more, rfl, kept⟩ := exists_kept resolved
      rw [allAttach c List.mem_cons_self] at kept
      obtain ⟨behind, rfl, tail⟩ := inductionHypothesis
        (fun d member => allAttach d (List.mem_cons_of_mem c member)) kept
      exact ⟨behind, rfl, tail⟩

/-- Behind a character that attaches, the first character is the same. -/
theorem head?_eq (resolved : Resolved meaning true text written) :
    written.head? = text.head? := by
  cases text with
  | nil =>
      generalize equal : ([] : List Char) = empty at resolved
      cases resolved with
      | nil => rfl
      | pass _ _ => contradiction
  | cons c cs =>
      obtain ⟨behind, rfl, -⟩ := exists_kept resolved
      rfl

theorem endsWord_iff (resolved : Resolved meaning true text written) :
    EndsWord written ↔ EndsWord text := by
  rw [EndsWord, EndsWord, resolved.head?_eq]

/-- No member appears behind a token where there was none. -/
theorem takeMember_eq_none
    (resolved : Resolved meaning true text written)
    (noMember : takeMember text = none) :
    takeMember written = none := by
  rw [takeMember_eq_none_iff] at noMember ⊢
  rintro c rest rfl
  obtain ⟨first, rfl⟩ := List.head?_eq_some_iff.mp resolved.head?_eq.symm
  obtain ⟨behind, equal, tail⟩ := exists_kept resolved
  rw [List.cons.injEq] at equal
  obtain ⟨-, rfl⟩ := equal
  rw [attaches_dot] at tail
  obtain ⟨second, rfl⟩ := List.head?_eq_some_iff.mp tail.head?_eq.symm
  exact noMember c second rfl

end Resolved

/-! ## Single names -/

/-- A name stands alone where it is the token. -/
theorem standsAt_eq_token
    {name : List Char}
    (isName : IsName name)
    (before : Option Char)
    (text : List Char) :
    standsAt name before text =
      if before.any attaches then none
      else if text.takeWhile isWord = name then some (text.dropWhile isWord)
      else none := by
  cases free : before.any attaches with
  | true => simp [standsAt, free]
  | false =>
      rw [if_neg Bool.false_ne_true]
      split
      · next isToken =>
          have found := standsAt_of_endsWord isName.endsInWord free
            (endsWord_dropWhile text)
          rwa [← isToken, List.takeWhile_append_dropWhile, isToken] at found
      · next other =>
          cases stands : standsAt name before text with
          | none => rfl
          | some rest =>
              have parted := eq_append_of_standsAt stands
              refine absurd ?_ other
              rw [parted]
              apply isName.takeWhile_append
              rw [parted, standsAt, if_neg (by simp [free]),
                (dropExact_eq_some_iff _ _ _).mpr rfl] at stands
              cases word : rest.head?.any isWord with
              | false => exact word
              | true =>
                  rw [isName.getLast?_or] at stands
                  simp [isBoundary, isName.endsInWord, word] at stands

section Name

variable {name : List Char} {search : Search}

/-- A search that starts with a name finds nothing but whole tokens. -/
theorem isTokenwise_of_standsAt
    (isName : IsName name)
    (needs : ∀ before text, standsAt name before text = none →
      search before text = none) :
    IsTokenwise search where
  detached := fun before text attached =>
    needs before text (by rw [standsAt_eq_token isName, if_pos attached])
  silent := fun before c rest noWord => by
    have noToken : (c :: rest).takeWhile isWord = [] := by simp [noWord]
    apply needs
    rw [standsAt_eq_token isName, noToken, if_neg (Ne.symm isName.nonempty),
      ite_self]

theorem standsAt_other
    (isName : IsName name)
    {token rest : List Char}
    (isToken : IsName token)
    (other : token ≠ name)
    (ends : EndsWord rest)
    (before : Option Char) :
    standsAt name before (token ++ rest) = none := by
  rw [standsAt_eq_token isName, isToken.takeWhile_append ends, if_neg other,
    ite_self]

theorem isTokenwise_useOf
    (isName : IsName name)
    (parts : List Template.Part) :
    IsTokenwise (useOf name parts) :=
  isTokenwise_of_standsAt isName fun before text absent => by
    rw [useOf, absent]

theorem isTokenwise_assignmentTo
    (isName : IsName name)
    (parts : List Template.Part) :
    IsTokenwise (assignmentTo name parts) :=
  isTokenwise_of_standsAt isName fun before text absent => by
    rw [assignmentTo, absent]

end Name

/-- A use of an alias is the use of a token with one meaning. -/
theorem aliasUse_eq_tokenUse
    {name : List Char}
    (isName : IsName name)
    (value : List Char) :
    aliasUse name value = tokenUse (Meaning.only name value) := by
  funext before text
  rw [aliasUse, standsAt_eq_token isName, tokenUse]
  cases before.any attaches with
  | true => rfl
  | false =>
      simp only [Bool.false_eq_true, if_false, Meaning.only]
      by_cases isToken : text.takeWhile isWord = name
      · simp only [if_pos isToken]
        rw [isToken]
        generalize text.dropWhile isWord = behind
        split
        · contradiction
        · next rest equal =>
            obtain rfl := Option.some.inj equal
            rfl
        · next noDot equal =>
            obtain rfl := Option.some.inj equal
            rw [takeMember]
            exact noDot
      · simp only [if_neg isToken]

theorem substituteAlias_eq_resolve
    {name : List Char}
    (isName : IsName name)
    (source value : List Char) :
    substituteAlias source name value =
      resolve (Meaning.only name value) source := by
  rw [substituteAlias, aliasUse_eq_tokenUse isName]
  rfl

/-- Every recorded alias is a name. -/
theorem isName_extract (source : List Char) :
    ∀ define ∈ (Define.extract source).value.1,
      IsName define.name.toList := by
  refine forall_mem_extract fun directive _ define read => ?_
  obtain ⟨text, rest, taken⟩ := exists_takeName_of_ofDirective? read
  obtain ⟨-, starts, allWord⟩ := exists_of_takeName taken
  obtain ⟨c, cs, equal, -⟩ := starts
  exact ⟨by simp [equal], allWord⟩

end Shader
end ShaderLift
