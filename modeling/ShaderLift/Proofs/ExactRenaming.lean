import Mathlib.Data.List.SplitBy
import ShaderLift.Proofs.Parameters
import ShaderLift.Proofs.Sites
import ShaderLift.Proofs.Tokens

/-!
# Renaming token by token

A text is cut into tokens: longest runs of word characters, and single other
characters.  A use of a name is a token that is the name and has no dot right
before it.  Renaming the coordinate, assigning to the output and resolving an
alias replace uses of one name, each with what it takes behind the name, and
nothing else.
-/

namespace ShaderLift
namespace Shader

open Text Name

/-! ## Cutting a text into tokens -/

/-- A text cut into longest runs of word characters and single other
characters. -/
def tokens (text : List Char) : List (List Char) :=
  text.splitBy fun c d => isWord c && isWord d

theorem flatten_tokens (text : List Char) : (tokens text).flatten = text :=
  List.flatten_splitBy _ text

/-- Consecutive tokens are the tokens of the text that they make up. -/
theorem tokens_flatten
    {text : List Char}
    {some : List (List Char)}
    (consecutive : some <:+: tokens text) : tokens some.flatten = some := by
  have parted :=
    List.IsChain.infix (List.isChain_getLast_head_splitBy _ text) consecutive
  exact List.splitBy_flatten
    (fun empty => List.nil_notMem_splitBy _ text (consecutive.subset empty))
    (fun _ member => List.isChain_of_mem_splitBy (consecutive.subset member))
    parted

/-- Texts are cut apart where no word goes on. -/
theorem tokens_append
    {before after : List Char}
    (apart : before.getLast?.any isWord = false ∨ EndsWord after) :
    tokens (before ++ after) = tokens before ++ tokens after := by
  refine List.splitBy_append fun c last d first => ?_
  rcases apart with ends | ends
  · rw [Option.mem_def] at last
    simp_all
  · rw [EndsWord] at ends
    rw [Option.mem_def] at first
    simp_all

theorem tokens_cons
    {c : Char}
    (noWord : isWord c = false)
    (rest : List Char) : tokens (c :: rest) = [c] :: tokens rest :=
  @tokens_append [c] rest (Or.inl noWord)

/-- The first token starts with the first character. -/
theorem exists_tokens_cons
    (c : Char)
    (cs : List Char) : ∃ more rest, tokens (c :: cs) = (c :: more) :: rest := by
  have whole := flatten_tokens (c :: cs)
  cases cut : tokens (c :: cs) with
  | nil => simp [cut] at whole
  | cons token rest =>
      cases token with
      | nil =>
          have empty : [] ∈ tokens (c :: cs) := by simp [cut]
          exact absurd empty (List.nil_notMem_splitBy _ _)
      | cons d more =>
          rw [cut, List.flatten_cons, List.cons_append] at whole
          obtain rfl := (List.cons.inj whole).1
          exact ⟨more, rest, rfl⟩

theorem IsName.tokens_eq
    {name : List Char}
    (isName : IsName name) : tokens name = [name] := by
  refine List.splitBy_of_isChain isName.nonempty (List.Pairwise.isChain ?_)
  refine List.pairwise_of_forall_mem_list fun c isMember d isMember' => ?_
  rw [isName.allWord c isMember, isName.allWord d isMember']
  rfl

/-- A word that neither goes on nor goes back is a token. -/
theorem IsName.tokens_between
    {name before after : List Char}
    (isName : IsName name)
    (free : before.getLast?.any isWord = false)
    (ends : EndsWord after) :
    tokens (before ++ (name ++ after)) = tokens before ++ name :: tokens after := by
  rw [tokens_append (Or.inl free), tokens_append (Or.inr ends), isName.tokens_eq]
  rfl

theorem getLast?_of_getLast?_tokens
    {text token : List Char}
    (last : (tokens text).getLast? = some token) :
    text.getLast? = token.getLast? := by
  obtain ⟨front, cut⟩ := List.getLast?_eq_some_iff.mp last
  have present : token ≠ [] :=
    List.ne_nil_of_mem_splitBy (List.mem_of_getLast? last)
  rw [← flatten_tokens text, cut, List.flatten_append, List.flatten_singleton,
    List.getLast?_append, List.getLast?_eq_some_getLast present, Option.some_or]

/-- The last character is a token of its own if it is of no word. -/
theorem getLast?_tokens
    {text : List Char}
    {c : Char}
    (noWord : isWord c = false)
    (last : text.getLast? = some c) :
    (tokens text).getLast? = some [c] := by
  obtain ⟨front, rfl⟩ := List.getLast?_eq_some_iff.mp last
  have ends : EndsWord [c] := noWord
  rw [tokens_append (Or.inr ends), tokens_cons noWord]
  simp [tokens]

/-- No word goes on into a token of word characters, or out of it. -/
theorem IsName.bounds_of_tokens
    {name source : List Char}
    {front back : List (List Char)}
    (isName : IsName name)
    (divided : tokens source = front ++ name :: back) :
    front.flatten.getLast?.any isWord = false ∧ EndsWord back.flatten := by
  have apart := List.isChain_getLast_head_splitBy
    (fun c d => isWord c && isWord d) source
  rw [show source.splitBy _ = front ++ name :: back from divided,
    List.isChain_append, List.isChain_cons] at apart
  obtain ⟨-, ⟨next, -⟩, previous⟩ := apart
  constructor
  · rcases front.eq_nil_or_concat with rfl | ⟨front, token, rfl⟩
    · rfl
    · obtain ⟨present, _, parted⟩ := previous token (by simp) name rfl
      rw [isName.allWord _ (List.head_mem _), Bool.and_true] at parted
      rw [List.concat_eq_append, List.flatten_append, List.flatten_singleton,
        List.getLast?_append, List.getLast?_eq_some_getLast present,
        Option.some_or, Option.any_some, parted]
  · cases back with
    | nil => rfl
    | cons token back =>
        obtain ⟨_, present, parted⟩ := next token rfl
        rw [isName.allWord _ (List.getLast_mem _), Bool.true_and] at parted
        rw [EndsWord, List.flatten_cons, List.head?_append,
          List.head?_eq_some_head present, Option.some_or, Option.any_some,
          parted]

/-! ## Uses of a name -/

/-- The tokens around a use of the name in a source: a token that is the name,
with no dot right before it. -/
structure IsUseBetween
    (name source : List Char)
    (front back : List (List Char)) : Prop where
  divided : tokens source = front ++ name :: back
  free : front.getLast? ≠ some ['.']

section Uses

variable {name : List Char}

theorem standsAt_append_iff
    (isName : IsName name)
    (previous : Option Char)
    (after : List Char) :
    standsAt name previous (name ++ after) = some after ↔
      previous.any attaches = false ∧ EndsWord after := by
  constructor
  · intro stands
    refine ⟨free_of_standsAt stands, ?_⟩
    rw [standsAt_eq_token isName] at stands
    split at stands
    · contradiction
    · split at stands
      · rw [← Option.some.inj stands]
        exact endsWord_dropWhile _
      · contradiction
  · rintro ⟨free, ends⟩
    exact standsAt_of_endsWord isName.endsInWord free ends

/-- A character does not attach if it is neither of a word nor a dot. -/
theorem any_attaches_eq_false_iff (previous : Option Char) :
    previous.any attaches = false ↔
      previous.any isWord = false ∧ previous ≠ some '.' := by
  cases previous with
  | none => simp
  | some c => simp [attaches]

theorem getLast?_tokens_ne_dot_iff (text : List Char) :
    (tokens text).getLast? ≠ some ['.'] ↔ text.getLast? ≠ some '.' := by
  have noWord : isWord '.' = false := by decide +kernel
  refine not_congr ⟨fun last => ?_, getLast?_tokens noWord⟩
  rw [getLast?_of_getLast?_tokens last]
  rfl

/-- The uses of a name are the places where it stands alone. -/
theorem isUseBetween_iff
    (isName : IsName name)
    {source : List Char}
    {front back : List (List Char)} :
    IsUseBetween name source front back ↔
      ∃ before after, source = before ++ (name ++ after) ∧
        standsAt name before.getLast? (name ++ after) = some after ∧
        front = tokens before ∧ back = tokens after := by
  constructor
  · rintro ⟨divided, free⟩
    have ahead : front <:+: tokens source := ⟨[], name :: back, divided.symm⟩
    have behind : back <:+: tokens source :=
      ⟨front ++ [name], [], by simp [divided]⟩
    have whole := flatten_tokens source
    rw [divided, List.flatten_append, List.flatten_cons] at whole
    refine ⟨front.flatten, back.flatten, whole.symm, ?_,
      (tokens_flatten ahead).symm, (tokens_flatten behind).symm⟩
    obtain ⟨begins, ends⟩ := isName.bounds_of_tokens divided
    rw [standsAt_append_iff isName, any_attaches_eq_false_iff]
    refine ⟨⟨begins, ?_⟩, ends⟩
    rwa [← getLast?_tokens_ne_dot_iff, tokens_flatten ahead]
  · rintro ⟨before, after, rfl, stands, rfl, rfl⟩
    obtain ⟨free, ends⟩ := (standsAt_append_iff isName _ _).mp stands
    obtain ⟨noWord, noDot⟩ := (any_attaches_eq_false_iff _).mp free
    exact ⟨isName.tokens_between noWord ends,
      (getLast?_tokens_ne_dot_iff before).mpr noDot⟩

end Uses

/-! ## Searches behind a name -/

/-- What is taken behind a name and what the whole is replaced by, from the text
behind the name. -/
abbrev Next :=
  List Char → Option (List Char × List Char)

/-- Find a name that stands alone, with what is taken behind it. -/
def searchBehind (name : List Char) (next : Next) : Search :=
  fun before text =>
    match standsAt name before text with
    | none => none
    | some rest =>
        (next rest).map fun found => ⟨(name ++ found.1).length, found.2⟩

/-- A use of the name as a site.  What is taken behind it and what the whole is
replaced by are told from the tokens behind it. -/
def useSite
    (name : List Char)
    (follows : List (List Char) → List Char → List Char → Prop) : Site :=
  fun before stretch after replacement =>
    ∃ front back taken,
      IsUseBetween name (before ++ (stretch ++ after)) front back ∧
      front.flatten = before ∧ stretch = name ++ taken ∧
      follows back taken replacement

/-- What is taken behind a name is the beginning of what stands there.  No token
but a member starts in it. -/
structure Next.IsPassive (next : Next) : Prop where
  isPrefix : ∀ {rest taken replacement},
    next rest = some (taken, replacement) → taken <+: rest
  passive : ∀ {rest taken replacement},
    next rest = some (taken, replacement) →
      (∀ c ∈ taken, attaches c = true) ∨ ∀ c ∈ taken, isWord c = false

section Behind

variable {name : List Char} {next : Next}

theorem exists_of_searchBehind
    (passive : next.IsPassive)
    {before : Option Char}
    {text : List Char}
    {occurrence : Occurrence}
    (finding : searchBehind name next before text = some occurrence) :
    ∃ taken rest, text = name ++ taken ++ rest ∧
      occurrence.length = (name ++ taken).length ∧
      standsAt name before text = some (taken ++ rest) ∧
      next (taken ++ rest) = some (taken, occurrence.replacement) := by
  rw [searchBehind] at finding
  split at finding
  · contradiction
  · next rest stands =>
      obtain ⟨⟨taken, written⟩, found, rfl⟩ :=
        Option.map_eq_some_iff.mp finding
      obtain ⟨behind, rfl⟩ := passive.isPrefix found
      refine ⟨taken, behind, ?_, rfl, stands, found⟩
      rw [eq_append_of_standsAt stands, List.append_assoc]

/-- A search behind a name finds the name and what is taken behind it. -/
theorem searchBehind_finds_iff
    (passive : next.IsPassive)
    {before stretch after replacement : List Char} :
    (searchBehind name next).finds before stretch after replacement ↔
      ∃ taken, stretch = name ++ taken ∧
        standsAt name before.getLast? (name ++ (taken ++ after)) =
          some (taken ++ after) ∧
        next (taken ++ after) = some (taken, replacement) := by
  constructor
  · intro finds
    obtain ⟨taken, rest, divided, length, stands, found⟩ :=
      exists_of_searchBehind passive finds
    obtain ⟨rfl, rfl⟩ := List.append_inj divided length
    rw [List.append_assoc] at stands
    exact ⟨taken, rfl, stands, found⟩
  · rintro ⟨taken, rfl, stands, found⟩
    rw [Search.finds, searchBehind, List.append_assoc, stands]
    dsimp only
    rw [found]
    rfl

/-- The sites are what the search finds. -/
theorem useSite_iff_finds
    (isName : IsName name)
    (passive : next.IsPassive)
    {follows : List (List Char) → List Char → List Char → Prop}
    (agree : ∀ rest taken replacement, follows (tokens rest) taken replacement ↔
      next rest = some (taken, replacement))
    {before stretch after replacement : List Char} :
    useSite name follows before stretch after replacement ↔
      (searchBehind name next).finds before stretch after replacement := by
  rw [searchBehind_finds_iff passive]
  constructor
  · rintro ⟨front, back, taken, isUse, rfl, rfl, next⟩
    obtain ⟨before, rest, divided, stands, rfl, rfl⟩ :=
      (isUseBetween_iff isName).mp isUse
    rw [flatten_tokens, List.append_assoc, List.append_cancel_left_eq,
      List.append_cancel_left_eq] at divided
    obtain rfl := divided
    rw [flatten_tokens]
    exact ⟨taken, rfl, stands, (agree _ _ _).mp next⟩
  · rintro ⟨taken, rfl, stands, found⟩
    refine ⟨tokens before, tokens (taken ++ after), taken, ?_,
      flatten_tokens before, rfl, (agree _ _ _).mpr found⟩
    rw [isUseBetween_iff isName, List.append_assoc]
    exact ⟨before, taken ++ after, rfl, stands, rfl, rfl⟩

/-- Inside of what is taken, every place follows a word or a dot, or no word
starts there. -/
theorem Next.IsPassive.inside
    (passive : next.IsPassive)
    (isName : IsName name)
    {rest taken replacement : List Char}
    (found : next rest = some (taken, replacement))
    {front back : List Char}
    {c : Char}
    (divided : name ++ taken = front ++ c :: back)
    (present : front ≠ []) :
    front.getLast?.any attaches = true ∨ isWord c = false := by
  rw [List.getLast?_eq_some_getLast present, Option.any_some]
  have member : front.getLast present ∈ name ++ taken := by
    rw [divided]
    exact List.mem_append_left _ (List.getLast_mem present)
  rcases passive.passive found with attached | noWord
  · rcases List.mem_append.mp member with inName | inTaken
    · exact Or.inl (isName.allAttach _ inName)
    · exact Or.inl (attached _ inTaken)
  · rcases List.append_eq_append_iff.mp divided with
      ⟨between, rfl, rfl⟩ | ⟨between, rfl, behind⟩
    · exact Or.inr (noWord c (by simp))
    · refine Or.inl (isName.allAttach _ ?_)
      exact List.mem_append_left _ (List.getLast_mem present)

theorem isSeparate_searchBehind
    (isName : IsName name)
    (passive : next.IsPassive) :
    (searchBehind name next).IsSeparate := by
  have tokenwise : IsTokenwise (searchBehind name next) :=
    isTokenwise_of_standsAt isName fun before text absent => by
      rw [searchBehind, absent]
  refine ⟨?bounded, ?present, ?apart⟩
  case bounded =>
    intro before text occurrence finding
    obtain ⟨taken, rest, rfl, length, -⟩ := exists_of_searchBehind passive finding
    rw [length]
    exact (List.prefix_append _ rest).length_le
  case present =>
    intro before text replacement finding
    obtain ⟨taken, rest, -, length, -⟩ := exists_of_searchBehind passive finding
    have nothing := List.length_eq_zero_iff.mp length.symm
    exact isName.nonempty (List.append_eq_nil_iff.mp nothing).1
  case apart =>
    intro before front c back rest replacement finding present
    obtain ⟨taken, behind, divided, length, -, found⟩ :=
      exists_of_searchBehind passive finding
    obtain ⟨same, rfl⟩ := List.append_inj divided length
    rcases passive.inside isName found same.symm present with attached | noWord
    · exact tokenwise.detached _ _ attached
    · exact tokenwise.silent _ _ _ noWord

/-- Replacing what a search behind a name finds replaces exactly the sites. -/
theorem replacesExactly_iff
    {search : Search}
    (isName : IsName name)
    (passive : next.IsPassive)
    (behind : search = searchBehind name next)
    {follows : List (List Char) → List Char → List Char → Prop}
    (agree : ∀ rest taken replacement, follows (tokens rest) taken replacement ↔
      next rest = some (taken, replacement))
    (source result : List Char) :
    ReplacesExactly (useSite name follows) source result ↔
      result = replaceAll search source := by
  have replaces : ReplacesExactly (useSite name follows) source
      (replaceAll search source) := by
    rw [behind]
    refine (replacesExactly_replaceAll
      (isSeparate_searchBehind isName passive) source).congr ?_
    intro before stretch after replacement _
    exact (useSite_iff_finds isName passive agree).symm
  constructor
  · refine fun replaces' => replaces'.unique ?_ replaces
    rintro before after replacement ⟨front, back, taken, -, -, nothing, -⟩
    exact isName.nonempty (List.append_eq_nil_iff.mp nothing.symm).1
  · rintro rfl
    exact replaces

end Behind

/-! ## Templates -/

namespace Template

theorem symbols_of_not_mem
    {template : List Char}
    (plain : '\\' ∉ template) :
    symbols template = (template.map .plain, false) := by
  induction template with
  | nil => rfl
  | cons c cs inductionHypothesis =>
      rw [List.mem_cons, not_or] at plain
      rw [symbols, inductionHypothesis plain.2]
      · rfl
      · rintro rfl
        exact absurd rfl plain.1
      · rintro d ds rfl
        exact absurd rfl plain.1

theorem readParts_plain
    (template : List Char)
    (position : Nat) :
    readParts (template.length + 1) ⟨template.map .plain, position, false⟩ =
      .ok (template.map .literal) := by
  induction template generalizing position with
  | nil => rfl
  | cons c cs inductionHypothesis =>
      have taken : Reader.take ⟨(c :: cs).map .plain, position, false⟩ =
          .ok (some (.plain c), ⟨cs.map .plain, position + 1, false⟩) := by
        simp [Reader.take, Symbol.width]
      rw [List.length_cons, readParts, taken]
      change (readParts (cs.length + 1) _ >>= _) = _
      rw [inductionHypothesis]
      rfl

/-- A template without a backslash stands for itself. -/
theorem parse_of_not_mem
    {template : List Char}
    (plain : '\\' ∉ template) :
    parse template = .ok (template.map .literal) := by
  have read := readParts_plain template 0
  simp [parse, symbols_of_not_mem plain, read]

end Template

/-! ## The three renamings -/

/-- The text starts with the sign of a plain assignment: blanks, an equals sign
that is not doubled, and all spaces and tabs behind it. -/
def StartsWithSign (sign text : List Char) : Prop :=
  ∃ between spaces value, text = between ++ '=' :: (spaces ++ value) ∧
    sign = between ++ '=' :: spaces ∧
    (∀ c ∈ between, isBlank c = true) ∧
    (∀ c ∈ spaces, isSpaceOrTab c = true) ∧
    value.head?.any isSpaceOrTab = false ∧
    (spaces ++ value).head? ≠ some '='

/-- The member that the tokens behind a name select: a dot, then a token that
starts with a letter of ASCII or an underscore. -/
def selected : List (List Char) → Option (List Char)
  | ['.'] :: member :: _ =>
      if member.head?.any isNameStart then some member else none
  | _ => none

/-- A use of the coordinate becomes the built-in. -/
def coordinateSite (dialect : Dialect) : Site :=
  useSite dialect.fragCoord.toList fun _ taken replacement =>
    taken = [] ∧ replacement = dialect.fragCoordBuiltin.toList

/-- A use of the colour that is assigned to becomes an assignment to the
output variable, together with the sign. -/
def outputSite (dialect : Dialect) : Site :=
  useSite dialect.fragColor.toList fun back taken replacement =>
    StartsWithSign taken back.flatten ∧
      replacement = dialect.output.name.toList ++ [' ', '=', ' ']

/-- A use of an alias is resolved, together with the member that it selects. -/
def aliasSite (name value : List Char) : Site :=
  useSite name fun back taken replacement =>
    match selected back with
    | none => taken = [] ∧ replacement = value
    | some member =>
        taken = '.' :: member ∧ replacement = resolveMember value member

/-! ### Uses of the coordinate -/

theorem useOf_eq_searchBehind (name written : List Char) :
    useOf name (written.map .literal) =
      searchBehind name fun _ => some ([], written) := by
  funext before text
  rw [useOf, searchBehind]
  cases standsAt name before text with
  | none => rfl
  | some rest => simp [Template.expand_literals]

theorem isPassive_useOf (written : List Char) :
    Next.IsPassive fun _ => some ([], written) where
  isPrefix := by
    rintro rest taken replacement found
    obtain ⟨rfl, -⟩ := Prod.mk.inj (Option.some.inj found)
    exact List.nil_prefix
  passive := by
    rintro rest taken replacement found
    obtain ⟨rfl, -⟩ := Prod.mk.inj (Option.some.inj found)
    simp

/-! ### Assignments to the colour -/

/-- A sign is taken exactly if the text starts with it. -/
theorem exists_takeAssignment_iff {rest sign : List Char} :
    (∃ value, takeAssignment rest = some (sign, value)) ↔
      StartsWithSign sign rest := by
  simp only [takeAssignment, Option.map_eq_some_iff, Prod.mk.injEq]
  constructor
  · rintro ⟨_, value, found, rfl, rfl⟩
    obtain ⟨equals, single⟩ := (behindEquals_eq_some_iff _ _).mp found
    refine ⟨rest.takeWhile isBlank, value.takeWhile isSpaceOrTab,
      value.dropWhile isSpaceOrTab, ?_, rfl,
      fun c member => List.mem_takeWhile_imp member,
      fun c member => List.mem_takeWhile_imp member, ?_, ?_⟩
    · rw [List.takeWhile_append_dropWhile, ← equals,
        List.takeWhile_append_dropWhile]
    · have stopped := List.head?_dropWhile_not isSpaceOrTab value
      cases first : (value.dropWhile isSpaceOrTab).head? with
      | none => rfl
      | some c => simpa [first] using stopped
    · rwa [List.takeWhile_append_dropWhile]
  · rintro ⟨between, spaces, value, rfl, rfl, blank, spaced, stops, single⟩
    have noBlank : isBlank '=' = false := by decide
    have ahead : (between ++ '=' :: (spaces ++ value)).takeWhile isBlank =
        between := by
      rw [List.takeWhile_append_of_pos blank]
      simp [noBlank]
    have behind : (between ++ '=' :: (spaces ++ value)).dropWhile isBlank =
        '=' :: (spaces ++ value) := by
      rw [List.dropWhile_append_of_pos blank]
      simp [noBlank]
    have padding : (spaces ++ value).takeWhile isSpaceOrTab = spaces := by
      rw [List.takeWhile_append_of_pos spaced]
      cases value with
      | nil => simp
      | cons c cs => simpa using stops
    refine ⟨_, spaces ++ value, ?_, ?_, rfl⟩
    · rw [behind, behindEquals_eq_some_iff]
      exact ⟨rfl, single⟩
    · rw [ahead, padding]

/-- What is taken behind a name that is assigned to, and what the whole is
replaced by. -/
def assignmentNext (written : List Char) : Next :=
  fun rest => (takeAssignment rest).map fun assigned => (assigned.1, written)

theorem assignmentTo_eq_searchBehind (name written : List Char) :
    assignmentTo name (written.map .literal) =
      searchBehind name (assignmentNext written) := by
  funext before text
  cases stands : standsAt name before text with
  | none => simp [assignmentTo, searchBehind, stands]
  | some rest =>
      rw [assignmentTo_of_standsAt stands, searchBehind, stands]
      simp [assignmentNext, Template.expand_literals, Function.comp_def]

theorem assignmentNext_eq_some_iff
    {written rest taken replacement : List Char} :
    assignmentNext written rest = some (taken, replacement) ↔
      StartsWithSign taken rest ∧ replacement = written := by
  rw [assignmentNext, Option.map_eq_some_iff, ← exists_takeAssignment_iff]
  constructor
  · rintro ⟨⟨sign, value⟩, assigned, equal⟩
    obtain ⟨rfl, rfl⟩ := Prod.mk.inj equal
    exact ⟨⟨value, assigned⟩, rfl⟩
  · rintro ⟨⟨value, assigned⟩, rfl⟩
    exact ⟨_, assigned, rfl⟩

theorem isPassive_assignmentNext (written : List Char) :
    (assignmentNext written).IsPassive where
  isPrefix := by
    intro rest taken replacement found
    obtain ⟨⟨between, spaces, value, rfl, rfl, -⟩, -⟩ :=
      assignmentNext_eq_some_iff.mp found
    exact ⟨value, by simp⟩
  passive := by
    intro rest taken replacement found
    obtain ⟨⟨between, spaces, value, -, rfl, blank, spaced, -⟩, -⟩ :=
      assignmentNext_eq_some_iff.mp found
    have equals : isWord '=' = false := by decide +kernel
    right
    intro c member
    rw [List.mem_append, List.mem_cons] at member
    rcases member with isBlank | rfl | isSpace
    · exact isWord_of_isBlank (blank c isBlank)
    · exact equals
    · have free := attaches_of_isSpaceOrTab (spaced c isSpace)
      rw [attaches, Bool.or_eq_false_iff] at free
      exact free.1

/-! ### Uses of an alias -/

/-- What is taken behind an alias and what the whole is replaced by. -/
def memberNext (value : List Char) : Next :=
  fun rest =>
    match takeMember rest with
    | none => some ([], value)
    | some found => some ('.' :: found.1, resolveMember value found.1)

theorem aliasUse_eq_searchBehind (name value : List Char) :
    aliasUse name value = searchBehind name (memberNext value) := by
  funext before text
  rw [aliasUse, searchBehind]
  cases standsAt name before text with
  | none => rfl
  | some rest =>
      dsimp only
      split
      · contradiction
      · next behind equal =>
          obtain rfl := Option.some.inj equal
          have same : takeMember ('.' :: behind) = Define.takeName behind := rfl
          rw [memberNext, same]
          cases Define.takeName behind with
          | none => simp
          | some found => simp; omega
      · next noDot equal =>
          obtain rfl := Option.some.inj equal
          have none : takeMember rest = none := by
            rw [takeMember]
            exact noDot
          simp [memberNext, none]

/-- The tokens behind a name select what the text behind it selects. -/
theorem selected_tokens (rest : List Char) :
    selected (tokens rest) = (takeMember rest).map Prod.fst := by
  have noWord : isWord '.' = false := by decide +kernel
  cases found : takeMember rest with
  | some taken =>
      obtain ⟨member, behind⟩ := taken
      obtain ⟨rfl, isMember, ends⟩ := exists_of_takeMember found
      obtain ⟨c, cs, rfl, start⟩ := isMember.starts
      rw [tokens_cons noWord, tokens_append (Or.inr ends), isMember.tokens_eq]
      simp [selected, start]
  | none =>
      have noStart := (takeMember_eq_none_iff rest).mp found
      cases rest with
      | nil => rfl
      | cons c cs =>
          by_cases dot : c = '.'
          · subst dot
            rw [tokens_cons noWord]
            cases cs with
            | nil => rfl
            | cons d ds =>
                obtain ⟨more, others, cut⟩ := exists_tokens_cons d ds
                rw [cut]
                simp [selected, noStart d ds rfl]
          · obtain ⟨more, others, cut⟩ := exists_tokens_cons c cs
            rw [cut, selected]
            · rfl
            · rintro member behind equal
              simp_all

theorem isPassive_memberNext (value : List Char) :
    (memberNext value).IsPassive where
  isPrefix := by
    intro rest taken replacement found
    rw [memberNext] at found
    split at found
    · obtain ⟨rfl, -⟩ := Prod.mk.inj (Option.some.inj found)
      exact List.nil_prefix
    · next selection selects =>
        obtain ⟨rfl, -⟩ := Prod.mk.inj (Option.some.inj found)
        obtain ⟨rfl, -⟩ := exists_of_takeMember selects
        exact ⟨selection.2, rfl⟩
  passive := by
    intro rest taken replacement found
    rw [memberNext] at found
    left
    split at found
    · obtain ⟨rfl, -⟩ := Prod.mk.inj (Option.some.inj found)
      simp
    · next selection selects =>
        obtain ⟨rfl, -⟩ := Prod.mk.inj (Option.some.inj found)
        obtain ⟨-, isMember, -⟩ := exists_of_takeMember selects
        rw [List.forall_mem_cons]
        exact ⟨attaches_dot, isMember.allAttach⟩

theorem memberNext_eq_some_iff
    {value rest taken replacement : List Char} :
    memberNext value rest = some (taken, replacement) ↔
      match selected (tokens rest) with
      | none => taken = [] ∧ replacement = value
      | some member =>
          taken = '.' :: member ∧ replacement = resolveMember value member := by
  rw [memberNext, selected_tokens]
  cases takeMember rest with
  | none => simp [eq_comm]
  | some found => simp [eq_comm]

/-! ## Main statement -/

theorem renameFragCoord_of_not_mem
    {dialect : Dialect}
    (plain : '\\' ∉ dialect.fragCoordBuiltin.toList)
    (source : List Char) :
    renameFragCoord dialect source =
      .ok (replaceAll (useOf dialect.fragCoord.toList
        (dialect.fragCoordBuiltin.toList.map .literal)) source) := by
  rw [renameFragCoord, Template.parse_of_not_mem plain]
  rfl

theorem renameOutput_of_not_mem
    {dialect : Dialect}
    (plain : '\\' ∉ dialect.output.name.toList)
    (source : List Char) :
    renameOutput dialect source =
      .ok (replaceAll (assignmentTo dialect.fragColor.toList
        ((outputTemplate dialect).map .literal)) source) := by
  have plainTemplate : '\\' ∉ outputTemplate dialect := by
    simp [outputTemplate, plain]
  rw [renameOutput, Template.parse_of_not_mem plainTemplate]
  rfl

/-- Renaming is exact.  With names of word characters and replacements without a
backslash, the coordinate is renamed exactly where it is used, the colour exactly
where it is assigned to, and an alias is resolved exactly where it is used with
the member that it selects.  Every other character stays, in order, and there is
no other text of which this holds. -/
theorem renaming_replaces_uses
    {dialect : Dialect}
    (isColour : IsName dialect.fragColor.toList)
    (isCoordinate : IsName dialect.fragCoord.toList)
    (plainOutput : '\\' ∉ dialect.output.name.toList)
    (plainBuiltin : '\\' ∉ dialect.fragCoordBuiltin.toList)
    (source : List Char) :
    (∃ renamed, renameFragCoord dialect source = .ok renamed ∧
      ∀ result, ReplacesExactly (coordinateSite dialect) source result ↔
        result = renamed) ∧
    (∃ renamed, renameOutput dialect source = .ok renamed ∧
      ∀ result, ReplacesExactly (outputSite dialect) source result ↔
        result = renamed) ∧
    ∀ name value, IsName name →
      ∀ result, ReplacesExactly (aliasSite name value) source result ↔
        result = substituteAlias source name value := by
  refine ⟨⟨_, renameFragCoord_of_not_mem plainBuiltin source, ?uses⟩,
    ⟨_, renameOutput_of_not_mem plainOutput source, ?assignments⟩, ?aliases⟩
  case uses =>
    refine replacesExactly_iff isCoordinate (isPassive_useOf _)
      (useOf_eq_searchBehind _ _) ?_ source
    simp [eq_comm]
  case assignments =>
    refine replacesExactly_iff isColour (isPassive_assignmentNext _)
      (assignmentTo_eq_searchBehind _ _) ?_ source
    intro rest taken replacement
    rw [flatten_tokens, assignmentNext_eq_some_iff]
    rfl
  case aliases =>
    intro name value isName
    refine replacesExactly_iff isName (isPassive_memberNext value)
      (aliasUse_eq_searchBehind name value) ?_ source
    intro rest taken replacement
    exact memberNext_eq_some_iff.symm

/-- An assignment over two lines, with a member that has the colour's name. -/
def mixedUses : List Char :=
  "fragColor\n= s.fragColor * fragCoord.x * res.x;".toList

theorem renaming_replaces_uses_mixedUses :
    (IsName Dialect.builtin.fragColor.toList ∧
      IsName Dialect.builtin.fragCoord.toList ∧
      '\\' ∉ Dialect.builtin.output.name.toList ∧
      '\\' ∉ Dialect.builtin.fragCoordBuiltin.toList ∧ IsName "res".toList) ∧
    ReplacesExactly (coordinateSite .builtin) mixedUses
      "fragColor\n= s.fragColor * gl_FragCoord.x * res.x;".toList ∧
    ReplacesExactly (outputSite .builtin) mixedUses
      "out_color = s.fragColor * fragCoord.x * res.x;".toList ∧
    ReplacesExactly (aliasSite "res".toList "iResolution.xy".toList) mixedUses
      "fragColor\n= s.fragColor * fragCoord.x * iResolution.x;".toList := by
  have isColour : IsName Dialect.builtin.fragColor.toList := by decide +kernel
  have isCoordinate : IsName Dialect.builtin.fragCoord.toList := by
    decide +kernel
  have plainOutput : '\\' ∉ Dialect.builtin.output.name.toList := by
    decide +kernel
  have plainBuiltin : '\\' ∉ Dialect.builtin.fragCoordBuiltin.toList := by
    decide +kernel
  have isAlias : IsName "res".toList := by decide +kernel
  refine ⟨⟨isColour, isCoordinate, plainOutput, plainBuiltin, isAlias⟩, ?_⟩
  obtain ⟨⟨used, usedHere, uses⟩, ⟨assigned, assignedHere, assignments⟩,
    aliases⟩ := renaming_replaces_uses isColour isCoordinate plainOutput
      plainBuiltin mixedUses
  refine ⟨(uses _).mpr ?_, (assignments _).mpr ?_,
    (aliases _ _ isAlias _).mpr ?_⟩
  · refine Except.ok.inj (Eq.trans ?_ usedHere)
    decide +kernel
  · refine Except.ok.inj (Eq.trans ?_ assignedHere)
    decide +kernel
  · decide +kernel

end Shader
end ShaderLift
