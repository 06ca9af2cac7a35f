import ShaderLift.Proofs.Parameters
import ShaderLift.Proofs.Tokens

/-!
# Selecting a component of a swizzle

An alias for a swizzle that selects one component is resolved to a single
component of the base.  The component that is written is the one that was
named, whatever its place in the swizzle, so the code keeps its meaning exactly
if every letter of the swizzle stands at its own place.
-/

namespace ShaderLift
namespace Shader

open Text Name

/-- The components of a vector, in order. -/
def components : List Char :=
  ['x', 'y', 'z', 'w']

/-- One to four components. -/
structure IsSwizzle (swizzle : List Char) : Prop where
  nonempty : swizzle ≠ []
  length_le : swizzle.length ≤ 4
  component : ∀ c ∈ swizzle, c ∈ components

/-- The component of the base that a component of the swizzle denotes. -/
def denoted (swizzle : List Char) (component : Char) : Option Char :=
  (components.idxOf? component).bind fun place => swizzle[place]?

/-- The second text is the first one with some components of the swizzle
replaced by the components of the base that they denote. -/
inductive Collapsed (base swizzle : List Char) :
    Option Char → List Char → List Char → Prop
  | nil {previous : Option Char} : Collapsed base swizzle previous [] []
  | keep {previous : Option Char} {c : Char} {rest written : List Char}
      (tail : Collapsed base swizzle (some c) rest written) :
      Collapsed base swizzle previous (c :: rest) (c :: written)
  | collapse {previous : Option Char} {component letter : Char}
      {rest written : List Char}
      (free : previous.any attaches = false)
      (ends : EndsWord rest)
      (same : denoted swizzle component = some letter)
      (tail : Collapsed base swizzle (some component) rest written) :
      Collapsed base swizzle previous
        (base ++ '.' :: (swizzle ++ '.' :: component :: rest))
        (base ++ '.' :: letter :: written)

/-- Every letter of the swizzle denotes itself. -/
def Aligned (swizzle : List Char) : Prop :=
  ∀ c ∈ swizzle, denoted swizzle c = some c

/-- Write what an alias stands for wherever it stands alone, and nothing
else. -/
def expandAlias (source name value : List Char) : List Char :=
  replaceAll (useOf name (value.map .literal)) source

/-! ## The plain expansion -/

section Expansion

variable {name value : List Char} {before : Option Char}

/-- Behind a character that attaches, nothing is expanded at once. -/
theorem endsWord_replaceFrom_useOf
    (isName : IsName name)
    (attached : before.any attaches = true)
    {rest : List Char}
    (ends : EndsWord rest) :
    EndsWord (replaceFrom (useOf name (value.map .literal)) 0 before rest) := by
  cases rest with
  | nil => rw [replaceFrom_nil]; exact ends
  | cons c cs =>
      rw [(isTokenwise_useOf isName _).replaceFrom_pass (Or.inl attached)]
      exact ends

theorem replaceFrom_useOf_other
    (isName : IsName name)
    {token : List Char}
    (isToken : IsName token)
    (other : token ≠ name)
    {rest : List Char}
    (ends : EndsWord rest) :
    replaceFrom (useOf name (value.map .literal)) 0 before (token ++ rest) =
      token ++ replaceFrom (useOf name (value.map .literal)) 0 token.getLast?
        rest := by
  apply (isTokenwise_useOf isName _).detached.replaceFrom_token isToken
  rw [useOf, standsAt_other isName isToken other ends]

theorem replaceFrom_useOf_token
    (free : before.any attaches = false)
    (isName : IsName name)
    {rest : List Char}
    (ends : EndsWord rest) :
    replaceFrom (useOf name (value.map .literal)) 0 before (name ++ rest) =
      value ++
        replaceFrom (useOf name (value.map .literal)) 0 name.getLast? rest := by
  refine replaceFrom_found ?_ isName.nonempty
  rw [useOf, standsAt_of_endsWord isName.endsInWord free ends,
    Template.expand_literals]

end Expansion

/-! ## Collapsing -/

namespace Collapsed

variable {base swizzle : List Char}

theorem append
    (stretch : List Char)
    {previous : Option Char}
    {text written : List Char}
    (tail : Collapsed base swizzle (stretch.getLast?.or previous) text
      written) :
    Collapsed base swizzle previous (stretch ++ text) (stretch ++ written) := by
  induction stretch generalizing previous with
  | nil => exact tail
  | cons c cs inductionHypothesis =>
      rw [getLast?_cons_or] at tail
      exact .keep (inductionHypothesis tail)

/-- A text too short for a component of the swizzle stays. -/
theorem eq_of_length_lt
    {previous : Option Char}
    {text written : List Char}
    (collapsed : Collapsed base swizzle previous text written)
    (short : text.length < base.length + swizzle.length + 3) :
    written = text := by
  induction collapsed with
  | nil => rfl
  | keep _ inductionHypothesis =>
      rw [List.length_cons] at short
      rw [inductionHypothesis (by omega)]
  | collapse _ _ _ _ _ =>
      simp only [List.length_append, List.length_cons] at short
      omega

/-- A single component can only be collapsed to the one that it denotes. -/
theorem denoted_of_single
    (nonempty : swizzle ≠ [])
    {previous : Option Char}
    {component letter : Char}
    (collapsed : Collapsed base swizzle previous
      (base ++ '.' :: (swizzle ++ ['.', component])) (base ++ ['.', letter])) :
    denoted swizzle component = some letter := by
  have long := List.length_pos_iff.mpr nonempty
  generalize whole : base ++ '.' :: (swizzle ++ ['.', component]) = text
    at collapsed
  generalize short : base ++ ['.', letter] = written at collapsed
  cases collapsed with
  | nil => simp at whole
  | keep tail =>
      have textLength := congrArg List.length whole
      have writtenLength := congrArg List.length short
      simp only [List.length_append, List.length_cons, List.length_nil]
        at textLength writtenLength
      have kept := tail.eq_of_length_lt (by omega)
      rw [kept] at writtenLength
      omega
  | collapse _ _ same _ =>
      simp only [List.append_cancel_left_eq, List.cons.injEq, true_and]
        at whole short
      rw [whole.1, short.1]
      exact same

end Collapsed

theorem swizzleOf_append_dot
    {base : List Char}
    (isName : IsName base)
    (swizzle : List Char) :
    swizzleOf (base ++ '.' :: swizzle) = swizzle := by
  have noDot : ∀ c ∈ base, (c != '.') = true := fun c member => by
    simpa using ne_dot_of_isWord (isName.allWord c member)
  rw [swizzleOf, List.dropWhile_append_of_pos noDot]
  simp

/-- What a use with a member becomes, if every letter of the swizzle stands at
its own place. -/
theorem collapsed_resolveMember
    {base swizzle : List Char}
    (isBase : IsName base)
    (aligned : Aligned swizzle)
    {previous : Option Char}
    (free : previous.any attaches = false)
    {member : List Char}
    (isMember : IsName member)
    {rest written : List Char}
    (ends : EndsWord rest)
    (tail : ∀ last, last.any attaches = true →
      Collapsed base swizzle last rest written) :
    Collapsed base swizzle previous
      (base ++ '.' :: (swizzle ++ '.' :: (member ++ rest)))
      (resolveMember (base ++ '.' :: swizzle) member ++ written) := by
  have whole : Collapsed base swizzle previous
      (base ++ '.' :: (swizzle ++ '.' :: (member ++ rest)))
      ((base ++ '.' :: swizzle) ++ '.' :: member ++ written) := by
    have kept : Collapsed base swizzle previous
        ((base ++ '.' :: swizzle) ++ '.' :: member ++ rest)
        ((base ++ '.' :: swizzle) ++ '.' :: member ++ written) := by
      refine Collapsed.append _ (tail _ ?_)
      rw [isMember.getLast?_append_dot, isMember.getLast?_or]
      exact isMember.attached
    simpa using kept
  unfold resolveMember
  split
  · next component =>
      split
      · next found =>
          rw [swizzleOf_append_dot isBase, List.contains_iff_mem] at found
          have last : (some component).any attaches = true := isMember.attached
          rw [baseOf_append_dot isBase, List.append_assoc]
          exact .collapse free ends (aligned component found) (tail _ last)
      · exact whole
  · exact whole

/-- Resolving an alias collapses its plain expansion, if every letter of the
swizzle stands at its own place. -/
theorem collapsed_of_resolved
    {name base swizzle : List Char}
    (isName : IsName name)
    (isBase : IsName base)
    (isSwizzle : IsName swizzle)
    (aligned : Aligned swizzle)
    {attached : Bool}
    {text written : List Char}
    (resolved : Resolved (Meaning.only name (base ++ '.' :: swizzle)) attached
      text written)
    {before previous : Option Char}
    (behind : before.any attaches = attached)
    (shown : previous.any attaches = attached) :
    Collapsed base swizzle previous
      (replaceFrom (useOf name ((base ++ '.' :: swizzle).map .literal)) 0 before
        text) written := by
  induction resolved generalizing before previous with
  | nil => exact .nil
  | pass inside _ inductionHypothesis =>
      rw [← behind] at inside
      rw [(isTokenwise_useOf isName _).replaceFrom_pass inside]
      exact .keep (inductionHypothesis rfl rfl)
  | stay isToken ends meaningless _ inductionHypothesis =>
      have other := Meaning.ne_of_only_eq_none meaningless
      rw [replaceFrom_useOf_other isName isToken other ends]
      refine Collapsed.append _ (inductionHypothesis isToken.attached ?_)
      rw [isToken.getLast?_or]
      exact isToken.attached
  | alone _ ends meant _ _ inductionHypothesis =>
      obtain ⟨rfl, rfl⟩ := Meaning.eq_of_only_eq_some meant
      rw [replaceFrom_useOf_token behind isName ends]
      refine Collapsed.append _ (inductionHypothesis isName.attached ?_)
      rw [isSwizzle.getLast?_append_dot, isSwizzle.getLast?_or]
      exact isSwizzle.attached
  | @select token value member rest written _ isMember ends meant _
      inductionHypothesis =>
      obtain ⟨rfl, rfl⟩ := Meaning.eq_of_only_eq_some meant
      have dotted : ∀ c ∈ '.' :: member, attaches c = true :=
        List.forall_mem_cons.mpr ⟨attaches_dot, isMember.allAttach⟩
      have divided : '.' :: (member ++ rest) = ('.' :: member) ++ rest := rfl
      rw [replaceFrom_useOf_token behind isName (endsWord_dot _), divided,
        (isTokenwise_useOf isName _).detached.replaceFrom_attached dotted
          isName.attached,
        ← List.getLast?_append, isMember.getLast?_append_dot, List.append_assoc,
        List.cons_append, List.cons_append]
      exact collapsed_resolveMember isBase aligned shown isMember.toIsName
        (endsWord_replaceFrom_useOf isName isMember.attached ends)
        fun last => inductionHypothesis isMember.attached

/-! ## One component -/

theorem isMember_of_mem_components
    {c : Char}
    (member : c ∈ components) : IsMember [c] := by
  have start : isNameStart c = true := by
    simp only [components, List.mem_cons, List.not_mem_nil, or_false] at member
    rcases member with rfl | rfl | rfl | rfl <;> decide
  exact
    { nonempty := List.cons_ne_nil c []
      allWord := by simpa using isWord_of_isNameStart start
      starts := ⟨c, [], rfl, start⟩ }

theorem IsSwizzle.isName
    {swizzle : List Char}
    (isSwizzle : IsSwizzle swizzle) : IsName swizzle where
  nonempty := isSwizzle.nonempty
  allWord := fun c member =>
    (isMember_of_mem_components (isSwizzle.component c member)).allWord c
      List.mem_cons_self

section Single

variable {name base swizzle : List Char} {c : Char}

theorem expandAlias_single
    (isName : IsName name)
    (isMember : IsMember [c])
    (value : List Char) :
    expandAlias (name ++ ['.', c]) name value = value ++ ['.', c] := by
  have dotted : ∀ d ∈ ['.', c], attaches d = true :=
    List.forall_mem_cons.mpr ⟨attaches_dot, isMember.allAttach⟩
  rw [expandAlias, replaceAll, replaceFrom_useOf_token rfl isName
    (endsWord_dot [c]), ← List.append_nil ['.', c],
    (isTokenwise_useOf isName _).detached.replaceFrom_attached dotted
      isName.attached, replaceFrom_nil]

theorem substituteAlias_single
    (isName : IsName name)
    (isBase : IsName base)
    (isMember : IsMember [c])
    (found : c ∈ swizzle) :
    substituteAlias (name ++ ['.', c]) name (base ++ '.' :: swizzle) =
      base ++ ['.', c] := by
  have meant : Meaning.only name (base ++ '.' :: swizzle) name =
      some (base ++ '.' :: swizzle) := if_pos rfl
  have ends : EndsWord [] := rfl
  have selected : resolve (Meaning.only name (base ++ '.' :: swizzle))
      (name ++ ['.', c]) = resolveMember (base ++ '.' :: swizzle) [c] ++ [] :=
    resolveFrom_select rfl isName isMember ends meant
  rw [substituteAlias_eq_resolve isName, selected, List.append_nil,
    resolveMember, swizzleOf_append_dot isBase,
    if_pos (List.contains_iff_mem.mpr found), baseOf_append_dot isBase]

/-- Selecting a letter of the swizzle keeps its meaning only if the letter
stands at its own place. -/
theorem denoted_of_collapsed_single
    (isName : IsName name)
    (isBase : IsName base)
    (isSwizzle : IsSwizzle swizzle)
    (found : c ∈ swizzle)
    (collapsed : Collapsed base swizzle none
      (expandAlias (name ++ ['.', c]) name (base ++ '.' :: swizzle))
      (substituteAlias (name ++ ['.', c]) name (base ++ '.' :: swizzle))) :
    denoted swizzle c = some c := by
  have isMember := isMember_of_mem_components (isSwizzle.component c found)
  rw [expandAlias_single isName isMember,
    substituteAlias_single isName isBase isMember found, List.append_assoc,
    List.cons_append] at collapsed
  exact collapsed.denoted_of_single isSwizzle.nonempty

end Single

/-! ## Every text -/

/-- Resolving an alias for a swizzle differs from its plain expansion only where
a component is replaced by the one that it denotes, for every text exactly if
every letter of the swizzle stands at its own place. -/
theorem substituteAlias_collapsed_iff_aligned
    {name base swizzle : List Char}
    (isName : IsName name)
    (isBase : IsName base)
    (isSwizzle : IsSwizzle swizzle) :
    (∀ source, Collapsed base swizzle none
      (expandAlias source name (base ++ '.' :: swizzle))
      (substituteAlias source name (base ++ '.' :: swizzle))) ↔
    Aligned swizzle := by
  constructor
  · intro collapsed c found
    exact denoted_of_collapsed_single isName isBase isSwizzle found
      (collapsed _)
  · intro aligned source
    have isNamed := Meaning.isNamed_only isName (base ++ '.' :: swizzle)
    rw [substituteAlias_eq_resolve isName]
    exact collapsed_of_resolved isName isBase isSwizzle.isName aligned
      (resolved_resolveFrom isNamed none source) rfl rfl

/-- The accessor of the built-in dialect keeps its meaning. -/
theorem substituteAlias_collapsed_resolution :
    IsName "res".toList ∧ IsName "iResolution".toList ∧
      IsSwizzle "xy".toList ∧
      ∀ source, Collapsed "iResolution".toList "xy".toList none
        (expandAlias source "res".toList "iResolution.xy".toList)
        (substituteAlias source "res".toList "iResolution.xy".toList) := by
  have isName : IsName "res".toList := by decide +kernel
  have isBase : IsName "iResolution".toList := by decide +kernel
  have isSwizzle : IsSwizzle "xy".toList :=
    ⟨by decide, by decide, by simp [components]⟩
  have aligned : Aligned "xy".toList :=
    List.forall_mem_cons.mpr ⟨rfl, List.forall_mem_singleton.mpr rfl⟩
  exact ⟨isName, isBase, isSwizzle,
    (substituteAlias_collapsed_iff_aligned isName isBase isSwizzle).mpr aligned⟩

/-- A swizzle that swaps two components: its first component is the second of
the base, but the first is written. -/
theorem not_collapsed_swapped :
    IsName "m".toList ∧ IsName "iMouse".toList ∧ IsSwizzle "yx".toList ∧
      ¬ Collapsed "iMouse".toList "yx".toList none
        (expandAlias "m.x".toList "m".toList "iMouse.yx".toList)
        (substituteAlias "m.x".toList "m".toList "iMouse.yx".toList) := by
  have isName : IsName "m".toList := by decide +kernel
  have isBase : IsName "iMouse".toList := by decide +kernel
  have isSwizzle : IsSwizzle "yx".toList :=
    ⟨by decide, by decide, by simp [components]⟩
  refine ⟨isName, isBase, isSwizzle, fun collapsed => ?_⟩
  have same : denoted "yx".toList 'x' = some 'x' :=
    denoted_of_collapsed_single isName isBase isSwizzle (by decide) collapsed
  exact absurd same (by decide)

end Shader
end ShaderLift
