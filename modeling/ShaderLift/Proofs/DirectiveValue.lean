import ShaderLift.Proofs.CommentLayout
import ShaderLift.Proofs.DirectiveLines

/-!
# What a recorded directive stands for

Behind the value of a recorded directive there is padding, a `//` comment, or a
text between two comment marks.  Without its comments the directive is the value
alone, unless the first block comment behind the value ends early and hides what
stands between it and the last end mark.
-/

namespace ShaderLift
namespace Shader
namespace Define

open Text Name

/-- The source has the directive, which is recorded as this definition. -/
def Records (source directive : List Char) (define : Define) : Prop :=
  directive ∈ directives source ∧ ofDirective? directive = some define

/-- What a directive has behind the name that it defines. -/
def HasReplacement (directive name text : List Char) : Prop :=
  ∃ indent gap, directive = indent ++ keyword ++ (gap ++ (name ++ text)) ∧
    IsIndent indent ∧ IsIndent gap ∧ gap ≠ [] ∧ EndsWord text

/-- Without its comments, the text is the value and blanks. -/
def StandsFor (text value : List Char) : Prop :=
  ∃ before after, uncomment .code text = before ++ value ++ after ∧
    (∀ c ∈ before, isBlank c = true) ∧ ∀ c ∈ after, isBlank c = true

/-- A block comment follows the value, and behind its end there is more than
blanks and comments. -/
def HidesText (text value : List Char) : Prop :=
  ∃ gap between inner behind,
    text = gap ++ value ++ between ++ '/' :: '*' :: (inner ++ '*' :: '/' :: behind) ∧
    (∀ c ∈ gap, isBlank c = true) ∧ (∀ c ∈ between, isBlank c = true) ∧
    ¬ ['*', '/'] <:+: inner ∧ visible (uncomment .code behind) ≠ []

/-! ## Block comments -/

/-- A block comment reaches to the first end mark. -/
theorem uncomment_block_end
    {inner : List Char}
    (unclosed : ¬ ['*', '/'] <:+: inner)
    (behind : List Char) :
    uncomment .block (inner ++ '*' :: '/' :: behind) = uncomment .code behind := by
  induction inner with
  | nil => rw [List.nil_append, uncomment]
  | cons c cs inductionHypothesis =>
      have stays : c = '*' → (cs ++ '*' :: '/' :: behind).head? ≠ some '/' := by
        rintro rfl first
        cases cs with
        | nil => simp at first
        | cons d ds =>
            obtain rfl : d = '/' := by simpa using first
            exact unclosed ⟨[], ds, rfl⟩
      rw [List.cons_append, uncomment_block_cons stays]
      exact inductionHypothesis fun ended =>
        unclosed (ended.trans (List.suffix_cons c cs).isInfix)

theorem exists_first_end
    {text : List Char}
    (ended : ['*', '/'] <:+: text) :
    ∃ inner behind, text = inner ++ '*' :: '/' :: behind ∧
      ¬ ['*', '/'] <:+: inner := by
  induction text with
  | nil => simp at ended
  | cons c cs inductionHypothesis =>
      by_cases here : ['*', '/'] <+: c :: cs
      · obtain ⟨behind, start⟩ := here
        exact ⟨[], behind, start.symm, by simp⟩
      · have later := (List.infix_cons_iff.mp ended).resolve_left here
        obtain ⟨inner, behind, rfl, unclosed⟩ := inductionHypothesis later
        refine ⟨c :: inner, behind, rfl, fun closed => ?_⟩
        rcases List.infix_cons_iff.mp closed with start | inside
        · exact here (start.trans (List.prefix_append (c :: inner) _))
        · exact unclosed inside

theorem visible_of_blank
    {text : List Char}
    (blank : ∀ c ∈ text, isBlank c = true) : visible text = [] := by
  rw [visible, List.filter_eq_nil_iff]
  simpa using blank

/-- Behind a value there is nothing to see without the comments, or a block
comment. -/
theorem visible_uncomment_ending
    {tail : List Char}
    (ending : isEnding tail = true) :
    visible (uncomment .code tail) = [] ∨
      ∃ between inner behind,
        tail = between ++ '/' :: '*' :: (inner ++ '*' :: '/' :: behind) ∧
        (∀ c ∈ between, isBlank c = true) ∧ ¬ ['*', '/'] <:+: inner := by
  rw [isEnding_eq, Bool.or_eq_true, List.all_eq_true] at ending
  rcases ending with padding | closing
  · have blank := IsPadding.blank padding
    have whole := uncomment_code_blank blank []
    rw [List.append_nil, uncomment_nil, List.append_nil] at whole
    exact Or.inl (by rw [whole, visible_of_blank blank])
  · have divided := tail.takeWhile_append_dropWhile (p := isSpaceOrTab)
    have blank : ∀ c ∈ tail.takeWhile isSpaceOrTab, isBlank c = true :=
      fun c member => isBlank_of_isSpaceOrTab (List.mem_takeWhile_imp member)
    generalize tail.takeWhile isSpaceOrTab = between at divided blank
    generalize tail.dropWhile isSpaceOrTab = comment at divided closing
    subst divided
    fun_cases isClosingComment comment with
    | case1 remark =>
        have oneLine : '\n' ∉ remark := by simpa [isClosingComment] using closing
        have gone := uncomment_remark_line oneLine (Or.inl rfl)
        rw [List.append_nil, uncomment_nil] at gone
        refine Or.inl ?_
        rw [uncomment_code_blank blank, uncomment, gone, List.append_nil,
          visible_of_blank blank]
    | case2 remark =>
        rw [isClosingComment, Bool.and_eq_true, List.isSuffixOf_iff_suffix]
          at closing
        obtain ⟨dropped, whole, -⟩ :=
          exists_dropped_of_dropTrailing isPadding remark
        have ended : ['*', '/'] <:+: remark := closing.2.isInfix.trans
          ⟨[], dropped, by rw [List.nil_append, ← whole]⟩
        obtain ⟨inner, behind, rfl, unclosed⟩ := exists_first_end ended
        exact Or.inr ⟨between, inner, behind, rfl, blank, unclosed⟩
    | case3 comment noRemark noBlock =>
        rw [isClosingComment] at closing
        · contradiction
        · exact noRemark
        · exact noBlock

/-! ## Values -/

theorem exists_of_dropGap
    {text rest : List Char}
    (dropped : dropGap text = some rest) :
    ∃ gap, text = gap ++ rest ∧ IsIndent gap ∧ gap ≠ [] := by
  cases text with
  | nil => contradiction
  | cons c cs =>
      rw [dropGap] at dropped
      split at dropped
      · next space =>
          rw [← Option.some.inj dropped]
          refine ⟨c :: cs.takeWhile isSpaceOrTab, ?_, ?_, List.cons_ne_nil _ _⟩
          · rw [List.cons_append, List.takeWhile_append_dropWhile]
          · exact List.forall_mem_cons.mpr
              ⟨space, fun d member => List.mem_takeWhile_imp member⟩
      · contradiction

theorem exists_of_takeReference
    {text value rest : List Char}
    (taken : takeReference text = some (value, rest)) :
    text = value ++ rest ∧ ∀ c ∈ value, attaches c = true := by
  rw [takeReference_eq] at taken
  obtain ⟨⟨base, behind⟩, named, parted⟩ := Option.map_eq_some_iff.mp taken
  obtain ⟨rfl, -, baseWord⟩ := exists_of_takeName named
  rw [withMember] at parted
  split at parted
  · obtain ⟨rfl, rfl⟩ := Prod.mk.inj parted
    exact ⟨rfl, fun c member => attaches_of_isWord (baseWord c member)⟩
  · next member left selected =>
      obtain ⟨rfl, rfl⟩ := Prod.mk.inj parted
      obtain ⟨equal, isMember, -⟩ := exists_of_takeMember selected
      dsimp only at equal
      refine ⟨by simp [equal], ?_⟩
      refine List.forall_mem_append.mpr ⟨?_, List.forall_mem_cons.mpr ⟨?_, ?_⟩⟩
      · exact fun c inBase => attaches_of_isWord (baseWord c inBase)
      · exact attaches_dot
      · exact fun c inMember => attaches_of_isWord (isMember.allWord c inMember)

/-- The parts of a directive that is recorded. -/
theorem exists_of_ofDirective?
    {directive : List Char}
    {define : Define}
    (read : ofDirective? directive = some define) :
    ∃ gap tail,
      HasReplacement directive define.name.toList
        (gap ++ define.value.toList ++ tail) ∧
      IsIndent gap ∧ (∀ c ∈ define.value.toList, attaches c = true) ∧
      isEnding tail = true := by
  simp only [ofDirective?, Option.bind_eq_bind, Option.bind_eq_some_iff] at read
  obtain ⟨opened, found, text, spaced, ⟨name, rest⟩, named, reference, spaced',
    ⟨value, tail⟩, valued, ended⟩ := read
  split at ended
  · next ending =>
      rw [Option.some.injEq] at ended
      subst ended
      obtain ⟨gap, rfl, isIndent, present⟩ := exists_of_dropGap spaced
      obtain ⟨rfl, -, -⟩ := exists_of_takeName named
      obtain ⟨gap', rfl, isIndent', present'⟩ := exists_of_dropGap spaced'
      obtain ⟨rfl, attached⟩ := exists_of_takeReference valued
      rw [dropExact_eq_some_iff] at found
      refine ⟨gap', tail, ⟨directive.takeWhile isSpaceOrTab, gap, ?_, ?_, isIndent,
        present, ?_⟩, isIndent', by simpa using attached, ending⟩
      · have parted := directive.takeWhile_append_dropWhile (p := isSpaceOrTab)
        rw [found] at parted
        simpa using parted.symm
      · exact fun c member => List.mem_takeWhile_imp member
      · obtain ⟨c, cs, rfl⟩ := List.exists_cons_of_ne_nil present'
        exact isWord_of_isBlank
          (isBlank_of_isSpaceOrTab (isIndent' c List.mem_cons_self))
  · contradiction

/-- A directive has one replacement for a name. -/
theorem HasReplacement.unique
    {directive name text text' : List Char}
    (starts : StartsName name)
    (has : HasReplacement directive name text)
    (has' : HasReplacement directive name text') : text = text' := by
  have behindGap : ∀ {gap}, IsIndent gap → ∀ rest,
      (gap ++ (name ++ rest)).dropWhile isSpaceOrTab = name ++ rest := by
    intro gap isIndent rest
    obtain ⟨c, cs, rfl, start⟩ := starts
    have shown := isBlank_of_isWord (isWord_of_isNameStart start)
    have noSpace : ¬ isSpaceOrTab c = true := fun space =>
      ne_of_isBlank (isBlank_of_isSpaceOrTab space) shown rfl
    rw [List.dropWhile_append_of_pos isIndent, List.cons_append,
      List.dropWhile_cons_of_neg noSpace]
  obtain ⟨indent, gap, parted, isIndent, isGap, -⟩ := has
  obtain ⟨indent', gap', parted', isIndent', isGap', -⟩ := has'
  have same : keyword ++ (gap ++ (name ++ text)) =
      keyword ++ (gap' ++ (name ++ text')) := by
    rw [← dropWhile_indent_keyword isIndent, ← parted, parted',
      dropWhile_indent_keyword isIndent']
  have behind := congrArg (List.dropWhile isSpaceOrTab)
    (List.append_cancel_left same)
  rw [behindGap isGap, behindGap isGap'] at behind
  exact List.append_cancel_left behind

/-! ## Replacements -/

theorem visible_of_shown
    {text : List Char}
    (shown : ∀ c ∈ text, isBlank c = false) : visible text = text := by
  rw [visible, List.filter_eq_self]
  simpa using shown

section Value

variable {value : List Char} (attached : ∀ c ∈ value, attaches c = true)
include attached

theorem shown_of_attached : ∀ c ∈ value, isBlank c = false := by
  intro c member
  cases blank : isBlank c with
  | false => rfl
  | true =>
      rw [← attached c member, attaches_of_isBlank blank]

theorem not_mem_of_attached : '/' ∉ value := by
  intro member
  have free : attaches '/' = false := by decide +kernel
  rw [attached '/' member] at free
  contradiction

theorem uncomment_value
    {gap : List Char}
    (blank : ∀ c ∈ gap, isBlank c = true)
    (rest : List Char) :
    uncomment .code (gap ++ value ++ rest) =
      gap ++ value ++ uncomment .code rest := by
  rw [List.append_assoc, uncomment_code_blank blank,
    uncomment_code_append (not_mem_of_attached attached), List.append_assoc]

theorem StandsFor.visible_eq
    {text : List Char}
    (stands : StandsFor text value) :
    visible (uncomment .code text) = value := by
  obtain ⟨before, after, parted, blankBefore, blankAfter⟩ := stands
  rw [parted, List.append_assoc, visible_blank_append blankBefore, visible_append,
    visible_of_blank blankAfter, List.append_nil,
    visible_of_shown (shown_of_attached attached)]

theorem HidesText.not_standsFor
    {text : List Char}
    (hides : HidesText text value) : ¬ StandsFor text value := by
  intro stands
  have all := stands.visible_eq attached
  obtain ⟨gap, between, inner, behind, rfl, blank, blank', unclosed, more⟩ := hides
  rw [List.append_assoc, uncomment_value attached blank,
    uncomment_code_blank blank', uncomment, uncomment_block_end unclosed,
    List.append_assoc, visible_blank_append blank, visible_append,
    visible_of_shown (shown_of_attached attached), visible_blank_append blank']
    at all
  exact more (List.append_right_eq_self.mp all)

/-- A value and an ending stand for the value, unless the ending hides text. -/
theorem standsFor_or_hidesText
    {gap tail : List Char}
    (isIndent : IsIndent gap)
    (ending : isEnding tail = true) :
    StandsFor (gap ++ value ++ tail) value ∨
      HidesText (gap ++ value ++ tail) value := by
  have blank : ∀ c ∈ gap, isBlank c = true := fun c member =>
    isBlank_of_isSpaceOrTab (isIndent c member)
  by_cases nothing : visible (uncomment .code tail) = []
  · refine Or.inl ⟨gap, uncomment .code tail, uncomment_value attached blank tail,
      blank, ?_⟩
    simpa [visible] using nothing
  · -- Only a block comment can be followed by text that shows.
    obtain ⟨between, inner, behind, rfl, blank', unclosed⟩ :=
      (visible_uncomment_ending ending).resolve_left nothing
    refine Or.inr ⟨gap, between, inner, behind, by simp, blank, blank', unclosed, ?_⟩
    rwa [uncomment_code_blank blank', visible_blank_append blank', uncomment,
      uncomment_block_end unclosed] at nothing

end Value

/-- Every alias comes from a directive that is recorded, and a recorded directive
stands for its value if and only if the block comment behind the value hides no
text. -/
theorem extract_records_value (source : List Char) :
    (∀ define ∈ (extract source).value.1,
      ∃ directive, Records source directive define) ∧
    ∀ directive define, Records source directive define →
      (∃ text, HasReplacement directive define.name.toList text) ∧
      ∀ text, HasReplacement directive define.name.toList text →
        (StandsFor text define.value.toList ↔
          ¬ HidesText text define.value.toList) := by
  refine ⟨?_, fun directive define records => ?_⟩
  · exact forall_mem_extract fun directive member define read =>
      ⟨directive, member, read⟩
  · obtain ⟨gap, tail, has, isIndent, attached, ending⟩ :=
      exists_of_ofDirective? records.2
    refine ⟨⟨_, has⟩, fun text has' => ?_⟩
    obtain ⟨_, _, named⟩ := exists_takeName_of_ofDirective? records.2
    rw [has'.unique (exists_of_takeName named).2.1 has]
    constructor
    · exact fun stands hides => hides.not_standsFor attached stands
    · exact (standsFor_or_hidesText attached isIndent ending).resolve_right

/-- A value with two comments behind it, one of which has the mark of the other
kind in it. -/
def twoRemarks : List Char :=
  "  #define t\tiTime/* a // */ // b */\r".toList

theorem extract_records_value_twoRemarks :
    Records (twoRemarks ++ ['\n']) twoRemarks ⟨"t", "iTime"⟩ ∧
      HasReplacement twoRemarks "t".toList "\tiTime/* a // */ // b */\r".toList ∧
      StandsFor "\tiTime/* a // */ // b */\r".toList "iTime".toList ∧
      ¬ HidesText "\tiTime/* a // */ // b */\r".toList "iTime".toList := by
  have records : Records (twoRemarks ++ ['\n']) twoRemarks ⟨"t", "iTime"⟩ :=
    ⟨by decide +kernel, by decide +kernel⟩
  have has : HasReplacement twoRemarks "t".toList
      "\tiTime/* a // */ // b */\r".toList :=
    ⟨[' ', ' '], [' '], by decide +kernel, by simp [IsIndent, isSpaceOrTab],
      by simp [IsIndent, isSpaceOrTab], by simp, by rw [EndsWord]; decide +kernel⟩
  have stands : StandsFor "\tiTime/* a // */ // b */\r".toList "iTime".toList :=
    ⟨['\t'], [' '], by decide +kernel, List.forall_mem_singleton.mpr (by decide),
      List.forall_mem_singleton.mpr isBlank_space⟩
  exact ⟨records, has, stands,
    (((extract_records_value _).2 _ _ records).2 _ has).mp stands⟩

/-- A factor between two comments. -/
def hiddenFactor : List Char :=
  "#define SPEED iTime /* a */ * 2.0 /* b */".toList

/-- The factor is lost: the name is recorded as an alias of the value before it. -/
theorem not_standsFor_hiddenFactor :
    Records (hiddenFactor ++ ['\n']) hiddenFactor ⟨"SPEED", "iTime"⟩ ∧
      (extract (hiddenFactor ++ ['\n'])).value.1 = [⟨"SPEED", "iTime"⟩] ∧
      HasReplacement hiddenFactor "SPEED".toList
        " iTime /* a */ * 2.0 /* b */".toList ∧
      ¬ StandsFor " iTime /* a */ * 2.0 /* b */".toList "iTime".toList := by
  have hides : HidesText " iTime /* a */ * 2.0 /* b */".toList "iTime".toList :=
    ⟨[' '], [' '], " a ".toList, " * 2.0 /* b */".toList, by decide +kernel,
      List.forall_mem_singleton.mpr isBlank_space,
      List.forall_mem_singleton.mpr isBlank_space, by decide +kernel,
      by decide +kernel⟩
  have attached : ∀ c ∈ "iTime".toList, attaches c = true := by
    rw [← List.all_eq_true]
    decide +kernel
  refine ⟨⟨by decide +kernel, by decide +kernel⟩, by decide +kernel,
    ⟨[], [' '], by decide +kernel, by simp [IsIndent],
      by simp [IsIndent, isSpaceOrTab], by simp, by rw [EndsWord]; decide +kernel⟩,
    hides.not_standsFor attached⟩

end Define
end Shader
end ShaderLift
