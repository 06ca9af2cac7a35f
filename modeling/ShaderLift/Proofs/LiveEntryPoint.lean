import Mathlib.Data.List.Forall2
import ShaderLift.Proofs.MarginRenaming
import ShaderLift.Proofs.PlaceLayout
import ShaderLift.Proofs.Simultaneous

/-!
# Where the entry point ends up

Conversion looks for the signature of the entry point in code and in comments
alike.  Renaming writes words for words, so what stands before the signature
keeps its comments and its directives, and the layout keeps them too.  The new
entry point is therefore in code exactly if the signature was: a signature in a
comment leaves no entry point at all.
-/

namespace ShaderLift
namespace Shader

open Text Name

/-! ## Words for words -/

/-- A word starts the stretch, and no mark of a comment and no line end is in
it. -/
structure IsStretch (text : List Char) : Prop where
  starts : text.head?.any isWord = true
  unmarked : ∀ c ∈ text, c ≠ '/' ∧ c ≠ '*' ∧ c ≠ '\n'

/-- A stretch may be written as another one if a name may still follow where one
could. -/
structure WordSwap (taken written : List Char) : Prop where
  isStretch : IsStretch taken
  isStretch' : IsStretch written
  free : taken.getLast?.any attaches = false →
    written.getLast?.any attaches = false

theorem unmarked_of_attaches
    {c : Char}
    (attached : attaches c = true) : c ≠ '/' ∧ c ≠ '*' ∧ c ≠ '\n' := by
  have marks : attaches '/' = false ∧ attaches '*' = false := by
    decide +kernel
  refine ⟨?_, ?_, ?_⟩
  · rintro rfl
    rw [marks.1] at attached
    contradiction
  · rintro rfl
    rw [marks.2] at attached
    contradiction
  · rintro rfl
    rw [attaches_newline] at attached
    contradiction

namespace IsStretch

variable {text : List Char}

theorem exists_cons (isStretch : IsStretch text) :
    ∃ c cs, text = c :: cs ∧ isWord c = true := by
  obtain ⟨c, first, word⟩ := (Option.any_eq_true _ _).mp isStretch.starts
  obtain ⟨cs, rfl⟩ := List.head?_eq_some_iff.mp first
  exact ⟨c, cs, rfl, word⟩

theorem nonempty (isStretch : IsStretch text) : text ≠ [] := by
  obtain ⟨c, cs, rfl, -⟩ := isStretch.exists_cons
  exact List.cons_ne_nil c cs

theorem oneLine (isStretch : IsStretch text) : '\n' ∉ text := fun member =>
  (isStretch.unmarked '\n' member).2.2 rfl

theorem startsUnmarked (isStretch : IsStretch text) : StartsUnmarked text := by
  obtain ⟨c, cs, rfl, -⟩ := isStretch.exists_cons
  have first := isStretch.unmarked c List.mem_cons_self
  exact ⟨by simpa using first.1, by simpa using first.2.1⟩

end IsStretch

theorem Accesses.isStretch
    {base text : List Char}
    (accesses : Accesses base text) : IsStretch text where
  starts := by
    obtain ⟨members, rfl, -⟩ := accesses.divided
    obtain ⟨c, cs, rfl⟩ := List.exists_cons_of_ne_nil accesses.isName.nonempty
    exact accesses.isName.allWord c List.mem_cons_self
  unmarked := fun c member => unmarked_of_attaches (accesses.allAttach c member)

theorem IsName.isStretch
    {name : List Char}
    (isName : IsName name) : IsStretch name :=
  (accesses_self isName).isStretch

theorem WordSwap.isNeutral
    {taken written : List Char}
    (swap : WordSwap taken written) : IsNeutral taken written where
  present := swap.isStretch.nonempty
  present' := swap.isStretch'.nonempty
  unmarked := swap.isStretch.startsUnmarked
  unmarked' := swap.isStretch'.startsUnmarked
  leads := fun region => ⟨region, fun rest =>
    ⟨regionAfter_unmarked swap.isStretch.unmarked region rest,
      regionAfter_unmarked swap.isStretch'.unmarked region rest⟩⟩

namespace Rewritten

variable {first second : List Char}

/-- A name may still follow where one could. -/
theorem free
    (rewritten : Rewritten WordSwap first second)
    {before before' : Option Char}
    (still : before.any attaches = false → before'.any attaches = false)
    (free : (first.getLast?.or before).any attaches = false) :
    (second.getLast?.or before').any attaches = false := by
  induction rewritten generalizing before before' with
  | nil => exact still free
  | keep c _ inductionHypothesis =>
      rw [getLast?_cons_or] at free ⊢
      exact inductionHypothesis id free
  | swap allowed _ inductionHypothesis =>
      rw [getLast?_append_or allowed.isStretch.nonempty] at free
      rw [getLast?_append_or allowed.isStretch'.nonempty]
      exact inductionHypothesis allowed.free free

theorem forall₂_fields_append
    {taken written : List Char}
    (oneLine : '\n' ∉ taken)
    (oneLine' : '\n' ∉ written)
    (lifts : ∀ line line', Rewritten WordSwap line line' →
      Rewritten WordSwap (taken ++ line) (written ++ line'))
    (lines : List.Forall₂ (Rewritten WordSwap) (fields '\n' first)
      (fields '\n' second)) :
    List.Forall₂ (Rewritten WordSwap) (fields '\n' (taken ++ first))
      (fields '\n' (written ++ second)) := by
  obtain ⟨line, rest, parts⟩ :=
    List.exists_cons_of_ne_nil (fields_ne_nil '\n' first)
  obtain ⟨line', rest', parts'⟩ :=
    List.exists_cons_of_ne_nil (fields_ne_nil '\n' second)
  rw [parts, parts', List.forall₂_cons] at lines
  rw [fields_append oneLine parts, fields_append oneLine' parts']
  exact .cons (lifts line line' lines.1) lines.2

/-- The lines of the texts are rewritten one by one. -/
theorem forall₂_fields (rewritten : Rewritten WordSwap first second) :
    List.Forall₂ (Rewritten WordSwap) (fields '\n' first)
      (fields '\n' second) := by
  induction rewritten with
  | nil => exact .cons .nil .nil
  | @keep first second c _ inductionHypothesis =>
      by_cases isEnd : c = '\n'
      · rw [isEnd, fields_newline, fields_newline]
        exact .cons .nil inductionHypothesis
      · have oneLine : '\n' ∉ [c] := by simpa using Ne.symm isEnd
        exact forall₂_fields_append oneLine oneLine
          (fun _ _ tail => .keep c tail) inductionHypothesis
  | swap allowed _ inductionHypothesis =>
      exact forall₂_fields_append allowed.isStretch.oneLine
        allowed.isStretch'.oneLine (fun _ _ tail => .swap allowed tail)
        inductionHypothesis

theorem isPreprocessor_eq (rewritten : Rewritten WordSwap first second) :
    isPreprocessor second = isPreprocessor first := by
  have noDirective : ∀ {text : List Char}, IsStretch text →
      ∀ rest, isPreprocessor (text ++ rest) = false := by
    intro text isStretch rest
    obtain ⟨c, cs, rfl, word⟩ := isStretch.exists_cons
    have other : c ≠ '#' := by
      rintro rfl
      have noWord : isWord '#' = false := by decide +kernel
      rw [noWord] at word
      contradiction
    simp [isPreprocessor, isBlank_of_isWord word, other]
  induction rewritten with
  | nil => rfl
  | keep c _ inductionHypothesis =>
      cases blank : isBlank c with
      | true => simpa [isPreprocessor, blank] using inductionHypothesis
      | false => simp [isPreprocessor, blank]
  | swap allowed _ _ =>
      rw [noDirective allowed.isStretch, noDirective allowed.isStretch']

theorem closesComments
    (rewritten : Rewritten WordSwap first second)
    (closes : ClosesComments first) : ClosesComments second := by
  intro isDirective
  rw [rewritten.isPreprocessor_eq] at isDirective
  rw [rewritten.regionAfter_eq fun _ _ swap => swap.isNeutral]
  exact closes isDirective

theorem forall_closesComments
    {lines lines' : List (List Char)}
    (rewritten : List.Forall₂ (Rewritten WordSwap) lines lines')
    (closes : ∀ line ∈ lines, ClosesComments line) :
    ∀ line ∈ lines', ClosesComments line := by
  induction rewritten with
  | nil => exact closes
  | cons line _ inductionHypothesis =>
      obtain ⟨first, later⟩ := List.forall_mem_cons.mp closes
      exact List.forall_mem_cons.mpr
        ⟨line.closesComments first, inductionHypothesis later⟩

end Rewritten

/-- What stands before the entry point is in the same regions, its directives
close their comments, and a name may still follow it. -/
structure Unmoved (first second : List Char) : Prop where
  region : ∀ region, regionAfter region second = regionAfter region first
  directives : (∀ line ∈ (fields '\n' first).dropLast, ClosesComments line) →
    ∀ line ∈ (fields '\n' second).dropLast, ClosesComments line
  free : first.getLast?.any attaches = false →
    second.getLast?.any attaches = false

theorem Unmoved.trans
    {first second third : List Char}
    (left : Unmoved first second)
    (right : Unmoved second third) : Unmoved first third where
  region := fun region => (right.region region).trans (left.region region)
  directives := right.directives ∘ left.directives
  free := right.free ∘ left.free

theorem Rewritten.unmoved
    {first second : List Char}
    (rewritten : Rewritten WordSwap first second) : Unmoved first second where
  region := rewritten.regionAfter_eq fun _ _ swap => swap.isNeutral
  directives := by
    have lines := rewritten.forall₂_fields
    rw [List.dropLast_eq_take, List.dropLast_eq_take, ← lines.length_eq]
    exact forall_closesComments (List.forall₂_take _ lines)
  free := fun free => by
    have still : (none : Option Char).any attaches = false →
        (none : Option Char).any attaches = false := id
    simpa using rewritten.free still (by simpa using free)

/-! ## The phrase -/

/-- The entry point of a converted shader. -/
def mainPhrase : List Char :=
  "void main()".toList

/-- The names in the entry point of a converted shader. -/
def mainNames : List (List Char) :=
  ["void".toList, "main".toList]

theorem isPhrase_mainPhrase : IsPhrase mainPhrase where
  plain := by
    have all : mainPhrase.all
        (fun c => decide (c ∉ ['/', '*', '{', '}', '\n'])) = true := by decide
    intro c member
    exact of_decide_eq_true (List.all_eq_true.mp all c member)
  starts := ⟨'v', rfl, by decide⟩
  ends := ⟨')', rfl, by decide⟩

/-- The text is the given one up to the entry point, with words written for
words. -/
def Carried (front text : List Char) : Prop :=
  ∃ front' rest, text = front' ++ (mainPhrase ++ rest) ∧ Unmoved front front'

/-- A search for whole tokens that misses the names of the entry point. -/
structure SparesMain (search : Search) : Prop extends IsTokenwise search where
  misses : ∀ token ∈ mainNames, ∀ before rest, EndsWord rest →
    search before (token ++ rest) = none

theorem isName_of_mem_mainNames : ∀ token ∈ mainNames, IsName token := by
  decide +kernel

section Walk

variable {name : List Char} {search : Search}

theorem sparesMain_of_standsAt
    (isName : IsName name)
    (other : name ∉ mainNames)
    (needs : ∀ before text, standsAt name before text = none →
      search before text = none) :
    SparesMain search where
  toIsTokenwise := isTokenwise_of_standsAt isName needs
  misses := fun token member before _ ends =>
    needs _ _ (standsAt_other isName (isName_of_mem_mainNames token member)
      (fun equal => other (equal ▸ member)) ends before)

/-- The entry point stays if its names are missed. -/
theorem SparesMain.replaceFrom_mainPhrase
    (spares : SparesMain search)
    (before : Option Char)
    (rest : List Char) :
    ∃ kept, replaceFrom search 0 before (mainPhrase ++ rest) =
      mainPhrase ++ kept := by
  have divided : mainPhrase ++ rest = "void".toList ++
      (' ' :: ("main".toList ++ ('(' :: ')' :: rest))) := rfl
  have first : "void".toList ∈ mainNames := by simp [mainNames]
  have second : "main".toList ∈ mainNames := by simp [mainNames]
  have ends : ∀ {c : Char} {behind : List Char}, isWord c = false →
      EndsWord (c :: behind) := fun noWord => noWord
  have space : isWord ' ' = false := isWord_of_isBlank isBlank_space
  have brackets : isWord '(' = false ∧ isWord ')' = false := by
    decide +kernel
  refine ⟨replaceFrom search 0 (some ')') rest, ?_⟩
  rw [divided,
    spares.detached.replaceFrom_token (isName_of_mem_mainNames _ first)
      (spares.misses _ first _ _ (ends space)),
    spares.replaceFrom_pass (Or.inr space),
    spares.detached.replaceFrom_token (isName_of_mem_mainNames _ second)
      (spares.misses _ second _ _ (ends brackets.1)),
    spares.replaceFrom_pass (Or.inr brackets.1),
    spares.replaceFrom_pass (Or.inr brackets.2)]
  rfl

/-- A run of characters that attach, and characters behind it that do not. -/
def IsUse (taken : List Char) : Prop :=
  ∃ token tail, taken = token ++ tail ∧ token ≠ [] ∧
    (∀ c ∈ token, attaches c = true) ∧ ∀ c ∈ tail, attaches c = false

theorem IsUse.nonempty
    {taken : List Char}
    (isUse : IsUse taken) : taken ≠ [] := by
  obtain ⟨token, tail, rfl, present, -⟩ := isUse
  simp [present]

/-- A use that starts before a name ends before it, if the name is free. -/
theorem IsUse.isPrefix
    {taken left behind rest : List Char}
    (isUse : IsUse taken)
    (present : left ≠ [])
    (free : left.getLast?.any attaches = false)
    {c : Char}
    (attached : attaches c = true)
    (divided : left ++ c :: rest = taken ++ behind) :
    taken <+: left := by
  obtain ⟨token, tail, rfl, -, attach, detached⟩ := isUse
  rcases List.append_eq_append_iff.mp divided with
    ⟨more, longer, equal⟩ | ⟨more, shorter, -⟩
  · cases more with
    | nil => exact ⟨[], by simpa using longer⟩
    | cons d ds =>
        obtain rfl : c = d := (List.cons.inj equal).1
        -- The name would lie in the tail, or all of what is left in the token.
        rcases List.append_eq_append_iff.mp longer with
          ⟨passed, rfl, inTail⟩ | ⟨passed, rfl, -⟩
        · have member : c ∈ tail := by simp [inTail]
          rw [detached c member] at attached
          contradiction
        · have last := attach (left.getLast present) (by simp)
          rw [List.getLast?_eq_some_getLast present, Option.any_some, last]
            at free
          contradiction
  · exact ⟨more, shorter.symm⟩

/-- A search that misses the names of the entry point keeps the entry point
where it is, if it writes words for words before it. -/
theorem SparesMain.carried_replaceAll
    (spares : SparesMain search)
    {front rest : List Char}
    (free : front.getLast?.any attaches = false)
    (finds : ∀ passed left occurrence, front = passed ++ left →
      search passed.getLast? (left ++ (mainPhrase ++ rest)) =
        some occurrence →
      ∃ taken behind, left ++ (mainPhrase ++ rest) = taken ++ behind ∧
        occurrence.length = taken.length ∧ IsUse taken ∧
        (taken <+: left → WordSwap taken occurrence.replacement)) :
    Carried front (replaceAll search (front ++ (mainPhrase ++ rest))) := by
  obtain ⟨kept, stays⟩ := spares.replaceFrom_mainPhrase
    (front.getLast?.or none) rest
  have letter : attaches 'v' = true := by decide +kernel
  have fits : ∀ passed left occurrence, front = passed ++ left → left ≠ [] →
      search (passed.getLast?.or none) (left ++ (mainPhrase ++ rest)) =
        some occurrence →
      ∃ taken behind, left = taken ++ behind ∧ taken ≠ [] ∧
        occurrence.length = taken.length ∧
        WordSwap taken occurrence.replacement := by
    rintro passed left occurrence rfl present found
    rw [Option.or_none] at found
    obtain ⟨taken, behind, divided, length, isUse, swap⟩ :=
      finds passed left occurrence rfl found
    have last : left.getLast?.any attaches = false := by
      rw [List.getLast?_append_of_ne_nil _ present] at free
      exact free
    have inside := isUse.isPrefix present last letter divided
    obtain ⟨more, rfl⟩ := id inside
    exact ⟨taken, more, rfl, isUse.nonempty, length, swap inside⟩
  obtain ⟨front', walked, rewritten⟩ := exists_rewritten_replaceFrom stays fits
  exact ⟨front', kept, walked, rewritten.unmoved⟩

/-- What a search takes is a use, and what it writes may stand there. -/
def WritesWords (search : Search) : Prop :=
  ∀ before text occurrence, search before text = some occurrence →
    ∃ taken behind, text = taken ++ behind ∧
      occurrence.length = taken.length ∧ IsUse taken ∧
      WordSwap taken occurrence.replacement

theorem Carried.replaceAll
    {front text : List Char}
    (carried : Carried front text)
    (free : front.getLast?.any attaches = false)
    (spares : SparesMain search)
    (writes : WritesWords search) :
    Carried front (Text.replaceAll search text) := by
  obtain ⟨front', rest, rfl, unmoved⟩ := carried
  have carried : Carried front'
      (Text.replaceAll search (front' ++ (mainPhrase ++ rest))) := by
    refine spares.carried_replaceAll (unmoved.free free) ?_
    intro passed left occurrence _ found
    obtain ⟨taken, behind, divided, length, isUse, swap⟩ :=
      writes _ _ occurrence found
    exact ⟨taken, behind, divided, length, isUse, fun _ => swap⟩
  obtain ⟨front'', rest', walked, again⟩ := carried
  exact ⟨front'', rest', walked, unmoved.trans again⟩

end Walk

/-! ## The three searches -/

theorem IsName.isUse {name : List Char} (isName : IsName name) : IsUse name :=
  ⟨name, [], by simp, isName.nonempty, isName.allAttach, by simp⟩

/-- Where no name may follow, any stretch may be written. -/
theorem wordSwap_of_attached
    {taken written : List Char}
    (isStretch : IsStretch taken)
    (attached : taken.getLast?.any attaches = true)
    (isStretch' : IsStretch written) : WordSwap taken written where
  isStretch := isStretch
  isStretch' := isStretch'
  free := fun free => by
    rw [attached] at free
    contradiction

theorem writesWords_useOf
    {name written : List Char}
    (isName : IsName name)
    (isStretch : IsStretch written) :
    WritesWords (useOf name (written.map .literal)) := by
  intro before text occurrence found
  unfold useOf at found
  split at found
  · contradiction
  · next rest stands =>
      obtain rfl := (Option.some.inj found).symm
      refine ⟨name, rest, eq_append_of_standsAt stands, rfl, isName.isUse, ?_⟩
      rw [Template.expand_literals]
      exact wordSwap_of_attached isName.isStretch isName.attached isStretch

theorem writesWords_aliasUse
    {name value : List Char}
    (isName : IsName name)
    (reference : IsReference value) :
    WritesWords (aliasUse name value) := by
  intro before text occurrence found
  obtain ⟨-, ⟨rest, parted, rfl⟩ |
    ⟨member, rest, parted, starts, allWord, rfl⟩⟩ := exists_of_aliasUse found
  · exact ⟨name, rest, parted, rfl, isName.isUse,
      wordSwap_of_attached isName.isStretch isName.attached
        reference.accesses.isStretch⟩
  · have isMember : IsMember member :=
      { nonempty := by obtain ⟨c, cs, rfl, -⟩ := starts; simp
        allWord := allWord
        starts := starts }
    have whole := (accesses_self isName).append isMember.toIsName
    refine ⟨name ++ '.' :: member, rest, parted, rfl,
      ⟨_, [], by simp, whole.nonempty, whole.allAttach, by simp⟩,
      wordSwap_of_attached whole.isStretch whole.attached
        (reference.accesses_resolveMember isMember).isStretch⟩

/-- Wherever the name stands alone before blanks and an equals sign, the blanks
are on one line. -/
def AssignsOnOneLine (name text : List Char) : Prop :=
  ∀ passed between rest,
    text = passed ++ (name ++ (between ++ '=' :: rest)) →
    passed.getLast?.any attaches = false →
    (∀ c ∈ between, isBlank c = true) → '\n' ∉ between

theorem assignsOnOneLine_iff (name text : List Char) :
    AssignsOnOneLine name text ↔
      ∀ index ≤ text.length, ∀ rest ∈ dropExact name (text.drop index),
        (text.take index).getLast?.any attaches = false →
        (rest.dropWhile isBlank).head? = some '=' →
        '\n' ∉ rest.takeWhile isBlank := by
  constructor
  · intro oneLine index _ rest named free assigned
    obtain ⟨value, behind⟩ := List.head?_eq_some_iff.mp assigned
    refine oneLine (text.take index) _ value ?_ free fun c member =>
      List.mem_takeWhile_imp member
    rw [← behind, List.takeWhile_append_dropWhile,
      ← (dropExact_eq_some_iff _ _ _).mp named, List.take_append_drop]
  · rintro oneLine passed between rest rfl free blank
    have equals : ¬ isBlank '=' = true := by decide
    have found := oneLine passed.length (by simp) (between ++ '=' :: rest)
      (by rw [List.drop_left]; exact (dropExact_eq_some_iff _ _ _).mpr rfl)
      (by rwa [List.take_left])
    rw [List.dropWhile_append_of_pos blank,
      List.dropWhile_cons_of_neg equals,
      List.takeWhile_append_of_pos blank, List.takeWhile_cons_of_neg equals,
      List.append_nil] at found
    exact found rfl

instance (name text : List Char) : Decidable (AssignsOnOneLine name text) :=
  decidable_of_iff' _ (assignsOnOneLine_iff name text)

theorem isStretch_assignment
    {name between spaces : List Char}
    (isName : IsName name)
    (blank : ∀ c ∈ between, isBlank c = true)
    (unbroken : '\n' ∉ between)
    (spaced : ∀ c ∈ spaces, isSpaceOrTab c = true) :
    IsStretch (name ++ (between ++ '=' :: spaces)) where
  starts := by
    obtain ⟨c, cs, rfl, word⟩ := isName.isStretch.exists_cons
    exact word
  unmarked := by
    intro c member
    simp only [List.mem_append, List.mem_cons] at member
    rcases member with inName | isBetween | rfl | isSpace
    · exact isName.isStretch.unmarked c inName
    · obtain ⟨noSlash, noStar⟩ := unmarked_of_isBlank (blank c isBetween)
      exact ⟨noSlash, noStar, fun isEnd => unbroken (isEnd ▸ isBetween)⟩
    · decide
    · have isEither := spaced c isSpace
      simp only [isSpaceOrTab, Bool.or_eq_true, beq_iff_eq] at isEither
      rcases isEither with rfl | rfl <;> decide

theorem carried_assignmentTo
    {name written : List Char}
    (isName : IsName name)
    (other : name ∉ mainNames)
    (isStretch : IsStretch written)
    (writtenFree : written.getLast?.any attaches = false)
    {front : List Char}
    (free : front.getLast?.any attaches = false)
    (oneLine : AssignsOnOneLine name front)
    (rest : List Char) :
    Carried front (replaceAll (assignmentTo name (written.map .literal))
      (front ++ (mainPhrase ++ rest))) := by
  have spares := sparesMain_of_standsAt isName other fun before text absent =>
    show assignmentTo name (written.map .literal) before text = none by
      rw [assignmentTo, absent]
  refine spares.carried_replaceAll free ?_
  rintro passed left occurrence rfl found
  obtain ⟨passedFree, between, spaces, behind, divided, blank, spaced, rfl⟩ :=
    exists_of_assignmentTo found
  have equals : attaches '=' = false := by decide +kernel
  have detached : ∀ c ∈ between ++ '=' :: spaces, attaches c = false := by
    intro c member
    rcases List.mem_append.mp member with isBetween | isBehind
    · exact attaches_of_isBlank (blank c isBetween)
    · rcases List.mem_cons.mp isBehind with rfl | isSpace
      · exact equals
      · exact attaches_of_isSpaceOrTab (spaced c isSpace)
  refine ⟨_, behind, divided, rfl,
    ⟨name, _, rfl, isName.nonempty, isName.allAttach, detached⟩, ?_⟩
  rintro ⟨more, rfl⟩
  have unbroken : '\n' ∉ between :=
    oneLine passed between (spaces ++ more) (by simp) passedFree blank
  rw [Template.expand_literals]
  exact ⟨isStretch_assignment isName blank unbroken spaced, isStretch,
    fun _ => writtenFree⟩

/-! ## Tables -/

/-- Resolving aliases keeps the entry point where it is, unless a known alias
has one of its names. -/
theorem Carried.substituteDefines
    {dialect : Dialect}
    {table : Define.Table}
    {front text : List Char}
    (carried : Carried front text)
    (free : front.getLast?.any attaches = false)
    (named : ∀ define ∈ table, IsName define.name.toList)
    (referring : ∀ value ∈ dialect.canonicalIdentifiers,
      IsReference value.toList)
    (others : ∀ define ∈ table, Known dialect define = true →
      define.name.toList ∉ mainNames) :
    Carried front (Shader.substituteDefines dialect table text).value := by
  induction table generalizing text with
  | nil => exact carried
  | cons define rest inductionHypothesis =>
      obtain ⟨isName, restNamed⟩ := List.forall_mem_cons.mp named
      obtain ⟨other, restOthers⟩ := List.forall_mem_cons.mp others
      rw [value_substituteDefines_cons]
      refine inductionHypothesis ?_ restNamed restOthers
      split
      · next known =>
          have reference := referring define.value (by simpa using known)
          exact carried.replaceAll free
            (sparesMain_of_standsAt isName (other known)
              fun before text absent => by rw [aliasUse, absent])
            (writesWords_aliasUse isName reference)
      · exact carried

end Shader

namespace Conversion

open Shader Text Name

theorem isReference_builtin :
    ∀ value ∈ Dialect.builtin.canonicalIdentifiers,
      IsReference value.toList := by
  intro value member
  have listed : value = "iTime" ∨ value = "iResolution.xy" := by
    simpa [Dialect.builtin] using member
  rcases listed with rfl | rfl
  · exact Or.inl (by decide +kernel)
  · exact Or.inr ⟨"iResolution".toList, "xy".toList, by decide +kernel,
      by decide +kernel, rfl⟩

/-- The built-in dialect renames what stands before the entry point without
moving it. -/
theorem carried_rename
    {front : List Char}
    (free : front.getLast?.any attaches = false)
    (assignments : AssignsOnOneLine "fragColor".toList front)
    {table : Define.Table}
    (named : ∀ define ∈ table, IsName define.name.toList)
    (others : ∀ define ∈ table, Known .builtin define = true →
      define.name.toList ∉ mainNames)
    (rest : List Char) :
    Carried front (renameBuiltin table (front ++ (mainPhrase ++ rest))) := by
  have isOutput : IsStretch (outputTemplate .builtin) := by
    have unmarked : (outputTemplate .builtin).all
        (fun c => c != '/' && c != '*' && c != '\n') = true := by decide
    refine ⟨by decide +kernel, fun c member => ?_⟩
    simpa [and_assoc] using List.all_eq_true.mp unmarked c member
  have isBuiltin : IsName Dialect.builtin.fragCoordBuiltin.toList := by
    decide +kernel
  have assigned : Carried front _ := carried_assignmentTo isName_colour
    (by decide) isOutput (by decide +kernel) free assignments rest
  have used := assigned.replaceAll free
    (sparesMain_of_standsAt isName_coordinate (by decide)
      fun before text absent => by rw [useOf, absent])
    (writesWords_useOf isName_coordinate isBuiltin.isStretch)
  exact used.substituteDefines free named isReference_builtin others

/-- A conversion with the built-in dialect puts `void main()` where the
signature was, in code or in a comment; it is left when comments are left out
if the signature was in code.  The signature must stand alone, no known alias
may have a name of `void main()`, and before the signature no assignment to the
colour may be broken before its equals sign and no directive may leave a block
comment open. -/
theorem convert_places_main
    {source : String}
    {before behind : List Char}
    (found : EntryPoint.cut
      (EntryPoint.signature "fragColor".toList "fragCoord".toList)
      (Define.strip source.toList) = some (before, behind))
    (free : before.getLast?.any attaches = false)
    (aliases : ∀ define ∈ (Define.extract source.toList).value.1,
      Known .builtin define = true → define.name.toList ∉ mainNames)
    (assignments : AssignsOnOneLine "fragColor".toList before)
    (directives : ∀ line ∈ (fields '\n' before).dropLast, ClosesComments line)
    (sourceName : Option String) :
    ∃ body, (convert (some source) .builtin sourceName).value =
        .success (Dialect.builtin.header ++ body) ∧
      Placed .code (regionAfter .code before) mainPhrase body.toList ∧
      (regionAfter .code before = .code →
        mainPhrase <:+: uncomment .code body.toList) := by
  have present : HasEntryPoint .builtin source := by
    rw [HasEntryPoint, ← EntryPoint.isSome_cut_iff_occurs]
    exact Option.isSome_iff_exists.mpr ⟨_, found⟩
  have replaced : EntryPoint.replace? "fragColor".toList "fragCoord".toList
      (Define.strip source.toList) =
        some (before ++
          (mainPhrase ++ ' ' :: behind.dropWhile isSpaceOrTab)) := by
    rw [EntryPoint.replace?, found, Option.map_some]
    dsimp only
    rw [List.append_assoc]
    rfl
  obtain ⟨front, rest, renamed, unmoved⟩ := carried_rename free assignments
    (isName_extract source.toList) aliases
    (' ' :: behind.dropWhile isSpaceOrTab)
  have outcome : (convertBody .builtin (some source)).outcome =
      .ok (String.ofList (format (front ++ (mainPhrase ++ rest)))) := by
    rw [outcome_convertBody_of_ne_empty present.ne_empty,
      outcome_convertText_builtin, replaced, Option.elim_some, renamed]
    rfl
  have placed := placed_format isPhrase_mainPhrase
    (unmoved.directives directives) rest
  rw [unmoved.region] at placed
  refine ⟨_, by rw [value_convert, outcome], ?_⟩
  rw [String.toList_ofList]
  refine ⟨placed, fun live => ?_⟩
  rw [live] at placed
  exact placed.isInfix_uncomment isPhrase_mainPhrase.unmarked

/-- A directive, an assignment and comments with braces. -/
def liveLead : String :=
  "#if 1 /* \x7b */\nfragColor = t.x; // \x7b\n\n\n/*\n\x7d */ "

/-- A source with an alias and an entry point behind them, in code. -/
def liveSource : String :=
  "#define t iTime\n" ++ liveLead ++
    "void mainImage(out vec4 fragColor,in vec2 fragCoord)\x7b\x7d"

theorem convert_places_main_liveSource :
    regionAfter .code liveLead.toList = .code ∧
      ∃ body, (convert (some liveSource)).value =
          .success (Dialect.builtin.header ++ body) ∧
        Placed .code .code mainPhrase body.toList ∧
        mainPhrase <:+: uncomment .code body.toList := by
  have found : EntryPoint.cut
      (EntryPoint.signature "fragColor".toList "fragCoord".toList)
      (Define.strip liveSource.toList) =
        some (liveLead.toList, "\x7b\x7d".toList) := by decide +kernel
  have live : regionAfter .code liveLead.toList = .code := by decide +kernel
  obtain ⟨body, converted, placed, shown⟩ := convert_places_main found
    (by decide +kernel) (by decide +kernel) (by decide +kernel)
    (by decide +kernel) none
  rw [live] at placed
  exact ⟨live, body, converted, placed, shown live⟩

/-- A source whose entry point is commented out. -/
def commentedOut : String :=
  "// void mainImage(out vec4 fragColor, in vec2 fragCoord)"

/-- A source whose entry point is commented out is converted, but nothing in the
body is an entry point. -/
theorem not_placed_commentedOut :
    (convert (some commentedOut)).value =
        .success (Dialect.builtin.header ++ "// void main()") ∧
      ¬ Placed .code .code mainPhrase "// void main()".toList ∧
      ¬ mainPhrase <:+: uncomment .code "// void main()".toList := by
  decide +kernel

end Conversion
end ShaderLift
