import Mathlib.Data.List.TakeWhile
import ShaderLift.Proofs.Standalone
import ShaderLift.Shader.Alias
import ShaderLift.Shader.Rename

/-!
# Renaming makes no new names

A replacement is tidy for a letter if it starts only where a name may stand
alone, writes a word, and hides the letter behind word characters.  A name with
that first letter stands alone in the written text only where it stood before
and was passed over.  So a search that finds every such place removes the name,
and a tidy search for anything else does not bring it back.
-/

namespace ShaderLift
namespace Shader

open Text Name

/-- What a replacement may write for the characters it takes. -/
structure Fits (letter : Char) (taken replacement : List Char) : Prop where
  /-- Something is taken, and it does not start with an equals sign. -/
  starts : ∃ c, taken.head? = some c ∧ c ≠ '='
  /-- A word is written. -/
  word : ∃ c, replacement.head? = some c ∧ isWord c = true
  /-- No name starts with the letter in what is written. -/
  hidden : ∀ before after, replacement = before ++ letter :: after →
    before.getLast?.any attaches = true
  /-- Behind it no name stands alone where none stood. -/
  closed : taken.getLast?.any attaches = true →
    replacement.getLast?.any attaches = true

/-- The search finds only places where a name may stand alone, and its
replacements fit. -/
def Tidy (letter : Char) (search : Search) : Prop :=
  ∀ previous text occurrence, search previous text = some occurrence →
    previous.any attaches = false ∧
    ∃ taken rest, text = taken ++ rest ∧ occurrence.length = taken.length ∧
      Fits letter taken occurrence.replacement

/-- Behind a word, what follows in the written text followed in the text. -/
def Carries (search : Search) (followed : List Char → Prop) : Prop :=
  ∀ last text written, isWord last = true →
    Replaced search (some last) text written → followed written → followed text

namespace Tidy

variable {letter : Char} {search : Search}

theorem isBounded (tidy : Tidy letter search) : search.IsBounded := by
  intro previous text occurrence found
  obtain ⟨-, taken, rest, rfl, length, -⟩ := tidy previous text occurrence found
  rw [length, List.length_append]
  omega

theorem fits
    (tidy : Tidy letter search)
    {previous : Option Char}
    {taken rest replacement : List Char}
    (found : search previous (taken ++ rest) =
      some ⟨taken.length, replacement⟩) :
    previous.any attaches = false ∧ Fits letter taken replacement := by
  obtain ⟨free, begun, behind, equal, length, fits⟩ := tidy _ _ _ found
  obtain ⟨rfl, -⟩ := List.append_inj equal length
  exact ⟨free, fits⟩

/-- An occurrence takes some characters. -/
theorem length_ne_zero
    (tidy : Tidy letter search)
    {previous : Option Char}
    {text replacement : List Char} :
    search previous text ≠ some ⟨0, replacement⟩ := by
  intro found
  obtain ⟨-, taken, rest, -, length, fits⟩ := tidy _ _ _ found
  obtain ⟨c, first, -⟩ := fits.starts
  rw [List.length_eq_zero_iff.mp length.symm] at first
  simp at first

/-- A character inside a word, or one that is not of a word, has been kept. -/
theorem exists_kept
    (tidy : Tidy letter search)
    {previous : Option Char}
    {text written : List Char}
    {c : Char}
    (replaced : Replaced search previous text (c :: written))
    (kept : previous.any attaches = true ∨ isWord c = false) :
    ∃ rest, text = c :: rest ∧ Replaced search (some c) rest written := by
  generalize equal : c :: written = output at replaced
  cases replaced with
  | nil => contradiction
  | keep _ tail =>
      rw [List.cons.injEq] at equal
      obtain ⟨rfl, rfl⟩ := equal
      exact ⟨_, rfl, tail⟩
  | insert found _ => exact absurd found tidy.length_ne_zero
  | replace found _ _ =>
      obtain ⟨free, fits⟩ := tidy.fits found
      obtain ⟨d, first, word⟩ := fits.word
      obtain ⟨more, rfl⟩ := List.head?_eq_some_iff.mp first
      rw [List.cons_append, List.cons.injEq] at equal
      obtain ⟨rfl, -⟩ := equal
      simp [free, word] at kept

theorem eq_nil_of_replaced
    (tidy : Tidy letter search)
    {previous : Option Char}
    {text : List Char}
    (replaced : Replaced search previous text []) : text = [] := by
  generalize equal : [] = output at replaced
  cases replaced with
  | nil => rfl
  | keep _ _ => contradiction
  | insert found _ => exact absurd found tidy.length_ne_zero
  | replace found _ _ =>
      obtain ⟨-, fits⟩ := tidy.fits found
      obtain ⟨c, first, -⟩ := fits.word
      obtain ⟨more, rfl⟩ := List.head?_eq_some_iff.mp first
      simp at equal

/-- A word that goes on from kept characters has been kept as a whole. -/
theorem exists_kept_word
    (tidy : Tidy letter search)
    {word : List Char}
    (allWord : ∀ c ∈ word, isWord c = true)
    {last : Char}
    (isLast : isWord last = true)
    {text written : List Char}
    (replaced : Replaced search (some last) text (word ++ written)) :
    ∃ rest last, text = word ++ rest ∧ isWord last = true ∧
      Replaced search (some last) rest written := by
  induction word generalizing last text with
  | nil => exact ⟨text, last, rfl, isLast, replaced⟩
  | cons c cs inductionHypothesis =>
      obtain ⟨behind, rfl, tail⟩ :=
        tidy.exists_kept replaced (Or.inl (attaches_of_isWord isLast))
      obtain ⟨rest, last, rfl, isLast, tail⟩ := inductionHypothesis
        (fun d member => allWord d (List.mem_cons_of_mem c member))
        (allWord c List.mem_cons_self) tail
      exact ⟨rest, last, rfl, isLast, tail⟩

/-! ## What follows a name -/

theorem carries_endsWord (tidy : Tidy letter search) :
    Carries search EndsWord := by
  intro last text written isLast replaced ends
  cases written with
  | nil =>
      rw [tidy.eq_nil_of_replaced replaced]
      exact ends
  | cons c cs =>
      obtain ⟨rest, rfl, -⟩ :=
        tidy.exists_kept replaced (Or.inl (attaches_of_isWord isLast))
      exact ends

/-- An equals sign at the beginning of the text is one of the written text. -/
theorem head?_eq_of_replaced
    (tidy : Tidy letter search)
    {previous : Option Char}
    {text written : List Char}
    (replaced : Replaced search previous text written)
    (first : text.head? = some '=') :
    written.head? = some '=' := by
  cases replaced with
  | nil => contradiction
  | keep _ _ => exact first
  | insert found _ => exact absurd found tidy.length_ne_zero
  | replace found _ _ =>
      obtain ⟨-, fits⟩ := tidy.fits found
      obtain ⟨c, begins, noEquals⟩ := fits.starts
      obtain ⟨more, rfl⟩ := List.head?_eq_some_iff.mp begins
      exact absurd (Option.some.inj first) noEquals

theorem startsAssignment_of_replaced
    (tidy : Tidy letter search)
    {previous : Option Char}
    {text written : List Char}
    (replaced : Replaced search previous text written)
    (assigned : StartsAssignment written) :
    StartsAssignment text := by
  obtain ⟨between, value, rfl, blank, single⟩ := assigned
  induction between generalizing previous text with
  | nil =>
      have equals : isWord '=' = false := by decide +kernel
      obtain ⟨rest, rfl, tail⟩ := tidy.exists_kept replaced (Or.inr equals)
      exact ⟨[], rest, rfl, by simp, fun doubled =>
        single (tidy.head?_eq_of_replaced tail doubled)⟩
  | cons c cs inductionHypothesis =>
      have firstBlank : isBlank c = true := blank c List.mem_cons_self
      obtain ⟨behind, rfl, tail⟩ :=
        tidy.exists_kept replaced (Or.inr (isWord_of_isBlank firstBlank))
      obtain ⟨between, rest, rfl, allBlank, single⟩ := inductionHypothesis tail
        fun d member => blank d (List.mem_cons_of_mem c member)
      exact ⟨c :: between, rest, rfl, by simpa [firstBlank] using allBlank,
        single⟩

theorem carries_startsAssignment (tidy : Tidy letter search) :
    Carries search StartsAssignment :=
  fun _ _ _ _ replaced => tidy.startsAssignment_of_replaced replaced

/-! ## The walk -/

/-- Where a name stands alone in the written text, it stood alone in the text,
and the search found nothing there. -/
theorem somewhere_of_replaced
    (tidy : Tidy letter search)
    {more : List Char}
    (allWord : ∀ c ∈ letter :: more, isWord c = true)
    {followed : List Char → Prop}
    (carries : Carries search followed)
    {previous : Option Char}
    {text written : List Char}
    (replaced : Replaced search previous text written)
    {previous' : Option Char}
    (free : previous'.any attaches = false → previous.any attaches = false)
    (stands : Somewhere (Stands (letter :: more) followed) previous' written) :
    Somewhere
      (fun before rest => Stands (letter :: more) followed before rest ∧
        search before rest = none) previous text := by
  -- The two texts may follow different characters: behind a replacement one is
  -- the last written and the other the last taken.  It is enough that a name
  -- may start in the text wherever it may start in what is written.
  induction replaced generalizing previous' with
  | nil =>
      obtain ⟨before, rest, equal, -, after, rfl, -⟩ := stands
      simp at equal
  | @keep previous c rest written absent tail inductionHypothesis =>
      rw [somewhere_cons] at stands ⊢
      rcases stands with ⟨free', after, equal, next⟩ | later
      · rw [List.cons_append, List.cons.injEq] at equal
        obtain ⟨rfl, rfl⟩ := equal
        obtain ⟨behind, last, rfl, isLast, tail⟩ := tidy.exists_kept_word
          (fun d member => allWord d (List.mem_cons_of_mem c member))
          (allWord c List.mem_cons_self) tail
        exact Or.inl ⟨⟨free free', behind, rfl,
          carries last behind after isLast tail next⟩, absent⟩
      · exact Or.inr (inductionHypothesis id later)
  | insert found _ _ => exact absurd found tidy.length_ne_zero
  | @replace previous taken rest replacement written found present tail
      inductionHypothesis =>
      obtain ⟨-, fits⟩ := tidy.fits found
      rw [somewhere_append] at stands ⊢
      rcases stands with
        ⟨before, c, behind, rfl, free', after, equal, -⟩ | later
      · -- The place lies in the replacement, where the letter is hidden.
        rw [List.cons_append, List.cons_append, List.cons.injEq] at equal
        obtain ⟨rfl, -⟩ := equal
        have hidden := fits.hidden before behind rfl
        obtain ⟨last, ends, attached⟩ := (Option.any_eq_true _ _).mp hidden
        simp [ends, attached] at free'
      · have ended : taken.getLast?.or previous = taken.getLast? := by
          rw [List.getLast?_eq_some_getLast present, Option.some_or]
        rw [ended]
        refine Or.inr (inductionHypothesis (fun free' => ?_) later)
        cases attached : taken.getLast?.any attaches with
        | false => rfl
        | true =>
            obtain ⟨last, ends, isLast⟩ :=
              (Option.any_eq_true _ _).mp (fits.closed attached)
            simp [ends, isLast] at free'

theorem exists_passed_of_standsIn
    (tidy : Tidy letter search)
    {more : List Char}
    (allWord : ∀ c ∈ letter :: more, isWord c = true)
    {followed : List Char → Prop}
    (carries : Carries search followed)
    {text : List Char}
    (stands : StandsIn (letter :: more) followed (replaceAll search text)) :
    Somewhere
      (fun before rest => Stands (letter :: more) followed before rest ∧
        search before rest = none) none text :=
  tidy.somewhere_of_replaced allWord carries
    (replaced_replaceAll tidy.isBounded text) id
    (standsIn_iff_somewhere.mp stands)

/-- A tidy replacement does not bring a name back. -/
theorem standsIn_of_standsIn_replaceAll
    (tidy : Tidy letter search)
    {more : List Char}
    (allWord : ∀ c ∈ letter :: more, isWord c = true)
    {followed : List Char → Prop}
    (carries : Carries search followed)
    {text : List Char}
    (stands : StandsIn (letter :: more) followed (replaceAll search text)) :
    StandsIn (letter :: more) followed text := by
  obtain ⟨before, rest, equal, passed, -⟩ :=
    tidy.exists_passed_of_standsIn allWord carries stands
  exact standsIn_iff_somewhere.mpr ⟨before, rest, equal, passed⟩

/-- A tidy search that finds a name wherever it stands alone removes it. -/
theorem not_standsIn_replaceAll
    (tidy : Tidy letter search)
    {more : List Char}
    (allWord : ∀ c ∈ letter :: more, isWord c = true)
    {followed : List Char → Prop}
    (carries : Carries search followed)
    (finds : ∀ previous text, Stands (letter :: more) followed previous text →
      search previous text ≠ none)
    (text : List Char) :
    ¬ StandsIn (letter :: more) followed (replaceAll search text) := by
  intro stands
  obtain ⟨before, rest, -, passed, missed⟩ :=
    tidy.exists_passed_of_standsIn allWord carries stands
  exact finds _ rest passed missed

end Tidy

/-! ## Finding a name -/

theorem free_of_standsAt
    {name : List Char}
    {previous : Option Char}
    {text rest : List Char}
    (stands : standsAt name previous text = some rest) :
    previous.any attaches = false := by
  unfold standsAt at stands
  split at stands
  · contradiction
  · next free => exact Bool.not_eq_true _ |>.mp free

/-- A name that stands alone is found. -/
theorem standsAt_of_endsWord
    {name : List Char}
    (ends : name.getLast?.any isWord = true)
    {previous : Option Char}
    (free : previous.any attaches = false)
    {after : List Char}
    (next : EndsWord after) :
    standsAt name previous (name ++ after) = some after := by
  have removed : dropExact name (name ++ after) = some after := by
    rw [dropExact_eq_some_iff]
  have boundary :
      isBoundary (name.getLast?.or previous) after.head? = true := by
    obtain ⟨last, isLast, word⟩ := (Option.any_eq_true _ _).mp ends
    rw [isBoundary, next, isLast, Option.some_or, Option.any_some, word]
    rfl
  simp [standsAt, free, removed, boundary]

/-! ## The parameters -/

theorem tidy_useOf
    {letter : Char}
    {name : List Char}
    {parts : List Template.Part}
    (fits : Fits letter name (Template.expand name parts)) :
    Tidy letter (useOf name parts) := by
  intro previous text occurrence found
  unfold useOf at found
  split at found
  · contradiction
  · next rest stands =>
      rw [Option.some.injEq] at found
      subst found
      exact ⟨free_of_standsAt stands, name, rest,
        eq_append_of_standsAt stands, rfl, fits⟩

/-- A use is found wherever its name stands alone. -/
theorem useOf_ne_none
    {name : List Char}
    (ends : name.getLast?.any isWord = true)
    (parts : List Template.Part)
    {previous : Option Char}
    {text : List Char}
    (stands : Stands name EndsWord previous text) :
    useOf name parts previous text ≠ none := by
  obtain ⟨free, after, rfl, next⟩ := stands
  simp [useOf, standsAt_of_endsWord ends free next]

/-- The text behind a single equals sign. -/
def behindEquals : List Char → Option (List Char)
  | '=' :: '=' :: _ => none
  | '=' :: value => some value
  | _ => none

/-- What stands between a name and the value that is assigned to it, and the
text from the value on. -/
def takeAssignment (rest : List Char) : Option (List Char × List Char) :=
  (behindEquals (rest.dropWhile isBlank)).map fun value =>
    (rest.takeWhile isBlank ++ '=' :: value.takeWhile isSpaceOrTab,
      value.dropWhile isSpaceOrTab)

theorem behindEquals_eq_some_iff (text value : List Char) :
    behindEquals text = some value ↔
      text = '=' :: value ∧ value.head? ≠ some '=' := by
  fun_cases behindEquals text with
  | case1 rest =>
      have double : '=' :: rest = value → value.head? = some '=' := by
        rintro rfl
        rfl
      simpa using double
  | case2 rest single =>
      rw [Option.some.injEq]
      refine ⟨?_, fun found => (List.cons.inj found.1).2⟩
      rintro rfl
      refine ⟨rfl, fun double => ?_⟩
      obtain ⟨more, rfl⟩ := List.head?_eq_some_iff.mp double
      exact single more rfl
  | case3 text _ other => simpa using fun equal => absurd equal (other value)

theorem exists_of_takeAssignment
    {rest taken value : List Char}
    (assigned : takeAssignment rest = some (taken, value)) :
    rest = taken ++ value ∧
    ∃ between spaces, taken = between ++ '=' :: spaces ∧
      (∀ c ∈ between, isBlank c = true) ∧
      ∀ c ∈ spaces, isSpaceOrTab c = true := by
  rw [takeAssignment, Option.map_eq_some_iff] at assigned
  obtain ⟨value, found, equal⟩ := assigned
  rw [Prod.mk.injEq] at equal
  obtain ⟨rfl, rfl⟩ := equal
  refine ⟨?_, _, _, rfl, fun c member => List.mem_takeWhile_imp member,
    fun c member => List.mem_takeWhile_imp member⟩
  rw [List.append_assoc, List.cons_append, List.takeWhile_append_dropWhile,
    ← ((behindEquals_eq_some_iff _ _).mp found).1,
    List.takeWhile_append_dropWhile]

theorem assignmentTo_of_standsAt
    {name : List Char}
    {previous : Option Char}
    {text rest : List Char}
    (stands : standsAt name previous text = some rest)
    (parts : List Template.Part) :
    assignmentTo name parts previous text =
      (takeAssignment rest).map fun assigned =>
        ⟨(name ++ assigned.1).length,
          Template.expand (name ++ assigned.1) parts⟩ := by
  have counted : ∀ taken value, takeAssignment rest = some (taken, value) →
      text.length - value.length = (name ++ taken).length ∧
        text.take (name ++ taken).length = name ++ taken := by
    intro taken value assigned
    have parted : text = (name ++ taken) ++ value := by
      rw [eq_append_of_standsAt stands, (exists_of_takeAssignment assigned).1,
        List.append_assoc]
    rw [parted, List.length_append, Nat.add_sub_cancel, List.take_left]
    exact ⟨rfl, rfl⟩
  unfold takeAssignment at counted ⊢
  rw [assignmentTo, stands]
  dsimp only
  split
  · next behind => rw [behind]; rfl
  · next value single behind =>
      have found : behindEquals (rest.dropWhile isBlank) = some value := by
        refine (behindEquals_eq_some_iff _ _).mpr ⟨behind, fun double => ?_⟩
        obtain ⟨more, rfl⟩ := List.head?_eq_some_iff.mp double
        exact single more rfl
      rw [found] at counted ⊢
      obtain ⟨length, front⟩ := counted _ _ rfl
      rw [length, front]
      rfl
  · next other =>
      cases found : behindEquals (rest.dropWhile isBlank) with
      | none => rfl
      | some value =>
          exact absurd ((behindEquals_eq_some_iff _ _).mp found).1 (other value)

/-- What an assignment takes: the name, blanks, the equals sign, and the spaces
and tabs behind it. -/
theorem exists_of_assignmentTo
    {name : List Char}
    {parts : List Template.Part}
    {previous : Option Char}
    {text : List Char}
    {occurrence : Occurrence}
    (found : assignmentTo name parts previous text = some occurrence) :
    previous.any attaches = false ∧
    ∃ between spaces rest,
      text = (name ++ (between ++ '=' :: spaces)) ++ rest ∧
      (∀ c ∈ between, isBlank c = true) ∧
      (∀ c ∈ spaces, isSpaceOrTab c = true) ∧
      occurrence = ⟨(name ++ (between ++ '=' :: spaces)).length,
        Template.expand (name ++ (between ++ '=' :: spaces)) parts⟩ := by
  cases stands : standsAt name previous text with
  | none => simp [assignmentTo, stands] at found
  | some rest =>
      rw [assignmentTo_of_standsAt stands, Option.map_eq_some_iff] at found
      obtain ⟨⟨taken, value⟩, assigned, rfl⟩ := found
      obtain ⟨rfl, between, spaces, rfl, blank, spaced⟩ :=
        exists_of_takeAssignment assigned
      refine ⟨free_of_standsAt stands, between, spaces, value, ?_, blank,
        spaced, rfl⟩
      rw [eq_append_of_standsAt stands, ← List.append_assoc]

/-- A name may stand right behind an assignment. -/
theorem attaches_getLast?_of_assignment
    {spaces : List Char}
    (blank : ∀ c ∈ spaces, isSpaceOrTab c = true)
    (front : List Char) :
    (front ++ '=' :: spaces).getLast?.any attaches = false := by
  have detached : ∀ c ∈ '=' :: spaces, attaches c = false := by
    have equals : attaches '=' = false := by decide +kernel
    simpa [equals] using fun c member =>
      attaches_of_isSpaceOrTab (blank c member)
  rw [List.getLast?_append,
    List.getLast?_eq_some_getLast (List.cons_ne_nil _ _), Option.some_or]
  exact detached _ (List.getLast_mem _)

theorem tidy_assignmentTo
    {letter : Char}
    {name : List Char}
    {parts : List Template.Part}
    (fits : ∀ behind, (name ++ behind).getLast?.any attaches = false →
      Fits letter (name ++ behind) (Template.expand (name ++ behind) parts)) :
    Tidy letter (assignmentTo name parts) := by
  intro previous text occurrence found
  obtain ⟨free, between, spaces, rest, equal, -, spaced, rfl⟩ :=
    exists_of_assignmentTo found
  refine ⟨free, _, rest, equal, rfl, fits _ ?_⟩
  rw [← List.append_assoc]
  exact attaches_getLast?_of_assignment spaced (name ++ between)

/-- An assignment is found wherever its name stands alone before it. -/
theorem assignmentTo_ne_none
    {name : List Char}
    (ends : name.getLast?.any isWord = true)
    (parts : List Template.Part)
    {previous : Option Char}
    {text : List Char}
    (stands : Stands name StartsAssignment previous text) :
    assignmentTo name parts previous text ≠ none := by
  obtain ⟨free, after, rfl, assigned⟩ := stands
  have alone := standsAt_of_endsWord ends free
    (endsWord_of_startsAssignment assigned)
  obtain ⟨between, value, rfl, blank, single⟩ := assigned
  have behind : (between ++ '=' :: value).dropWhile isBlank = '=' :: value := by
    rw [List.dropWhile_append_of_pos blank]
    rfl
  simp only [assignmentTo, alone, behind]
  split
  · next equal => simp_all
  · simp
  · simp_all

end Shader
end ShaderLift
