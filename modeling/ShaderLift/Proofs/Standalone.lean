import ShaderLift.Proofs.Replacement
import ShaderLift.Proofs.Signature
import ShaderLift.Shader.Define
import ShaderLift.Shader.Name

/-!
# Where names stand alone

A name stands alone in a text where no word character and no dot is right before
it.  What has to follow it is a parameter: the end of the word, or a plain
assignment.  A line end divides the places where a name stands alone, so taking
whole lines out of a text cannot make a new one.
-/

namespace ShaderLift
namespace Shader
namespace Name

open Text

/-- What follows does not continue a word. -/
def EndsWord (after : List Char) : Prop :=
  after.head?.any isWord = false

/-- What follows is a plain assignment: blanks, then an equals sign that is not
doubled. -/
def StartsAssignment (after : List Char) : Prop :=
  ∃ between value, after = between ++ '=' :: value ∧
    (∀ c ∈ between, isBlank c = true) ∧ value.head? ≠ some '='

/-- The name stands alone somewhere in the text, followed as asked for. -/
def StandsIn
    (name : List Char)
    (followed : List Char → Prop)
    (text : List Char) : Prop :=
  ∃ before after, text = before ++ (name ++ after) ∧
    before.getLast?.any attaches = false ∧ followed after

/-- The name stands alone at this place. -/
def Stands
    (name : List Char)
    (followed : List Char → Prop)
    (previous : Option Char)
    (text : List Char) : Prop :=
  previous.any attaches = false ∧ ∃ after, text = name ++ after ∧ followed after

theorem standsIn_iff_somewhere
    {name : List Char}
    {followed : List Char → Prop}
    {text : List Char} :
    StandsIn name followed text ↔
      Somewhere (Stands name followed) none text := by
  constructor
  · rintro ⟨before, after, equal, free, next⟩
    refine ⟨before, name ++ after, equal, ?_, after, rfl, next⟩
    rwa [Option.or_none]
  · rintro ⟨before, rest, equal, free, after, rfl, next⟩
    rw [Option.or_none] at free
    exact ⟨before, after, equal, free, next⟩

/-! ## Characters -/

/-- The code points of blank characters. -/
def blankCodes : List Nat :=
  List.range' 9 5 ++ List.range' 28 5 ++ List.range' 0x2000 11 ++
    [0x85, 0xA0, 0x1680, 0x2028, 0x2029, 0x202F, 0x205F, 0x3000]

theorem mem_blankCodes_of_isBlank
    {c : Char}
    (blank : isBlank c = true) : c.toNat ∈ blankCodes := by
  simp only [isBlank, Bool.or_eq_true, Bool.and_eq_true, decide_eq_true_eq,
    beq_iff_eq] at blank
  simp only [blankCodes, List.mem_append, List.mem_range'_1, List.mem_cons,
    List.not_mem_nil, or_false]
  omega

/-- Neither a name nor a member goes on behind a blank. -/
theorem attaches_of_isBlank
    {c : Char}
    (blank : isBlank c = true) : attaches c = false := by
  have codes : ∀ code ∈ blankCodes, attaches (Char.ofNat code) = false := by
    decide +kernel
  rw [← Char.ofNat_toNat c]
  exact codes c.toNat (mem_blankCodes_of_isBlank blank)

theorem isWord_of_isBlank
    {c : Char}
    (blank : isBlank c = true) : isWord c = false := by
  have detached := attaches_of_isBlank blank
  rw [attaches, Bool.or_eq_false_iff] at detached
  exact detached.1

theorem isBlank_of_isWord
    {c : Char}
    (word : isWord c = true) : isBlank c = false := by
  cases blank : isBlank c with
  | false => rfl
  | true =>
      rw [isWord_of_isBlank blank] at word
      contradiction

theorem attaches_of_isSpaceOrTab
    {c : Char}
    (spaced : isSpaceOrTab c = true) : attaches c = false := by
  simp only [isSpaceOrTab, Bool.or_eq_true, beq_iff_eq] at spaced
  rcases spaced with rfl | rfl <;> decide +kernel

theorem attaches_of_isWord
    {c : Char}
    (word : isWord c = true) : attaches c = true := by
  rw [attaches, word, Bool.true_or]

@[simp] theorem attaches_newline : attaches '\n' = false := by
  decide +kernel

@[simp] theorem isWord_newline : isWord '\n' = false := by
  decide +kernel

theorem endsWord_of_startsAssignment
    {after : List Char}
    (assigned : StartsAssignment after) : EndsWord after := by
  obtain ⟨between, value, rfl, blank, -⟩ := assigned
  cases between with
  | nil =>
      have equals : isWord '=' = false := by decide +kernel
      exact equals
  | cons c cs => exact isWord_of_isBlank (blank c List.mem_cons_self)

/-! ## Lines -/

theorem endsWord_append_newline (after rest : List Char) :
    EndsWord (after ++ '\n' :: rest) ↔ EndsWord after := by
  cases after <;> simp [EndsWord]

/-- A name lies on one side of a line end. -/
theorem exists_of_append_newline
    {name : List Char}
    (oneLine : '\n' ∉ name)
    {front after rest : List Char}
    (equal : front ++ '\n' :: rest = name ++ after) :
    ∃ behind, front = name ++ behind ∧ after = behind ++ '\n' :: rest := by
  rcases List.append_eq_append_iff.mp equal with
    ⟨passed, rfl, divided⟩ | ⟨behind, rfl, rfl⟩
  · cases passed with
    | nil => exact ⟨[], by simp, divided.symm⟩
    | cons c cs =>
        rw [List.cons_append, List.cons.injEq] at divided
        obtain ⟨rfl, -⟩ := divided
        simp at oneLine
  · exact ⟨behind, rfl, rfl⟩

/-- A line end divides the places where a name stands alone. -/
theorem standsIn_append_newline
    {name : List Char}
    (oneLine : '\n' ∉ name)
    (nonempty : name ≠ [])
    (front rest : List Char) :
    StandsIn name EndsWord (front ++ '\n' :: rest) ↔
      StandsIn name EndsWord front ∨ StandsIn name EndsWord rest := by
  constructor
  · rintro ⟨before, after, equal, free, next⟩
    rcases List.append_eq_append_iff.mp equal with
      ⟨passed, rfl, divided⟩ | ⟨line, rfl, divided⟩
    · cases passed with
      | nil =>
          obtain ⟨behind, nothing, -⟩ :=
            exists_of_append_newline oneLine
              ((List.nil_append _).trans divided)
          exact absurd (List.append_eq_nil_iff.mp nothing.symm).1 nonempty
      | cons c cs =>
          rw [List.cons_append, List.cons.injEq] at divided
          obtain ⟨rfl, rfl⟩ := divided
          refine Or.inr ⟨cs, after, rfl, ?_, next⟩
          rw [List.getLast?_append, List.getLast?_cons] at free
          cases last : cs.getLast? with
          | none => rfl
          | some d => simpa [last] using free
    · obtain ⟨behind, rfl, rfl⟩ := exists_of_append_newline oneLine divided.symm
      rw [endsWord_append_newline] at next
      exact Or.inl ⟨before, behind, rfl, free, next⟩
  · rintro (⟨before, after, rfl, free, next⟩ | ⟨before, after, rfl, free, next⟩)
    · refine ⟨before, after ++ '\n' :: rest, by simp, free, ?_⟩
      rwa [endsWord_append_newline]
    · refine ⟨front ++ '\n' :: before, after, by simp, ?_, next⟩
      rw [List.getLast?_append, List.getLast?_cons]
      cases last : before.getLast? with
      | none => simp
      | some d => simpa [last] using free

/-- A name that is in none of the lines in front of a text is in the text. -/
theorem standsIn_of_lines_append
    {name : List Char}
    (oneLine : '\n' ∉ name)
    (nonempty : name ≠ [])
    {lines : List String}
    (absent : ∀ line ∈ lines, ¬ StandsIn name EndsWord line.toList)
    {rest : List Char}
    (stands : StandsIn name EndsWord
      ((lines.flatMap fun line => line.toList ++ ['\n']) ++ rest)) :
    StandsIn name EndsWord rest := by
  induction lines with
  | nil => exact stands
  | cons line more inductionHypothesis =>
      obtain ⟨notHere, notLater⟩ := List.forall_mem_cons.mp absent
      rw [List.flatMap_cons, List.append_assoc, List.append_assoc,
        List.singleton_append, standsIn_append_newline oneLine nonempty]
        at stands
      exact inductionHypothesis notLater (stands.resolve_left notHere)

/-- All lines but the last are closed by a line end. -/
def Closed (lines : List (List Char)) : Prop :=
  lines.Pairwise fun line _ => ∃ front, line = front ++ ['\n']

theorem closed_closedLines (text : List Char) : Closed (closedLines text) := by
  induction text with
  | nil => exact List.Pairwise.nil
  | cons c cs inductionHypothesis =>
      rw [closedLines]
      split
      · exact List.Pairwise.cons (fun _ _ => ⟨[], rfl⟩) inductionHypothesis
      · split
        · exact List.pairwise_singleton _ _
        · next line rest lines =>
            rw [lines] at inductionHypothesis
            obtain ⟨first, others⟩ := List.pairwise_cons.mp inductionHypothesis
            refine List.Pairwise.cons (fun other member => ?_) others
            obtain ⟨front, rfl⟩ := first other member
            exact ⟨c :: front, rfl⟩

/-- In closed lines a name stands alone in one of them. -/
theorem standsIn_flatten
    {name : List Char}
    (oneLine : '\n' ∉ name)
    (nonempty : name ≠ [])
    {lines : List (List Char)}
    (closed : Closed lines) :
    StandsIn name EndsWord lines.flatten ↔
      ∃ line ∈ lines, StandsIn name EndsWord line := by
  have nowhere : ¬ StandsIn name EndsWord [] := by
    rintro ⟨before, after, equal, -⟩
    simp [nonempty] at equal
  induction lines with
  | nil => simpa using nowhere
  | cons line rest inductionHypothesis =>
      obtain ⟨first, others⟩ := List.pairwise_cons.mp closed
      cases rest with
      | nil => simp
      | cons next more =>
          obtain ⟨front, rfl⟩ := first next List.mem_cons_self
          have divided : (front ++ ['\n']) ++ (next :: more).flatten =
              front ++ '\n' :: (next :: more).flatten := by simp
          have inLine : StandsIn name EndsWord (front ++ ['\n']) ↔
              StandsIn name EndsWord front := by
            rw [standsIn_append_newline oneLine nonempty, or_iff_left nowhere]
          have behind : StandsIn name EndsWord (next :: more).flatten ↔
              ∃ line ∈ next :: more, StandsIn name EndsWord line :=
            inductionHypothesis others
          rw [List.flatten_cons, divided,
            standsIn_append_newline oneLine nonempty, behind, ← inLine]
          simp

/-! ## Directives -/

/-- What is left without the directives is some of the lines. -/
theorem exists_sublist_of_partsOfLines
    (begun : Option (List Char))
    (lines : List (List Char)) :
    ((Define.partsOfLines begun lines).filterMap Define.Part.line?).Sublist
      lines := by
  fun_induction Define.partsOfLines begun lines with
  | case1 => exact List.Sublist.slnil
  | case2 begun => exact List.Sublist.slnil
  | case3 line rest _ _ inductionHypothesis =>
      exact inductionHypothesis.cons line
  | case4 line rest _ _ inductionHypothesis =>
      exact inductionHypothesis.cons line
  | case5 line rest _ inductionHypothesis =>
      exact inductionHypothesis.cons_cons line
  | case6 begun line rest _ inductionHypothesis =>
      exact inductionHypothesis.cons line
  | case7 begun line rest _ inductionHypothesis =>
      exact inductionHypothesis.cons line

/-- Where a name stands alone without the directives, it does so in the whole
text. -/
theorem standsIn_of_standsIn_strip
    {name : List Char}
    (oneLine : '\n' ∉ name)
    (nonempty : name ≠ [])
    {text : List Char}
    (stands : StandsIn name EndsWord (Define.strip text)) :
    StandsIn name EndsWord text := by
  have some := exists_sublist_of_partsOfLines none (closedLines text)
  have closed := closed_closedLines text
  rw [Define.strip, Define.parts,
    standsIn_flatten oneLine nonempty (closed.sublist some)] at stands
  obtain ⟨line, member, stands⟩ := stands
  rw [← flatten_closedLines text, standsIn_flatten oneLine nonempty closed]
  exact ⟨line, some.subset member, stands⟩

end Name

namespace EntryPoint

open Text Name

/-- A part of a signature that is not at its start. -/
theorem exists_of_spells_append
    {first second : List Part}
    {text : List Char}
    (spelled : Spells (first ++ second) text) :
    ∃ before after, text = before ++ after ∧ Spells first before ∧
      Spells second after := by
  induction first generalizing text with
  | nil => exact ⟨[], text, rfl, .nil, spelled⟩
  | cons part rest inductionHypothesis =>
      cases spelled with
      | exactly tail =>
          obtain ⟨before, after, rfl, start, behind⟩ := inductionHypothesis tail
          exact ⟨_, after, (List.append_assoc ..).symm, .exactly start, behind⟩
      | gap blank tail =>
          obtain ⟨before, after, rfl, start, behind⟩ := inductionHypothesis tail
          exact ⟨_, after, (List.append_assoc ..).symm, .gap blank start,
            behind⟩
      | blanks blank present tail =>
          obtain ⟨before, after, rfl, start, behind⟩ := inductionHypothesis tail
          exact ⟨_, after, (List.append_assoc ..).symm,
            .blanks blank present start, behind⟩

theorem exists_of_spells_exactly
    {wanted text : List Char}
    {rest : List Part}
    (spelled : Spells (.exactly wanted :: rest) text) :
    ∃ behind, text = wanted ++ behind ∧ Spells rest behind := by
  cases spelled with
  | exactly tail => exact ⟨_, rfl, tail⟩

theorem exists_of_spells_gap
    {text : List Char}
    {rest : List Part}
    (spelled : Spells (.gap :: rest) text) :
    ∃ between behind, text = between ++ behind ∧
      (∀ c ∈ between, isBlank c = true) ∧ Spells rest behind := by
  cases spelled with
  | gap blank tail => exact ⟨_, _, rfl, blank, tail⟩

theorem exists_of_spells_blanks
    {text : List Char}
    {rest : List Part}
    (spelled : Spells (.blanks :: rest) text) :
    ∃ between behind, text = between ++ behind ∧
      (∀ c ∈ between, isBlank c = true) ∧ between ≠ [] ∧
      Spells rest behind := by
  cases spelled with
  | blanks blank present tail => exact ⟨_, _, rfl, blank, present, tail⟩

/-- In a signature the coordinate stands alone. -/
theorem standsIn_of_occurs
    {colour coordinate text : List Char}
    (occurs : Occurs (signature colour coordinate) text) :
    StandsIn coordinate EndsWord text := by
  obtain ⟨before, found, after, rfl, spelled⟩ := occurs
  have divided : signature colour coordinate =
      (signature colour coordinate).take 17 ++
        [.blanks, .exactly coordinate, .gap, .exactly [')']] := rfl
  rw [divided] at spelled
  obtain ⟨front, _, rfl, -, fromBlanks⟩ := exists_of_spells_append spelled
  obtain ⟨between, _, rfl, spaced, present, fromName⟩ :=
    exists_of_spells_blanks fromBlanks
  obtain ⟨_, rfl, fromGap⟩ := exists_of_spells_exactly fromName
  obtain ⟨trailing, _, rfl, blank, fromBracket⟩ := exists_of_spells_gap fromGap
  obtain ⟨behind, rfl, -⟩ := exists_of_spells_exactly fromBracket
  refine ⟨before ++ front ++ between, trailing ++ ([')'] ++ behind) ++ after,
    by simp, ?_, ?_⟩
  · obtain ⟨blanks, last, rfl⟩ := between.eq_nil_or_concat.resolve_left present
    have free : attaches last = false :=
      attaches_of_isBlank (spaced last (by simp))
    simpa [← List.append_assoc] using free
  · cases trailing with
    | nil =>
        have bracket : isWord ')' = false := by decide +kernel
        exact bracket
    | cons c cs => exact isWord_of_isBlank (blank c List.mem_cons_self)

end EntryPoint
end Shader
end ShaderLift
