import Mathlib.Data.Char
import Mathlib.Data.List.Lex
import Mathlib.Data.List.Sort
import Mathlib.Data.Prod.Lex
import ShaderLift.Proofs.DigitRuns

/-!
# The natural order

The parts of a name are its pieces, the digit runs among them as numbers.  Two
names are compared at their first different parts, texts by their characters and
numbers by their values.  Texts and numbers take turns in every name, so the two
parts are always of one kind.  The keys that names are sorted by compare as
their parts do.  Where different stems have different parts, the stems of some
files are in strictly increasing order, and the order in which the files are
listed does not matter.
-/

namespace ShaderLift
namespace Examples

open Text

/-! ## Comparing names -/

/-- A part of a name. -/
inductive Part
  /-- A text without decimal digits. -/
  | text (chars : List Char)
  /-- The value of a digit run. -/
  | number (value : Nat)
deriving Repr, DecidableEq

/-- Which of two parts is less.  A text and a number are not compared. -/
def Part.less? : Part → Part → Option Bool
  | .text left, .text right => some (decide (left < right))
  | .number left, .number right => some (decide (left < right))
  | .text _, .number _ => none
  | .number _, .text _ => none

/-- Whether the first of two lists of parts is less: the first two different
parts decide, and else the lengths do. -/
def less? : List Part → List Part → Option Bool
  | [], right => some !right.isEmpty
  | _ :: _, [] => some false
  | left :: lefts, right :: rights =>
      if left = right then less? lefts rights else left.less? right

/-- A piece as a part. -/
def Part.ofPiece (piece : List Char) : Part :=
  if !piece.isEmpty && piece.all isDecimal then .number (valueOf piece)
  else .text piece

/-- The parts of a name. -/
def partsOf (name : List Char) : List Part :=
  (pieces name).map Part.ofPiece

theorem Part.ofPiece_of_isText
    {text : List Char}
    (isText : IsText text) : Part.ofPiece text = .text text := by
  cases text with
  | nil => rfl
  | cons c rest => simp [Part.ofPiece, isText c List.mem_cons_self]

theorem Part.ofPiece_of_isRun
    {digits : List Char}
    (isRun : IsRun digits) : Part.ofPiece digits = .number (valueOf digits) := by
  have present : digits.isEmpty = false := by simpa using isRun.present
  have decimal : digits.all isDecimal = true :=
    List.all_eq_true.mpr isRun.decimal
  rw [Part.ofPiece, present, decimal]
  rfl

namespace NaturalKey

/-- The parts behind the first text of a key. -/
def tailParts (tail : List (Nat × List Char)) : List Part :=
  tail.flatMap fun pair => [.number pair.1, .text pair.2]

/-- The parts of a key. -/
def parts (key : NaturalKey) : List Part :=
  .text key.head :: tailParts key.tail

theorem less?_tailParts (left right : List (Nat × List Char)) :
    less? (tailParts left) (tailParts right) =
      some (List.lex left right pairPrecedes) := by
  induction left generalizing right with
  | nil => cases right <;> rfl
  | cons pair rest inductionHypothesis =>
      cases right with
      | nil => rfl
      | cons other others =>
          obtain ⟨number, text⟩ := pair
          obtain ⟨number', text'⟩ := other
          change less? (.number number :: .text text :: tailParts rest)
            (.number number' :: .text text' :: tailParts others) = _
          rw [less?, less?, inductionHypothesis, List.lex, pairPrecedes]
          by_cases sameNumber : number = number'
          · by_cases sameText : text = text'
            · simp [sameNumber, sameText]
            · simp [sameNumber, sameText, Part.less?]
          · have apart : ((number, text) == (number', text')) = false := by
              rw [beq_eq_false_iff_ne]
              exact fun equal => sameNumber (Prod.mk.inj equal).1
            simp [sameNumber, apart, Part.less?]

/-- Keys compare as their parts do. -/
theorem less?_parts (left right : NaturalKey) :
    less? left.parts right.parts = some (left.precedes right) := by
  rw [parts, parts, less?, less?_tailParts, precedes]
  by_cases sameHead : left.head = right.head
  · simp [sameHead]
  · simp [sameHead, Part.less?]

/-- The place of a key in the order of texts and numbers. -/
def rank (key : NaturalKey) : List Char ×ₗ List (Nat ×ₗ List Char) :=
  toLex (key.head, key.tail.map toLex)

theorem eq_of_rank_eq
    {left right : NaturalKey}
    (same : left.rank = right.rank) : left = right := by
  obtain ⟨sameHead, sameTail⟩ := Prod.mk.inj (toLex.injective same)
  have equal := List.map_injective_iff.mpr toLex.injective sameTail
  cases left
  cases right
  simp_all

theorem pairPrecedes_iff (left right : Nat × List Char) :
    pairPrecedes left right = true ↔ toLex left < toLex right := by
  simp [pairPrecedes, Prod.Lex.toLex_lt_toLex]

theorem lex_pairPrecedes_iff (left right : List (Nat × List Char)) :
    List.lex left right pairPrecedes = true ↔
      left.map toLex < right.map toLex := by
  induction left generalizing right with
  | nil => cases right <;> simp
  | cons pair rest inductionHypothesis =>
      cases right with
      | nil => simp
      | cons other others =>
          simp [List.lex, pairPrecedes_iff, inductionHypothesis,
            List.cons_lt_cons_iff]

theorem precedes_iff (left right : NaturalKey) :
    left.precedes right = true ↔ left.rank < right.rank := by
  rw [precedes, Bool.or_eq_true, Bool.and_eq_true, lex_pairPrecedes_iff, rank,
    rank, Prod.Lex.toLex_lt_toLex, decide_eq_true_eq, beq_iff_eq]

end NaturalKey

/-- The parts of a name are those of its key. -/
theorem partsOf_eq (name : List Char) : partsOf name = (keyOf name).parts := by
  obtain ⟨isText, turns⟩ := isText_and_isRun_of_runs name
  rw [partsOf, pieces_eq, List.map_cons, Part.ofPiece_of_isText isText,
    List.map_flatMap, NaturalKey.parts, keyOf, NaturalKey.tailParts,
    List.flatMap_map]
  refine congrArg (_ :: ·) (List.flatMap_congr fun run member => ?_)
  obtain ⟨isRun, isText⟩ := turns run member
  rw [List.map_cons, List.map_cons, List.map_nil, Part.ofPiece_of_isRun isRun,
    Part.ofPiece_of_isText isText]

theorem less?_partsOf (left right : List Char) :
    less? (partsOf left) (partsOf right) =
      some ((keyOf left).precedes (keyOf right)) := by
  rw [partsOf_eq, partsOf_eq, NaturalKey.less?_parts]

/-! ## Sorting stems -/

theorem comesFirst_iff (left right : String) :
    comesFirst left right = true ↔
      (keyOf left.toList).rank ≤ (keyOf right.toList).rank := by
  rw [comesFirst, Bool.not_eq_true', ← Bool.not_eq_true,
    NaturalKey.precedes_iff, not_lt]

theorem pairwise_mergeSort_comesFirst (names : List String) :
    (names.mergeSort comesFirst).Pairwise fun left right =>
      comesFirst left right = true := by
  refine List.pairwise_mergeSort ?_ ?_ names
  · intro first second third
    simp only [comesFirst_iff]
    exact le_trans
  · intro left right
    rw [Bool.or_eq_true, comesFirst_iff, comesFirst_iff]
    exact le_total _ _

/-- Different names among some have different parts. -/
def PartsDiffer (names : List String) : Prop :=
  ∀ left ∈ names, ∀ right ∈ names,
    partsOf left.toList = partsOf right.toList → left = right

theorem PartsDiffer.eq_of_rank_eq
    {names : List String}
    (differ : PartsDiffer names)
    {left right : String}
    (leftMember : left ∈ names)
    (rightMember : right ∈ names)
    (same : (keyOf left.toList).rank = (keyOf right.toList).rank) :
    left = right := by
  refine differ left leftMember right rightMember ?_
  rw [partsOf_eq, partsOf_eq, NaturalKey.eq_of_rank_eq same]

/-- Sorted names with different parts increase strictly. -/
theorem PartsDiffer.pairwise_less?
    {names : List String}
    (differ : PartsDiffer names)
    (once : names.Nodup)
    (sorted : names.Pairwise fun left right => comesFirst left right = true) :
    names.Pairwise fun left right =>
      less? (partsOf left.toList) (partsOf right.toList) = some true := by
  refine (sorted.and once).imp_of_mem fun leftMember rightMember both => ?_
  obtain ⟨comes, apart⟩ := both
  rw [less?_partsOf, Option.some.injEq, NaturalKey.precedes_iff]
  refine lt_of_le_of_ne ((comesFirst_iff _ _).mp comes) fun same => ?_
  exact apart (differ.eq_of_rank_eq leftMember rightMember same)

/-- Names with different parts are sorted in one way. -/
theorem PartsDiffer.mergeSort_eq_of_perm
    {names others : List String}
    (differ : PartsDiffer names)
    (same : others.Perm names) :
    others.mergeSort comesFirst = names.mergeSort comesFirst := by
  -- Sorting keeps names of one rank as they are listed, but no two share one.
  have perm : (others.mergeSort comesFirst).Perm
      (names.mergeSort comesFirst) :=
    (List.mergeSort_perm others _).trans
      (same.trans (List.mergeSort_perm names _).symm)
  refine perm.eq_of_pairwise ?_ (pairwise_mergeSort_comesFirst others)
    (pairwise_mergeSort_comesFirst names)
  intro left right leftMember rightMember comes returns
  have leftHere : left ∈ names :=
    same.subset ((List.mergeSort_perm others _).subset leftMember)
  have rightHere : right ∈ names :=
    (List.mergeSort_perm names _).subset rightMember
  exact differ.eq_of_rank_eq leftHere rightHere
    (le_antisymm ((comesFirst_iff _ _).mp comes)
      ((comesFirst_iff _ _).mp returns))

theorem exampleStems_perm
    {names others : List String}
    (same : ∀ name, name ∈ others ↔ name ∈ names) :
    (exampleStems others).Perm (exampleStems names) := by
  refine (List.perm_ext_iff_of_nodup (nodup_eraseDups _)
    (nodup_eraseDups _)).mpr fun stem => ?_
  simp [List.mem_eraseDups, same]

theorem isExampleFile_iff (name : String) :
    isExampleFile name = true ↔
      ".txt".toList <:+ name.toList ∨ ".glsl".toList <:+ name.toList := by
  rw [isExampleFile, Bool.or_eq_true, endsWith_iff, endsWith_iff]
  rfl

/-- The stem of an example's file is what stands before the first dot. -/
theorem stemOf_eq_iff
    {name : String}
    (isExample : isExampleFile name = true)
    (stem : String) :
    stemOf name = stem ↔
      '.' ∉ stem.toList ∧ stem.toList ++ ['.'] <+: name.toList := by
  have dotted : '.' ∈ name.toList := by
    rcases (isExampleFile_iff name).mp isExample with ends | ends
    · exact ends.subset (by decide)
    · exact ends.subset (by decide)
  constructor
  · rintro rfl
    refine ⟨not_mem_stemOf name, ?_⟩
    rw [stemOf, String.toList_ofList]
    have present : name.toList.dropWhile (· != '.') ≠ [] := by
      intro nothing
      have kept := List.dropWhile_eq_nil_iff.mp nothing '.' dotted
      contradiction
    obtain ⟨c, rest, behind⟩ := List.exists_cons_of_ne_nil present
    obtain rfl : c = '.' := by
      have stops := List.head?_dropWhile_not (· != '.') name.toList
      rw [behind] at stops
      simpa using stops
    refine ⟨rest, ?_⟩
    rw [List.append_assoc, List.singleton_append, ← behind,
      List.takeWhile_append_dropWhile]
  · rintro ⟨absent, rest, whole⟩
    have kept : ∀ c ∈ stem.toList, (c != '.') = true := by
      intro c member
      rw [bne_iff_ne]
      rintro rfl
      exact absent member
    rw [stemOf, ← whole, List.append_assoc, List.takeWhile_append_of_pos kept]
    simp

/-- Where stems have an order and different parts, the order is strict, holds
the stem of each example once, and depends on which files there are, not on how
they are listed.  A text is never compared with a number. -/
theorem stems_in_natural_order
    {names found : List String}
    (ordered : stems names = .ok found)
    (differ : PartsDiffer found) :
    found.Nodup ∧
    (∀ stem, stem ∈ found ↔ '.' ∉ stem.toList ∧ ∃ name ∈ names,
      (".txt".toList <:+ name.toList ∨ ".glsl".toList <:+ name.toList) ∧
        stem.toList ++ ['.'] <+: name.toList) ∧
    found.Pairwise (fun before after =>
      less? (partsOf before.toList) (partsOf after.toList) = some true) ∧
    (∀ others, (∀ name, name ∈ others ↔ name ∈ names) →
      stems others = .ok found) ∧
    ∀ left right, ∃ answer,
      less? (partsOf left) (partsOf right) = some answer ∧
      ∀ leftKey rightKey, NaturalKey.ofName left = .ok leftKey →
        NaturalKey.ofName right = .ok rightKey →
          leftKey.precedes rightKey = answer := by
  obtain ⟨once, members⟩ := nodup_and_mem_of_stems ordered
  obtain ⟨keys, rfl⟩ := (stems_eq_ok_iff _ _).mp ordered
  refine ⟨once, ?_, ?_, ?_, ?_⟩
  · intro stem
    rw [members]
    constructor
    · rintro ⟨name, listed, isExample, named⟩
      obtain ⟨absent, starts⟩ := (stemOf_eq_iff isExample stem).mp named
      exact ⟨absent, name, listed, (isExampleFile_iff name).mp isExample, starts⟩
    · rintro ⟨absent, name, listed, ends, starts⟩
      have isExample := (isExampleFile_iff name).mpr ends
      exact ⟨name, listed, isExample,
        (stemOf_eq_iff isExample stem).mpr ⟨absent, starts⟩⟩
  · exact differ.pairwise_less? once (pairwise_mergeSort_comesFirst _)
  · intro others same
    rw [stems_eq_ok_iff]
    refine ⟨fun name listed => keys name ((same name).mp listed), ?_⟩
    have stemsDiffer : PartsDiffer (exampleStems names) := by
      intro left leftMember right rightMember
      exact differ left (List.mem_mergeSort.mpr leftMember) right
        (List.mem_mergeSort.mpr rightMember)
    exact (stemsDiffer.mergeSort_eq_of_perm (exampleStems_perm same)).symm
  · intro left right
    refine ⟨_, less?_partsOf left right, ?_⟩
    intro leftKey rightKey leftKnown rightKnown
    rw [((ofName_eq_ok_iff _ _).mp leftKnown).2,
      ((ofName_eq_ok_iff _ _).mp rightKnown).2]

theorem stems_mixedScripts :
    stems ["2a.txt", "ex٩.glsl", "ex10.txt"] = .ok ["2a", "ex٩", "ex10"] := by
  let keyed : List (NaturalKey × String) :=
    [(⟨[], [(2, ['a'])]⟩, "2a"), (⟨['e', 'x'], [(9, [])]⟩, "ex٩"),
      (⟨['e', 'x'], [(10, [])]⟩, "ex10")]
  let names := ["2a.txt", "ex٩.glsl", "ex10.txt"]
  have known : withKeys ((names.filter isExampleFile).map stemOf).eraseDups =
      .ok keyed := by
    decide +kernel
  rw [stems, naturalSort, known]
  change Except.ok ((keyed.mergeSort
    fun left right => !right.1.precedes left.1).map Prod.snd) = _
  rw [List.mergeSort_of_pairwise (by decide +kernel)]
  rfl

/-- A number before any text, and the digits of two scripts. -/
theorem stems_in_natural_order_mixedScripts :
    (stems ["2a.txt", "ex٩.glsl", "ex10.txt"] = .ok ["2a", "ex٩", "ex10"] ∧
      PartsDiffer ["2a", "ex٩", "ex10"]) ∧
    stems ["ex10.txt", "ex٩.glsl", "ex10.txt", "2a.txt"] =
      .ok ["2a", "ex٩", "ex10"] ∧
    less? (partsOf "ex٩".toList) (partsOf "ex10".toList) = some true := by
  have differ : PartsDiffer ["2a", "ex٩", "ex10"] := by
    simp only [PartsDiffer, partsOf_eq]
    decide +kernel
  obtain ⟨-, -, increasing, listing, -⟩ :=
    stems_in_natural_order stems_mixedScripts differ
  refine ⟨⟨stems_mixedScripts, differ⟩, listing _ (by grind), ?_⟩
  exact List.rel_of_pairwise_cons increasing.of_cons List.mem_cons_self

end Examples
end ShaderLift
