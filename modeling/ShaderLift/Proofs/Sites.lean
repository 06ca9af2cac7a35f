import ShaderLift.Proofs.Replacement

/-!
# Replacing exactly the sites of a text

A site is a stretch of a text that is to be replaced, told by what stands before
it and behind it.  Exactly the sites are replaced if the text divides into
characters that are kept and stretches that are replaced, and the replaced
stretches are the sites.  There is one such result at most.  A search that finds
nothing inside of what it takes replaces exactly what it finds.
-/

namespace ShaderLift
namespace Text

/-- Say what a stretch of a text becomes.  The arguments are the text before
it, the stretch, the text behind it and its replacement. -/
abbrev Site :=
  List Char → List Char → List Char → List Char → Prop

/-- A character that is kept, or a stretch that is replaced. -/
inductive Piece
  | kept (c : Char)
  | replaced (stretch replacement : List Char)

namespace Piece

/-- What a piece was. -/
def original : Piece → List Char
  | kept c => [c]
  | replaced stretch _ => stretch

/-- What a piece becomes. -/
def written : Piece → List Char
  | kept c => [c]
  | replaced _ replacement => replacement

end Piece

/-- One of the pieces replaces the stretch between the two texts. -/
def ReplacedAt (pieces : List Piece) : Site :=
  fun before stretch after replacement =>
    ∃ front back, pieces = front ++ .replaced stretch replacement :: back ∧
      front.flatMap Piece.original = before ∧
      back.flatMap Piece.original = after

/-- The result is the source with its sites replaced.  Every other character
stays, in order. -/
def ReplacesExactly (site : Site) (source result : List Char) : Prop :=
  ∃ pieces : List Piece,
    pieces.flatMap Piece.original = source ∧
    pieces.flatMap Piece.written = result ∧
    ∀ before stretch after replacement,
      ReplacedAt pieces before stretch after replacement ↔
        source = before ++ (stretch ++ after) ∧
          site before stretch after replacement

/-! ## Where pieces are replaced -/

section Pieces

variable {pieces : List Piece}
variable {before stretch after replacement : List Char}

theorem not_replacedAt_nil :
    ¬ ReplacedAt [] before stretch after replacement := by
  rintro ⟨front, back, divided, -⟩
  simp at divided

theorem replacedAt_kept_iff (c : Char) :
    ReplacedAt (.kept c :: pieces) before stretch after replacement ↔
      ∃ rest, before = c :: rest ∧
        ReplacedAt pieces rest stretch after replacement := by
  constructor
  · rintro ⟨front, back, divided, rfl, rfl⟩
    cases front with
    | nil => simp at divided
    | cons piece front =>
        rw [List.cons_append, List.cons.injEq] at divided
        obtain ⟨rfl, rfl⟩ := divided
        exact ⟨_, rfl, front, back, rfl, rfl, rfl⟩
  · rintro ⟨rest, rfl, front, back, rfl, rfl, rfl⟩
    exact ⟨.kept c :: front, back, rfl, rfl, rfl⟩

theorem replacedAt_replaced_iff (taken written : List Char) :
    ReplacedAt (.replaced taken written :: pieces) before stretch after
        replacement ↔
      (before = [] ∧ stretch = taken ∧ replacement = written ∧
        after = pieces.flatMap Piece.original) ∨
      ∃ rest, before = taken ++ rest ∧
        ReplacedAt pieces rest stretch after replacement := by
  constructor
  · rintro ⟨front, back, divided, rfl, rfl⟩
    cases front with
    | nil =>
        rw [List.nil_append, List.cons.injEq, Piece.replaced.injEq] at divided
        obtain ⟨⟨rfl, rfl⟩, rfl⟩ := divided
        exact Or.inl ⟨rfl, rfl, rfl, rfl⟩
    | cons piece front =>
        rw [List.cons_append, List.cons.injEq] at divided
        obtain ⟨rfl, rfl⟩ := divided
        exact Or.inr ⟨_, rfl, front, back, rfl, rfl, rfl⟩
  · rintro (⟨rfl, rfl, rfl, rfl⟩ | ⟨rest, rfl, front, back, rfl, rfl, rfl⟩)
    · exact ⟨[], pieces, rfl, rfl, rfl⟩
    · exact ⟨.replaced taken written :: front, back, rfl, rfl, rfl⟩

end Pieces

/-! ## One result -/

/-- Behind a piece that is not empty, the same is replaced as without it. -/
theorem replacedAt_cons_iff
    {piece : Piece}
    (present : piece.original ≠ [])
    {pieces : List Piece}
    {before stretch after replacement : List Char} :
    ReplacedAt (piece :: pieces) (piece.original ++ before) stretch after
        replacement ↔
      ReplacedAt pieces before stretch after replacement := by
  cases piece with
  | kept c => simp [replacedAt_kept_iff, Piece.original]
  | replaced taken written =>
      rw [replacedAt_replaced_iff]
      simp_all [Piece.original]

/-- Pieces of one text start alike if they agree on the stretch with nothing
before it. -/
theorem piece_eq_of_agree
    {piece other : Piece}
    {pieces others : List Piece}
    (present : other.original ≠ [])
    (same : (piece :: pieces).flatMap Piece.original =
      (other :: others).flatMap Piece.original)
    (agree : ∀ stretch after replacement,
      ReplacedAt (piece :: pieces) [] stretch after replacement ↔
        ReplacedAt (other :: others) [] stretch after replacement) :
    piece = other := by
  have starts (taken written : List Char) (pieces : List Piece) :
      ReplacedAt (.replaced taken written :: pieces) [] taken
        (pieces.flatMap Piece.original) written :=
    ⟨[], pieces, rfl, rfl, rfl⟩
  have keeps (c : Char) (pieces : List Piece)
      (stretch after replacement : List Char) :
      ¬ ReplacedAt (.kept c :: pieces) [] stretch after replacement := by
    simp [replacedAt_kept_iff]
  cases piece with
  | kept c =>
      cases other with
      | kept d => exact congrArg Piece.kept (List.cons.inj same).1
      | replaced taken written =>
          exact absurd ((agree _ _ _).mpr (starts taken written others))
            (keeps c pieces _ _ _)
  | replaced taken written =>
      have first := (agree _ _ _).mp (starts taken written pieces)
      cases other with
      | kept d => exact absurd first (keeps d others _ _ _)
      | replaced taken' written' =>
          rw [replacedAt_replaced_iff] at first
          rcases first with ⟨-, rfl, rfl, -⟩ | ⟨rest, nothing, -⟩
          · rfl
          · exact absurd (List.append_eq_nil_iff.mp nothing.symm).1 present

/-- Pieces of one text that replace the same stretches are the same, unless some
are empty. -/
theorem pieces_eq_of_agree
    {pieces others : List Piece}
    (present : ∀ piece ∈ pieces, piece.original ≠ [])
    (present' : ∀ piece ∈ others, piece.original ≠ [])
    (same : pieces.flatMap Piece.original = others.flatMap Piece.original)
    (agree : ∀ before stretch after replacement,
      ReplacedAt pieces before stretch after replacement ↔
        ReplacedAt others before stretch after replacement) :
    pieces = others := by
  induction pieces generalizing others with
  | nil =>
      cases others with
      | nil => rfl
      | cons other others =>
          obtain ⟨nothing, -⟩ := List.append_eq_nil_iff.mp same.symm
          exact absurd nothing (present' other List.mem_cons_self)
  | cons piece pieces inductionHypothesis =>
      have first := present piece List.mem_cons_self
      cases others with
      | nil => exact absurd (List.append_eq_nil_iff.mp same).1 first
      | cons other others =>
          obtain rfl := piece_eq_of_agree
            (present' other List.mem_cons_self) same (agree [])
          congr 1
          refine inductionHypothesis
            (fun later member => present later (List.mem_cons_of_mem _ member))
            (fun later member => present' later (List.mem_cons_of_mem _ member))
            (List.append_cancel_left same) ?_
          intro before stretch after replacement
          exact (replacedAt_cons_iff first).symm.trans
            ((agree _ _ _ _).trans (replacedAt_cons_iff first))

namespace ReplacesExactly

variable {site : Site} {source : List Char}

/-- Pieces that replace the sites are not empty if no site is. -/
theorem original_ne_nil
    (present : ∀ before after replacement, ¬ site before [] after replacement)
    {pieces : List Piece}
    (sites : ∀ before stretch after replacement,
      ReplacedAt pieces before stretch after replacement ↔
        source = before ++ (stretch ++ after) ∧
          site before stretch after replacement)
    {piece : Piece}
    (member : piece ∈ pieces) : piece.original ≠ [] := by
  cases piece with
  | kept c => simp [Piece.original]
  | replaced stretch replacement =>
      rintro rfl
      obtain ⟨front, back, divided⟩ := List.append_of_mem member
      have isSite := (sites _ _ _ _).mp ⟨front, back, divided, rfl, rfl⟩
      exact present _ _ _ isSite.2

/-- There is one way to replace exactly the sites. -/
theorem unique
    (present : ∀ before after replacement, ¬ site before [] after replacement)
    {result other : List Char}
    (replaces : ReplacesExactly site source result)
    (replaces' : ReplacesExactly site source other) : result = other := by
  obtain ⟨pieces, divided, rfl, sites⟩ := replaces
  obtain ⟨pieces', divided', rfl, sites'⟩ := replaces'
  have same : pieces = pieces' := by
    refine pieces_eq_of_agree
      (fun piece member => original_ne_nil present sites member)
      (fun piece member => original_ne_nil present sites' member)
      (divided.trans divided'.symm) ?_
    intro before stretch after replacement
    rw [sites, sites']
  rw [same]

/-- What is replaced depends on the sites of the source alone. -/
theorem congr
    {other : Site}
    {result : List Char}
    (same : ∀ before stretch after replacement,
      source = before ++ (stretch ++ after) →
        (site before stretch after replacement ↔
          other before stretch after replacement))
    (replaces : ReplacesExactly site source result) :
    ReplacesExactly other source result := by
  obtain ⟨pieces, divided, written, sites⟩ := replaces
  refine ⟨pieces, divided, written, ?_⟩
  intro before stretch after replacement
  rw [sites]
  exact and_congr_right (same before stretch after replacement)

end ReplacesExactly

/-! ## Searches -/

/-- The search finds the stretch at its place, as a whole. -/
def Search.finds (search : Search) : Site :=
  fun before stretch after replacement =>
    search before.getLast? (stretch ++ after) =
      some ⟨stretch.length, replacement⟩

/-- Occurrences do not overlap: something is taken, no more than there is, and
nothing is found at a later place inside of it. -/
structure Search.IsSeparate (search : Search) : Prop where
  bounded : search.IsBounded
  taken : ∀ before text replacement, search before text ≠ some ⟨0, replacement⟩
  apart : ∀ before front c back rest replacement,
    search before (front ++ c :: back ++ rest) =
      some ⟨(front ++ c :: back).length, replacement⟩ →
    front ≠ [] → search front.getLast? (c :: back ++ rest) = none

/-- A place where a search without overlaps finds something in a text that starts
with an occurrence: it is that occurrence, or it is behind it. -/
theorem Search.IsSeparate.found_cases
    {search : Search}
    (separate : search.IsSeparate)
    {previous : Option Char}
    {taken rest replacement : List Char}
    (found : search previous (taken ++ rest) =
      some ⟨taken.length, replacement⟩)
    {before stretch after replacement' : List Char}
    (divided : taken ++ rest = before ++ (stretch ++ after))
    (later : search (before.getLast?.or previous) (stretch ++ after) =
      some ⟨stretch.length, replacement'⟩) :
    (before = [] ∧ stretch = taken ∧ replacement' = replacement ∧
        after = rest) ∨
      ∃ front, before = taken ++ front ∧ rest = front ++ (stretch ++ after) := by
  rcases List.append_eq_append_iff.mp divided with
    ⟨front, equal, behind⟩ | ⟨back, rfl, behind⟩
  · exact Or.inr ⟨front, equal, behind⟩
  · cases before with
    | nil =>
        rw [List.nil_append, ← behind] at found
        obtain ⟨length, rfl⟩ := Occurrence.mk.inj
          (Option.some.inj (found.symm.trans later))
        obtain ⟨rfl, rfl⟩ := List.append_inj behind length.symm
        exact Or.inl ⟨rfl, rfl, rfl, rfl⟩
    | cons d ds =>
        cases back with
        | nil => exact Or.inr ⟨[], by simp, behind.symm⟩
        | cons c back =>
            have absent := separate.apart _ _ _ _ _ _ found (by simp)
            rw [behind, List.getLast?_cons, Option.some_or,
              ← List.getLast?_cons] at later
            exact absurd (absent.symm.trans later) (by simp)

/-- The walk of a search without overlaps replaces exactly what is found. -/
theorem exists_pieces_of_replaced
    {search : Search}
    (separate : search.IsSeparate)
    {previous : Option Char}
    {text written : List Char}
    (replaced : Replaced search previous text written) :
    ∃ pieces : List Piece,
      pieces.flatMap Piece.original = text ∧
      pieces.flatMap Piece.written = written ∧
      ∀ before stretch after replacement,
        ReplacedAt pieces before stretch after replacement ↔
          text = before ++ (stretch ++ after) ∧
            search (before.getLast?.or previous) (stretch ++ after) =
              some ⟨stretch.length, replacement⟩ := by
  induction replaced with
  | nil =>
      refine ⟨[], rfl, rfl, ?_⟩
      intro before stretch after replacement
      refine iff_of_false not_replacedAt_nil ?_
      rintro ⟨nothing, found⟩
      obtain ⟨rfl, rest⟩ := List.append_eq_nil_iff.mp nothing.symm
      obtain ⟨rfl, rfl⟩ := List.append_eq_nil_iff.mp rest
      exact separate.taken _ _ _ found
  | @keep previous c rest written absent _ inductionHypothesis =>
      obtain ⟨pieces, rfl, rfl, sites⟩ := inductionHypothesis
      refine ⟨.kept c :: pieces, rfl, rfl, ?_⟩
      intro before stretch after replacement
      rw [replacedAt_kept_iff]
      constructor
      · rintro ⟨front, rfl, isSite⟩
        obtain ⟨divided, found⟩ := (sites _ _ _ _).mp isSite
        rw [divided, getLast?_cons_or]
        exact ⟨rfl, found⟩
      · rintro ⟨divided, found⟩
        cases before with
        | nil =>
            rw [List.nil_append] at divided
            rw [← divided] at found
            exact absurd (absent.symm.trans found) (by simp)
        | cons d front =>
            rw [List.cons_append, List.cons.injEq] at divided
            obtain ⟨rfl, divided⟩ := divided
            rw [getLast?_cons_or] at found
            exact ⟨front, rfl, (sites _ _ _ _).mpr ⟨divided, found⟩⟩
  | insert found _ _ => exact absurd found (separate.taken _ _ _)
  | @replace previous taken rest replacement written found present _
      inductionHypothesis =>
      obtain ⟨pieces, rfl, rfl, sites⟩ := inductionHypothesis
      refine ⟨.replaced taken replacement :: pieces, rfl, rfl, ?_⟩
      intro before stretch after replacement'
      rw [replacedAt_replaced_iff]
      constructor
      · rintro (⟨rfl, rfl, rfl, rfl⟩ | ⟨front, rfl, isSite⟩)
        · exact ⟨rfl, found⟩
        · obtain ⟨divided, later⟩ := (sites _ _ _ _).mp isSite
          rw [divided, getLast?_append_or present, List.append_assoc]
          exact ⟨rfl, later⟩
      · rintro ⟨divided, later⟩
        refine (separate.found_cases found divided later).imp_right ?_
        rintro ⟨front, rfl, behind⟩
        rw [getLast?_append_or present] at later
        exact ⟨front, rfl, (sites _ _ _ _).mpr ⟨behind, later⟩⟩

/-- A search without overlaps replaces exactly what it finds. -/
theorem replacesExactly_replaceAll
    {search : Search}
    (separate : search.IsSeparate)
    (source : List Char) :
    ReplacesExactly search.finds source (replaceAll search source) := by
  obtain ⟨pieces, divided, written, sites⟩ := exists_pieces_of_replaced separate
    (replaced_replaceAll separate.bounded source)
  refine ⟨pieces, divided, written, ?_⟩
  intro before stretch after replacement
  rw [sites, Option.or_none]
  rfl

end Text
end ShaderLift
