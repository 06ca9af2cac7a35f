import ShaderLift.Proofs.DirectiveLines

/-!
# Aliases of one text behind another

A text that ends with a line, and not in the middle of a directive, does not
affect how the text behind it is divided.  So the directives of both texts
together are those of the one and then those of the other, and what is recorded
is the first table updated by the second: known aliases keep their places and
take their later values, and new ones follow in their own order.
-/

namespace ShaderLift
namespace Shader
namespace Define

open Text

/-- The text is empty, or its last line is closed by a line end with no backslash
before it. -/
def EndsOutside (text : List Char) : Prop :=
  ∀ line ∈ (closedLines text).getLast?, ['\n'] <:+ line ∧ ¬ EndsInBackslash line

instance (text : List Char) : Decidable (EndsOutside text) :=
  inferInstanceAs (Decidable (∀ line ∈ (closedLines text).getLast?, _ ∧ _))

/-- The names of a table, in order. -/
def Table.names (table : Table) : List String :=
  table.map Define.name

/-- The aliases of a table with their values in a later one, if they are there
again. -/
def Table.revised (table later : Table) : Table :=
  table.map fun define =>
    ⟨define.name, (later.find? define.name).getD define.value⟩

/-- The aliases of a later table that are new. -/
def Table.additions (table later : Table) : Table :=
  later.filter fun define => define.name ∉ table.names

/-- A table updated by a later one: its aliases keep their places and take their
later values, and the new aliases follow in their own order. -/
def Table.updated (table later : Table) : Table :=
  table.revised later ++ table.additions later

/-! ## Recording one definition -/

namespace Table

theorem names_cons
    (define : Define)
    (rest : Table) : names (define :: rest) = define.name :: names rest :=
  rfl

theorem find?_cons
    (define : Define)
    (rest : Table)
    (name : String) :
    find? (define :: rest) name =
      if define.name = name then some define.value else rest.find? name := by
  by_cases same : define.name = name <;> simp [find?, same]

theorem names_set
    (table : Table)
    (added : Define) :
    (table.set added).names =
      if added.name ∈ table.names then table.names
      else table.names ++ [added.name] := by
  induction table with
  | nil => rfl
  | cons define rest inductionHypothesis =>
      rw [set]
      by_cases same : define.name = added.name
      · simp [same, names_cons]
      · simp only [if_neg same, names_cons, inductionHypothesis, List.mem_cons,
          Ne.symm same, false_or]
        split <;> rfl

theorem find?_set
    (table : Table)
    (added : Define)
    (name : String) :
    (table.set added).find? name =
      if added.name = name then some added.value else table.find? name := by
  induction table with
  | nil => rw [set, find?_cons]
  | cons define rest inductionHypothesis =>
      rw [set]
      by_cases same : define.name = added.name
      · rw [if_pos same, find?_cons, find?_cons, same]
        by_cases named : added.name = name <;> simp [named]
      · simp only [if_neg same, find?_cons, inductionHypothesis]
        by_cases other : define.name = name
        · simp [other, Ne.symm (other ▸ same)]
        · simp [other]

theorem set_append
    (first second : Table)
    (added : Define) :
    Table.set (first ++ second) added =
      if added.name ∈ first.names then first.set added ++ second
      else first ++ second.set added := by
  induction first with
  | nil => simp [names]
  | cons define rest inductionHypothesis =>
      rw [List.cons_append, set, set, inductionHypothesis]
      by_cases same : define.name = added.name
      · simp [same, names_cons]
      · simp only [if_neg same, names_cons, List.mem_cons, Ne.symm same, false_or]
        split <;> rfl

/-- A known alias takes its new value where it stands. -/
theorem set_eq_map
    {table : Table}
    (unique : table.names.Nodup)
    {added : Define}
    (known : added.name ∈ table.names) :
    table.set added =
      table.map fun define => if define.name = added.name then added else define := by
  induction table with
  | nil => exact nomatch known
  | cons define rest inductionHypothesis =>
      rw [names_cons, List.nodup_cons] at unique
      rw [set, List.map_cons]
      by_cases same : define.name = added.name
      · have others : ∀ other ∈ rest, other.name ≠ added.name := by
          intro other member equal
          exact unique.1 (List.mem_map.mpr ⟨other, member, equal.trans same.symm⟩)
        have kept : rest.map (fun define =>
            if define.name = added.name then added else define) = rest :=
          (List.map_congr_left fun other member =>
            if_neg (others other member)).trans (List.map_id' rest)
        rw [if_pos same, if_pos same, kept]
      · rw [names_cons, List.mem_cons] at known
        rw [if_neg same, if_neg same, inductionHypothesis unique.2
          (known.resolve_left (Ne.symm same))]

theorem names_revised (table later : Table) :
    (table.revised later).names = table.names := by
  simp [names, revised]

theorem revised_set
    {table : Table}
    (unique : table.names.Nodup)
    (later : Table)
    (added : Define) :
    table.revised (later.set added) =
      if added.name ∈ table.names then (table.revised later).set added
      else table.revised later := by
  split
  · next known =>
      rw [← names_revised table later] at unique known
      rw [set_eq_map unique known, revised, revised, List.map_map]
      refine List.map_congr_left fun define _ => ?_
      rw [find?_set, Function.comp_apply]
      by_cases same : define.name = added.name
      · simp [same]
      · simp [same, Ne.symm same]
  · next unknown =>
      refine List.map_congr_left fun define member => ?_
      have other : added.name ≠ define.name := by
        intro same
        exact unknown (same ▸ List.mem_map.mpr ⟨define, member, rfl⟩)
      rw [find?_set, if_neg other]

theorem additions_set
    (table later : Table)
    (added : Define) :
    table.additions (later.set added) =
      if added.name ∈ table.names then table.additions later
      else (table.additions later).set added := by
  induction later with
  | nil => by_cases known : added.name ∈ table.names <;> simp [additions, set, known]
  | cons define rest inductionHypothesis =>
      rw [set]
      by_cases same : define.name = added.name
      · by_cases known : added.name ∈ table.names <;>
          simp [additions, same, known, set]
      · rw [if_neg same]
        simp only [additions] at inductionHypothesis ⊢
        rw [List.filter_cons, List.filter_cons, inductionHypothesis]
        by_cases known : added.name ∈ table.names <;>
          by_cases old : define.name ∈ table.names <;>
            simp [known, old, set, same]

/-- Updating by a table with one definition more records this definition. -/
theorem updated_set
    {table : Table}
    (unique : table.names.Nodup)
    (later : Table)
    (added : Define) :
    table.updated (later.set added) = (table.updated later).set added := by
  -- A known alias is revised in its place, a new one is recorded behind.
  rw [updated, updated, revised_set unique, additions_set, set_append,
    names_revised]
  split <;> rfl

theorem nodup_names_set
    {table : Table}
    (unique : table.names.Nodup)
    (added : Define) : (table.set added).names.Nodup := by
  rw [names_set]
  split
  · exact unique
  · next new => exact List.nodup_append.mpr ⟨unique, by simp, by
      rintro name member _ (_ | ⟨_, ⟨⟩⟩) rfl
      exact new member⟩

/-- Recording definitions one by one is updating by the table of them alone. -/
theorem foldl_set
    {table : Table}
    (unique : table.names.Nodup)
    (defines : List Define) :
    defines.foldl set table = table.updated (defines.foldl set []) := by
  induction defines using List.reverseRecOn with
  | nil => simp [updated, revised, additions, find?]
  | append_singleton front added inductionHypothesis =>
      rw [List.foldl_append, List.foldl_append, List.foldl_cons, List.foldl_cons,
        List.foldl_nil, List.foldl_nil, inductionHypothesis, updated_set unique]

end Table

/-! ## Directives -/

theorem value_record_eq
    (table : Table)
    (directives : List (List Char)) :
    (record table directives).value =
      (directives.filterMap ofDirective?).foldl Table.set table := by
  induction directives generalizing table with
  | nil => rfl
  | cons directive rest inductionHypothesis =>
      rw [value_record_cons, inductionHypothesis]
      cases read : ofDirective? directive with
      | none => rw [List.filterMap_cons_none read]; rfl
      | some define => rw [List.filterMap_cons_some read]; rfl

theorem nodup_names_record
    {table : Table}
    (unique : table.names.Nodup)
    (directives : List (List Char)) :
    (record table directives).value.names.Nodup := by
  rw [value_record_eq]
  induction directives.filterMap ofDirective? generalizing table with
  | nil => exact unique
  | cons define rest inductionHypothesis =>
      exact inductionHypothesis (Table.nodup_names_set unique define)

/-- Lines behind a line that does not go on are sorted on their own. -/
theorem partsOfLines_append_cons
    {last : List Char}
    (ended : isContinued last = false)
    (begun : Option (List Char))
    (lines rest : List (List Char)) :
    partsOfLines begun (lines ++ last :: rest) =
      partsOfLines begun (lines ++ [last]) ++ partsOfLines none rest := by
  induction lines generalizing begun with
  | nil =>
      cases begun with
      | none =>
          simp only [List.nil_append, partsOfLines, ended]
          split <;> rfl
      | some begun => simp [partsOfLines, ended]
  | cons line more inductionHypothesis =>
      cases begun with
      | none =>
          simp only [List.cons_append, partsOfLines, inductionHypothesis]
          split
          · split <;> rfl
          · rfl
      | some begun =>
          simp only [List.cons_append, partsOfLines, inductionHypothesis]
          split <;> rfl

/-- A text whose last line is closed by a line end does not affect the lines
behind it. -/
theorem closedLines_append
    {first : List Char}
    (outside : EndsOutside first)
    (second : List Char) :
    closedLines (first ++ second) = closedLines first ++ closedLines second := by
  have ends : ∀ line ∈ closedLines first, ∃ front, line = front ++ ['\n'] := by
    have earlier := Name.closed_closedLines first
    rcases List.eq_nil_or_concat (closedLines first) with none | ⟨front, last, whole⟩
    · simp [none]
    · rw [List.concat_eq_append] at whole
      obtain ⟨⟨start, ended⟩, -⟩ := outside last (by simp [whole])
      rw [whole] at earlier ⊢
      intro line member
      rcases List.mem_append.mp member with before | isLast
      · exact (List.pairwise_append.mp earlier).2.2 line before last (by simp)
      · exact ⟨start, by rw [List.mem_singleton.mp isLast, ended]⟩
  have whole : (closedLines first ++ closedLines second).flatten =
      first ++ second := by
    rw [List.flatten_append, flatten_closedLines, flatten_closedLines]
  rw [← whole]
  refine closedLines_flatten ?_ ?_
  · exact List.pairwise_append.mpr ⟨Name.closed_closedLines first,
      Name.closed_closedLines second, fun line member _ _ => ends line member⟩
  · exact List.forall_mem_append.mpr
      ⟨isLine_closedLines first, isLine_closedLines second⟩

section Append

variable {first : List Char}

theorem parts_append
    (outside : EndsOutside first)
    (second : List Char) : parts (first ++ second) = parts first ++ parts second := by
  rw [parts, closedLines_append outside, parts, parts]
  rcases List.eq_nil_or_concat (closedLines first) with none | ⟨front, last, whole⟩
  · rw [none]
    rfl
  · rw [List.concat_eq_append] at whole
    have ended : isContinued last = false := by
      have free := (outside last (by simp [whole])).2
      rwa [← isContinued_iff, Bool.not_eq_true] at free
    rw [whole, List.append_assoc, List.singleton_append]
    exact partsOfLines_append_cons ended none front _

theorem strip_append
    (outside : EndsOutside first)
    (second : List Char) : strip (first ++ second) = strip first ++ strip second := by
  simp only [strip, parts_append outside, List.filterMap_append,
    List.flatten_append]

theorem directives_append
    (outside : EndsOutside first)
    (second : List Char) :
    directives (first ++ second) = directives first ++ directives second := by
  simp only [directives, parts_append outside, List.filterMap_append,
    List.map_append]

end Append

/-- The aliases and the rest of two texts, if the first one ends with a line and
not in the middle of a directive. -/
theorem extract_append
    (first : List Char)
    (outside : EndsOutside first)
    (second : List Char) :
    (extract (first ++ second)).value =
      ((extract first).value.1.updated (extract second).value.1,
        (extract first).value.2 ++ (extract second).value.2) := by
  have unique : (record [] (directives first)).value.names.Nodup :=
    nodup_names_record (by simp [Table.names]) _
  have both : (record [] (directives (first ++ second))).value =
      (record [] (directives first)).value.updated
        (record [] (directives second)).value := by
    rw [value_record_eq] at unique
    rw [directives_append outside, value_record_eq, value_record_eq,
      value_record_eq, List.filterMap_append, List.foldl_append]
    exact Table.foldl_set unique _
  exact Prod.ext both (strip_append outside second)

/-- Two aliases, a directive of two lines, and a line of code. -/
def firstAliases : List Char :=
  ("#define t iTime\n#define r iResolution.xy\n#define f(x) \\\r\n x\n" ++
    "float a;\n").toList

/-- A new alias, then an old one again, and a line of code. -/
def moreAliases : List Char :=
  "#define m iMouse\n  #define t iDate\nfloat b;".toList

theorem extract_append_moreAliases :
    EndsOutside firstAliases ∧
      (extract (firstAliases ++ moreAliases)).value =
        ((extract firstAliases).value.1.updated (extract moreAliases).value.1,
          (extract firstAliases).value.2 ++ (extract moreAliases).value.2) ∧
      (extract (firstAliases ++ moreAliases)).value.1 =
        [⟨"t", "iDate"⟩, ⟨"r", "iResolution.xy"⟩, ⟨"m", "iMouse"⟩] := by
  have outside : EndsOutside firstAliases := by decide +kernel
  exact ⟨outside, extract_append firstAliases outside moreAliases,
    by decide +kernel⟩

end Define
end Shader
end ShaderLift
