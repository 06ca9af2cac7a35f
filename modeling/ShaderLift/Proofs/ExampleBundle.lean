import ShaderLift.Proofs.Delivery
import ShaderLift.Proofs.DirectoryFiles

/-!
# What a bundle holds

A bundle goes through the stems of a directory's files.  The block of an example
is a function of its stem and of what stands at the places of its two files.
The report is the concatenation of the blocks there are, the two counts add up to
the number of stems, and nothing but the report is written.
-/

namespace ShaderLift
namespace Examples

open Text

/-! ## Stems -/

theorem map_snd_of_withKeys
    {names : List String}
    {keyed : List (NaturalKey × String)}
    (known : withKeys names = .ok keyed) : keyed.map Prod.snd = names := by
  induction names generalizing keyed with
  | nil =>
      obtain rfl := Except.ok.inj known
      rfl
  | cons name rest inductionHypothesis =>
      rw [withKeys] at known
      cases first : NaturalKey.ofName name.toList with
      | error error => rw [first] at known; exact nomatch known
      | ok key =>
          cases others : withKeys rest with
          | error error => rw [first, others] at known; exact nomatch known
          | ok later =>
              rw [first, others] at known
              obtain rfl := Except.ok.inj known
              rw [List.map_cons, inductionHypothesis others]

/-- Sorting keeps the names. -/
theorem perm_of_naturalSort
    {names sorted : List String}
    (ordered : naturalSort names = .ok sorted) : sorted.Perm names := by
  rw [naturalSort] at ordered
  cases known : withKeys names with
  | error error => rw [known] at ordered; exact nomatch ordered
  | ok keyed =>
      rw [known] at ordered
      obtain rfl := Except.ok.inj ordered
      rw [← map_snd_of_withKeys known]
      exact (List.mergeSort_perm keyed _).map Prod.snd

theorem nodup_eraseDups (names : List String) : names.eraseDups.Nodup := by
  induction counted : names.length using Nat.strongRecOn generalizing names with
  | ind count inductionHypothesis =>
      cases names with
      | nil => exact List.nodup_nil
      | cons name rest =>
          rw [List.eraseDups_cons, List.nodup_cons]
          refine ⟨?_, inductionHypothesis _ ?_ _ rfl⟩
          · rw [List.mem_eraseDups, List.mem_filter]
            simp
          · rw [← counted]
            exact Nat.lt_succ_of_le (List.length_filter_le _ rest)

/-- The stems are those of the examples' files, each once. -/
theorem nodup_and_mem_of_stems
    {names found : List String}
    (ordered : stems names = .ok found) :
    found.Nodup ∧ ∀ stem, stem ∈ found ↔
      ∃ name ∈ names, isExampleFile name = true ∧ stemOf name = stem := by
  have same := perm_of_naturalSort ordered
  refine ⟨same.nodup_iff.mpr (nodup_eraseDups _), ?_⟩
  intro stem
  rw [same.mem_iff, List.mem_eraseDups, List.mem_map]
  constructor
  · rintro ⟨name, member, rfl⟩
    obtain ⟨listed, isExample⟩ := List.mem_filter.mp member
    exact ⟨name, listed, isExample, rfl⟩
  · rintro ⟨name, listed, isExample, rfl⟩
    exact ⟨name, List.mem_filter.mpr ⟨listed, isExample⟩, rfl⟩

/-- How the names of an example's files end. -/
def endings : List String :=
  [descriptionEnding, shaderEnding]

theorem mem_endings {ending : String} :
    ending ∈ endings ↔ ending = descriptionEnding ∨ ending = shaderEnding := by
  simp [endings]

/-- A text without a dot is the stem of every name that it starts and a dot
goes on. -/
theorem stemOf_append
    {stem ending : String}
    (whole : '.' ∉ stem.toList)
    (ends : ending ∈ endings) : stemOf (stem ++ ending) = stem := by
  have kept : ∀ c ∈ stem.toList, (c != '.') = true := by
    intro c member
    rw [bne_iff_ne]
    rintro rfl
    exact whole member
  have stops : ending.toList.takeWhile (· != '.') = [] := by
    rcases mem_endings.mp ends with rfl | rfl <;> rfl
  rw [stemOf, String.toList_append, List.takeWhile_append_of_pos kept, stops,
    List.append_nil, String.ofList_toList]

theorem isExampleFile_append
    {ending : String}
    (ends : ending ∈ endings)
    (stem : String) : isExampleFile (stem ++ ending) = true := by
  have closes : endsWith (stem ++ ending) ending = true := by
    rw [endsWith_iff, String.toList_append]
    exact List.suffix_append _ _
  rw [isExampleFile, Bool.or_eq_true]
  rcases mem_endings.mp ends with rfl | rfl
  · exact Or.inl closes
  · exact Or.inr closes

theorem not_mem_stemOf (name : String) : '.' ∉ (stemOf name).toList := by
  rw [stemOf, String.toList_ofList]
  intro member
  have kept := List.all_eq_true.mp List.all_takeWhile '.' member
  exact absurd kept (by decide)

/-! ## Blocks -/

/-- The trimmed texts of an example's two files, if both are there and are
texts. -/
def textsIn?
    (store : FileStore)
    (place : FilePlace)
    (stem : String) : Option (String × String) := do
  let description ← store.textAt? (place ++ [stem ++ descriptionEnding])
  let shader ← store.textAt? (place ++ [stem ++ shaderEnding])
  pure (String.ofList (trim description), String.ofList (trim shader))

/-- The block of an example that is read from a directory, if its shader can be
converted. -/
def blockIn?
    (store : FileStore)
    (place : FilePlace)
    (dialect : Dialect)
    (stem : String) : Option String :=
  (textsIn? store place stem).bind fun texts =>
    (Conversion.convert (some texts.2) dialect
      (some (stem ++ shaderEnding))).value.code.map
        (block (labelOf stem) texts.1)

/-- A directory of examples and a report that can be written.  The names of the
files have an order, and none of them holds a slash. -/
structure CanBundle
    (store : FileStore)
    (directory : String)
    (output : Option String)
    (place target : FilePlace)
    (found : List String) : Prop where
  rooted : store.IsRooted
  located : store.locate (Path.plain directory) = .ok place
  isDirectory : store.get? place = some .directory
  areNames : ∀ name ∈ store.fileNames (Path.plain directory), '/' ∉ name.toList
  ordered : stems (store.fileNames (Path.plain directory)) = .ok found
  writable : store.locateFile (reportPath store output) = .ok target

section Bundle

variable {store : FileStore} {directory : String} {output : Option String}
variable {place target : FilePlace} {found : List String} {stem : String}

theorem isFileName_append
    {ending : String}
    (single : '/' ∉ stem.toList)
    (ends : ending ∈ endings) : Path.IsFileName (stem ++ ending) := by
  have plainEnding : 2 < ending.length ∧ '/' ∉ ending.toList := by
    rcases mem_endings.mp ends with rfl | rfl <;> decide
  have long : 2 < (stem ++ ending).length := by
    rw [String.length_append]
    exact Nat.lt_add_left _ plainEnding.1
  have differs {short : String} (few : short.length ≤ 2) : stem ++ ending ≠ short :=
    fun same => absurd (same ▸ long) (Nat.not_lt_of_le few)
  refine ⟨?_, differs (by decide), ?_⟩
  · rw [Path.isName, Bool.and_eq_true, bne_iff_ne, bne_iff_ne]
    exact ⟨differs (by decide), differs (by decide)⟩
  · rw [String.toList_append, List.mem_append]
    exact fun slash => slash.elim single plainEnding.2

theorem CanBundle.not_mem_stem
    (can : CanBundle store directory output place target found)
    (member : stem ∈ found) : '/' ∉ stem.toList ∧ '.' ∉ stem.toList := by
  obtain ⟨name, listed, -, rfl⟩ :=
    ((nodup_and_mem_of_stems can.ordered).2 stem).mp member
  refine ⟨?_, not_mem_stemOf name⟩
  rw [stemOf, String.toList_ofList]
  exact fun slash =>
    can.areNames name listed ((List.takeWhile_prefix _).subset slash)

/-- An example is read from its two places. -/
theorem CanBundle.toOption_readExample
    (can : CanBundle store directory output place target found)
    (single : '/' ∉ stem.toList) :
    (readExample store (Path.plain directory) stem).toOption =
      textsIn? store place stem := by
  have first := FileStore.toOption_readText_child can.rooted can.located
    can.isDirectory (isFileName_append single (mem_endings.mpr (Or.inl rfl)))
  have second := FileStore.toOption_readText_child can.rooted can.located
    can.isDirectory (isFileName_append single (mem_endings.mpr (Or.inr rfl)))
  rw [readExample, textsIn?, ← first, ← second]
  cases store.readText
      (Path.child (Path.plain directory) (stem ++ descriptionEnding)) with
  | error problem => rfl
  | ok description =>
      cases store.readText
        (Path.child (Path.plain directory) (stem ++ shaderEnding)) <;> rfl

/-- An example that cannot be read has no block. -/
theorem value_blockOf_of_error
    {error : FileStore.ReadError}
    (fails : readExample store directory stem = .error error)
    (names : List String)
    (dialect : Dialect) :
    (blockOf store directory names dialect stem).value = none := by
  rw [blockOf, fails]
  split
  · rfl
  · split <;> rfl

/-- An example that is listed and read has a block if it can be converted. -/
theorem value_blockOf_of_ok
    {names : List String}
    {texts : String × String}
    (listed : ∀ ending ∈ endings, stem ++ ending ∈ names)
    (read : readExample store directory stem = .ok texts)
    (dialect : Dialect) :
    (blockOf store directory names dialect stem).value =
      (Conversion.convert (some texts.2) dialect
        (some (stem ++ shaderEnding))).value.code.map
          (block (labelOf stem) texts.1) := by
  have described : names.contains (stem ++ descriptionEnding) = true :=
    List.contains_iff_mem.mpr (listed _ (mem_endings.mpr (Or.inl rfl)))
  have shaded : names.contains (stem ++ shaderEnding) = true :=
    List.contains_iff_mem.mpr (listed _ (mem_endings.mpr (Or.inr rfl)))
  rw [blockOf, described, shaded, read, ← Conversion.toOption_unwrap_convert]
  change (Conversion.convert (some texts.2) dialect
    (some (stem ++ shaderEnding)) >>= _).value = _
  rw [Logged.value_bind]
  cases (Conversion.convert (some texts.2) dialect
    (some (stem ++ shaderEnding))).value.unwrap <;> rfl

/-- What is read is listed. -/
theorem CanBundle.mem_fileNames
    {texts : String × String}
    (can : CanBundle store directory output place target found)
    (held : textsIn? store place stem = some texts) :
    ∀ ending ∈ endings,
      stem ++ ending ∈ store.fileNames (Path.plain directory) := by
  obtain ⟨description, first, later⟩ := Option.bind_eq_some_iff.mp held
  obtain ⟨shader, second, -⟩ := Option.bind_eq_some_iff.mp later
  intro ending ends
  rcases mem_endings.mp ends with rfl | rfl
  · exact FileStore.mem_fileNames_of_textAt? can.located first
  · exact FileStore.mem_fileNames_of_textAt? can.located second

/-- The block of an example is the one in its two places. -/
theorem CanBundle.value_blockOf
    (can : CanBundle store directory output place target found)
    (member : stem ∈ found)
    (dialect : Dialect) :
    (blockOf store (Path.plain directory)
        (store.fileNames (Path.plain directory)) dialect stem).value =
      blockIn? store place dialect stem := by
  -- The names are looked up before the files are read, but what can be read is
  -- listed, so reading alone decides.
  have held := can.toOption_readExample (can.not_mem_stem member).1
  rw [blockIn?, ← held]
  cases read : readExample store (Path.plain directory) stem with
  | error problem => exact value_blockOf_of_error read _ dialect
  | ok texts =>
      rw [read] at held
      exact value_blockOf_of_ok (can.mem_fileNames held.symm) read dialect

/-! ## Reports -/

theorem value_blocksOf
    (store : FileStore)
    (directory : String)
    (names : List String)
    (dialect : Dialect)
    (found : List String) :
    (blocksOf store directory names dialect found).value =
      found.map fun stem => (blockOf store directory names dialect stem).value := by
  induction found with
  | nil => rfl
  | cons stem rest inductionHypothesis =>
      rw [blocksOf, List.map_cons, ← inductionHypothesis]
      rfl

/-- The blocks that there are, in the order of their stems. -/
theorem CanBundle.value_blocksOf
    (can : CanBundle store directory output place target found)
    (dialect : Dialect) :
    (blocksOf store (Path.plain directory)
        (store.fileNames (Path.plain directory)) dialect found).value =
      found.map (blockIn? store place dialect) := by
  rw [Examples.value_blocksOf]
  exact List.map_congr_left fun stem member => can.value_blockOf member dialect

/-- The blocks that the report on some stems shows. -/
def shownBlocks
    (store : FileStore)
    (directory : String)
    (dialect : Dialect)
    (found : List String) : List String :=
  (blocksOf store (Path.plain directory)
    (store.fileNames (Path.plain directory)) dialect found).value.filterMap id

theorem CanBundle.shownBlocks_eq
    (can : CanBundle store directory output place target found)
    (dialect : Dialect) :
    shownBlocks store directory dialect found =
      found.filterMap (blockIn? store place dialect) := by
  rw [shownBlocks, can.value_blocksOf dialect]
  exact List.filterMap_map

/-- Where the stems have an order and the report can be written, it is. -/
theorem outcome_generate_of_stems
    (stands : store.isDirectory (Path.plain directory) = true)
    (ordered : stems (store.fileNames (Path.plain directory)) = .ok found)
    (writable : store.locateFile (reportPath store output) = .ok target)
    (dialect : Dialect) :
    ∃ saved,
      (generate store directory output dialect).outcome =
        .ok (⟨(shownBlocks store directory dialect found).length,
          found.length - (shownBlocks store directory dialect found).length,
          reportPath store output⟩, saved) ∧
      store.OnlyWrites target
        (String.join (shownBlocks store directory dialect found)) saved := by
  obtain ⟨saved, writes⟩ := FileStore.IsWritable.exists_writeText
    ⟨target, writable⟩
    (String.join (shownBlocks store directory dialect found))
  refine ⟨saved, ?_, FileStore.onlyWrites_of_writeText writable writes⟩
  have counted : (blocksOf store (Path.plain directory)
      (store.fileNames (Path.plain directory)) dialect found).value.length =
        found.length := by
    rw [Examples.value_blocksOf, List.length_map]
  have marked := FileStore.writeMarked_nil writes
  rw [shownBlocks] at marked ⊢
  simp only [generate, stands, Bool.not_true, Bool.false_eq_true, if_false,
    ordered, marked, counted, Except.bind, Attempt.outcome_bind,
    Attempt.outcome_note, Attempt.outcome_pure, Attempt.outcome_ofLogged]
  split <;> rfl

theorem CanBundle.outcome_generate
    (can : CanBundle store directory output place target found)
    (dialect : Dialect) :
    ∃ saved,
      (generate store directory output dialect).outcome =
        .ok (⟨(found.filterMap (blockIn? store place dialect)).length,
          found.length - (found.filterMap (blockIn? store place dialect)).length,
          reportPath store output⟩, saved) ∧
      store.OnlyWrites target
        (String.join (found.filterMap (blockIn? store place dialect))) saved := by
  have stands : store.isDirectory (Path.plain directory) = true := by
    rw [FileStore.isDirectory, FileStore.lookup, can.located]
    dsimp only
    rw [can.isDirectory]
  rw [← can.shownBlocks_eq dialect]
  exact outcome_generate_of_stems stands can.ordered can.writable dialect

/-- Where the two files of an example are the same, its block is. -/
theorem CanBundle.blockIn?_eq_of_same
    {other : FileStore}
    {otherDirectory : String}
    {otherOutput : Option String}
    {otherPlace otherTarget : FilePlace}
    {otherFound : List String}
    (can : CanBundle store directory output place target found)
    (canOther : CanBundle other otherDirectory otherOutput otherPlace
      otherTarget otherFound)
    (member : stem ∈ found)
    {dialect : Dialect}
    {text : String}
    (shows : blockIn? store place dialect stem = some text)
    (same : ∀ ending ∈ endings, other.get? (otherPlace ++ [stem ++ ending]) =
      store.get? (place ++ [stem ++ ending])) :
    stem ∈ otherFound ∧ blockIn? other otherPlace dialect stem = some text := by
  have sameText : ∀ ending ∈ endings,
      other.textAt? (otherPlace ++ [stem ++ ending]) =
        store.textAt? (place ++ [stem ++ ending]) := by
    intro ending ends
    rw [FileStore.textAt?, FileStore.textAt?, same ending ends]
  have sameTexts : textsIn? other otherPlace stem = textsIn? store place stem := by
    rw [textsIn?, textsIn?, sameText _ (mem_endings.mpr (Or.inl rfl)),
      sameText _ (mem_endings.mpr (Or.inr rfl))]
  rw [blockIn?] at shows ⊢
  rw [sameTexts]
  refine ⟨?_, shows⟩
  obtain ⟨texts, held, -⟩ := Option.bind_eq_some_iff.mp shows
  have ends : descriptionEnding ∈ endings := mem_endings.mpr (Or.inl rfl)
  rw [(nodup_and_mem_of_stems canOther.ordered).2]
  exact ⟨_, canOther.mem_fileNames (sameTexts.trans held) _ ends,
    isExampleFile_append ends stem,
    stemOf_append (can.not_mem_stem member).2 ends⟩

end Bundle

/-- Two examples, one of which has no shader. -/
def unevenExamples : FileStore where
  root := "/work"
  entries :=
    [(["ex"], .directory),
      (["ex", "ex_2.glsl"], .file (encode
        "void mainImage(out vec4 fragColor, in vec2 fragCoord) {}".toList)),
      (["ex", "ex_2.txt"], .file [97]), (["ex", "ex_3.txt"], .file [98])]

theorem locate_unevenExamples :
    unevenExamples.locate (Path.plain "ex/") = .ok ["ex"] := by
  decide +kernel

theorem fileNames_unevenExamples :
    unevenExamples.fileNames (Path.plain "ex/") =
      ["ex_2.glsl", "ex_2.txt", "ex_3.txt"] := by
  rw [FileStore.fileNames, locate_unevenExamples]
  change ["ex_2.glsl", "ex_2.txt", "ex_3.txt"].mergeSort _ = _
  exact List.mergeSort_of_pairwise (by decide +kernel)

theorem stems_unevenExamples :
    stems ["ex_2.glsl", "ex_2.txt", "ex_3.txt"] = .ok ["ex_2", "ex_3"] := by
  let key (number : Nat) : NaturalKey := ⟨['e', 'x', '_'], [(number, [])]⟩
  let names := ["ex_2.glsl", "ex_2.txt", "ex_3.txt"]
  have keyed : withKeys ((names.filter isExampleFile).map stemOf).eraseDups =
      .ok [(key 2, "ex_2"), (key 3, "ex_3")] := by
    decide +kernel
  rw [stems, naturalSort, keyed]
  change Except.ok (([(key 2, "ex_2"), (key 3, "ex_3")].mergeSort
    fun left right => !right.1.precedes left.1).map Prod.snd) = _
  rw [List.mergeSort_of_pairwise (by decide +kernel)]
  rfl

theorem canBundle_unevenExamples :
    CanBundle unevenExamples "ex/" none ["ex"] ["shader_examples.txt"]
      ["ex_2", "ex_3"] where
  rooted := by decide +kernel
  located := locate_unevenExamples
  isDirectory := by decide +kernel
  areNames := by rw [fileNames_unevenExamples]; decide +kernel
  ordered := by rw [fileNames_unevenExamples, stems_unevenExamples]
  writable := by decide +kernel

end Examples
end ShaderLift
