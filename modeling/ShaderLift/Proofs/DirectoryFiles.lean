import ShaderLift.Proofs.FilePaths

/-!
# Files of a directory

A file of a directory is reached by the path of the directory and its own name.
What such a path leads to is what stands at the one place behind the directory's,
so reading it depends on nothing else in the store.
-/

namespace ShaderLift
namespace Path

open Text

/-- A name that leads from a directory to a place in it. -/
structure IsFileName (name : String) : Prop where
  named : isName name = true
  notUp : name ≠ ".."
  single : '/' ∉ name.toList

/-- The name is the last part of its path, and the names before it are those of
the directory. -/
theorem exists_parts_child
    {name : String}
    (fits : IsFileName name)
    (parent : String) :
    ∃ front, front.filter isName = names parent ∧
      parts (child parent name) = front ++ [name] := by
  have last := parts_of_not_mem fits.single
  rw [child]
  split
  · next here => exact ⟨[], by rw [here]; rfl, last⟩
  · split
    · next slash =>
        obtain ⟨front, text⟩ := (endsWith_iff parent "/").mp slash
        have whole : parent = String.ofList front ++ "/" ++ "" := by
          rw [← String.toList_inj, ← text]
          simp
        have above : names parent = names (String.ofList front) := by
          rw [whole, names_slash]
          exact List.append_nil _
        refine ⟨parts (String.ofList front), above.symm, ?_⟩
        rw [whole, String.append_empty, parts_slash, last]
    · exact ⟨parts parent, rfl, by rw [parts_slash, last]⟩

theorem startsWith_append_slash
    {front : String}
    (nonempty : front ≠ "")
    (back : String) :
    startsWith (front ++ back) "/" = startsWith front "/" := by
  rw [startsWith, startsWith, String.toList_append]
  cases text : front.toList with
  | nil => exact absurd (String.toList_eq_nil_iff.mp text) nonempty
  | cons first rest => rfl

/-- A file's path starts where its directory's path starts. -/
theorem startsWith_child
    {parent name : String}
    (nonempty : parent ≠ "")
    (fits : IsFileName name) :
    startsWith (child parent name) "/" = startsWith parent "/" := by
  rw [child]
  split
  · next here =>
      have relative : startsWith "." "/" = false := rfl
      rw [here, relative, ← Bool.not_eq_true]
      intro absolute
      obtain ⟨rest, text⟩ := (startsWith_iff name "/").mp absolute
      refine fits.single ?_
      rw [← text]
      exact List.mem_cons_self
  · split
    · exact startsWith_append_slash nonempty name
    · rw [String.append_assoc]
      exact startsWith_append_slash nonempty _

end Path

namespace FileStore

open ShaderLift.Path

variable {store : FileStore} {place target : FilePlace}

theorem follow_append
    {front : List String}
    (found : store.follow place front = .ok target)
    (back : List String) :
    store.follow place (front ++ back) = store.follow target back := by
  induction front generalizing place with
  | nil => rw [Except.ok.inj found]; rfl
  | cons part rest inductionHypothesis =>
      obtain ⟨isDirectory, next⟩ := follow_cons_eq_ok_iff.mp found
      rw [List.cons_append, follow, isDirectory]
      exact inductionHypothesis next

/-- A place and its one name hold the same. -/
theorem get?_canonical
    (store : FileStore)
    (place : FilePlace) : store.get? (store.canonical place) = store.get? place := by
  rw [canonical]
  split
  · next home =>
      rw [home, get?_of_prefix List.nil_prefix, get?_of_prefix List.prefix_rfl]
  · rfl

/-- The path of a file leads from its directory to its name. -/
theorem locate_child
    {path name : String}
    (rooted : store.IsRooted)
    (located : store.locate path = .ok place)
    (isDirectory : store.get? place = some .directory)
    (fits : IsFileName name) :
    store.locate (child path name) = .ok (store.canonical (place ++ [name])) := by
  have nonempty := ne_empty_of_locate located
  obtain ⟨front, above, parted⟩ := exists_parts_child fits path
  have led := follow_names_of_locate rooted located
  refine locate_of_follow_names rooted ?_ ?_
  · intro last member
    rw [parted, List.getLast?_concat, Option.mem_some] at member
    rw [← member]
    exact fits.named
  · rw [origin, startsWith_child nonempty fits, names, parted,
      List.filter_append, above, List.filter_cons_of_pos fits.named]
    refine (follow_append led [name]).trans (follow_cons_eq_ok_iff.mpr ?_)
    exact ⟨isDirectory, by rw [step_of_isName fits.named fits.notUp]; rfl⟩

/-- The text of the file at a place, if there is one. -/
def textAt? (store : FileStore) (place : FilePlace) : Option (List Char) :=
  match store.get? place with
  | some (.file bytes) => (Text.decode bytes).toOption.map Text.unifyLineEnds
  | _ => none

/-- Reading a file of a directory gives the text at its place. -/
theorem toOption_readText_child
    {path name : String}
    (rooted : store.IsRooted)
    (located : store.locate path = .ok place)
    (isDirectory : store.get? place = some .directory)
    (fits : IsFileName name) :
    (store.readText (child path name)).toOption =
      store.textAt? (place ++ [name]) := by
  rw [readText, readBytes, lookup, locate_child rooted located isDirectory fits,
    textAt?]
  dsimp only
  rw [get?_canonical]
  cases store.get? (place ++ [name]) with
  | none => rfl
  | some entry =>
      cases entry with
      | directory => rfl
      | file bytes =>
          dsimp only
          cases Text.decode bytes <;> rfl

theorem mem_entries_of_get?
    {bytes : List UInt8}
    (held : store.get? place = some (.file bytes)) :
    (place, .file bytes) ∈ store.entries := by
  rw [get?] at held
  split at held
  · exact absurd held (by simp)
  · obtain ⟨entry, found, same⟩ := Option.map_eq_some_iff.mp held
    have met := List.find?_some found
    have here : entry.1 = place := beq_iff_eq.mp met
    rw [← here, ← same]
    exact List.mem_of_find?_eq_some found

/-- A file that can be read is listed. -/
theorem mem_fileNames_of_textAt?
    {path name : String}
    {text : List Char}
    (located : store.locate path = .ok place)
    (held : store.textAt? (place ++ [name]) = some text) :
    name ∈ store.fileNames path := by
  have isFile : ∃ bytes, store.get? (place ++ [name]) = some (.file bytes) := by
    rw [textAt?] at held
    split at held
    · next bytes stands => exact ⟨bytes, stands⟩
    · exact nomatch held
  obtain ⟨bytes, stands⟩ := isFile
  rw [fileNames, located]
  dsimp only
  rw [List.mem_mergeSort, List.mem_filterMap]
  refine ⟨_, mem_entries_of_get? stands, ?_⟩
  dsimp only
  rw [List.dropLast_concat, List.getLast?_concat]
  exact if_pos BEq.rfl

end FileStore
end ShaderLift
