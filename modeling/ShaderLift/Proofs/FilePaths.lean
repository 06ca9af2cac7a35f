import Mathlib.Data.List.Basic
import ShaderLift.Files.Store
import ShaderLift.Proofs.Glyph

/-!
# Paths of written files

A path and its plain form have the same names, and only names lead on: empty
parts and single dots stay where they are.  So a file that was written under a
path is found under the plain form of the path, with the text that was written.
-/

namespace ShaderLift
namespace Path

open Text

/-- The parts of a path that name a place. -/
def names (path : String) : List String :=
  (parts path).filter isName

/-! ## Parts -/

theorem parts_slash (front back : String) :
    parts (front ++ "/" ++ back) = parts front ++ parts back := by
  have text : (front ++ "/" ++ back).toList =
      front.toList ++ '/' :: back.toList := by
    simp
  rw [parts, text, fields_append_separator, List.map_append]
  rfl

theorem parts_of_not_mem
    {name : String}
    (single : '/' ∉ name.toList) : parts name = [name] := by
  rw [parts, fields_of_not_mem single, List.map_singleton, String.ofList_toList]

theorem names_slash (front back : String) :
    names (front ++ "/" ++ back) = names front ++ names back := by
  rw [names, parts_slash, List.filter_append]
  rfl

/-- The first part of a path that starts with a slash is empty. -/
theorem head?_parts_of_startsWith
    {path : String}
    (absolute : startsWith path "/" = true) :
    (parts path).head? = some "" := by
  obtain ⟨rest, text⟩ := (startsWith_iff path "/").mp absolute
  rw [parts, ← text]
  rfl

/-! ## Names -/

/-- Every member names a place other than where it stands. -/
def AreNames (list : List String) : Prop :=
  ∀ name ∈ list, isName name = true ∧ '/' ∉ name.toList

theorem areNames_names (path : String) : AreNames (names path) := by
  intro name member
  obtain ⟨part, named⟩ := List.mem_filter.mp member
  obtain ⟨field, known, rfl⟩ := List.mem_map.mp part
  refine ⟨named, ?_⟩
  rw [String.toList_ofList]
  exact not_mem_of_mem_fields known

theorem AreNames.filter_eq_self
    {list : List String}
    (areNames : AreNames list) : list.filter isName = list :=
  List.filter_eq_self.mpr fun name member => (areNames name member).1

theorem parts_join
    {list : List String}
    (areNames : AreNames list)
    (nonempty : list ≠ []) : parts (join list) = list := by
  induction list with
  | nil => exact absurd rfl nonempty
  | cons name rest inductionHypothesis =>
      obtain ⟨known, others⟩ := List.forall_mem_cons.mp areNames
      cases rest with
      | nil => exact parts_of_not_mem known.2
      | cons second rest =>
          have joined : join (name :: second :: rest) =
              name ++ "/" ++ join (second :: rest) :=
            String.intercalate_cons_cons
          rw [joined, parts_slash, parts_of_not_mem known.2,
            inductionHypothesis others (List.cons_ne_nil second rest),
            List.singleton_append]

/-! ## Plain forms -/

/-- A path that does not start with a slash starts at no root, and the slashes
that stay of another path are empty parts. -/
theorem rootOf_cases (path : String) :
    (rootOf path = "" ∧ startsWith path "/" = false) ∨
      (startsWith (rootOf path) "/" = true ∧ startsWith path "/" = true ∧
        ∀ rest, ∃ slashes, slashes.filter isName = [] ∧
          parts (rootOf path ++ rest) = slashes ++ parts rest) := by
  have one (rest : String) : parts ("/" ++ rest) = [""] ++ parts rest :=
    parts_slash "" rest
  have two (rest : String) : parts ("//" ++ rest) = ["", ""] ++ parts rest :=
    parts_slash "/" rest
  rw [rootOf, startsWith]
  cases path.toList with
  | nil => exact .inl ⟨rfl, rfl⟩
  | cons c text =>
      by_cases slash : c = '/'
      · subst slash
        right
        rw [List.takeWhile_cons, if_pos (beq_self_eq_true '/'),
          List.length_cons]
        split
        · next none => exact absurd none (Nat.succ_ne_zero _)
        · exact ⟨rfl, rfl, fun rest => ⟨["", ""], rfl, two rest⟩⟩
        · exact ⟨rfl, rfl, fun rest => ⟨[""], rfl, one rest⟩⟩
      · left
        rw [List.takeWhile_cons, if_neg (mt beq_iff_eq.mp slash)]
        refine ⟨rfl, ?_⟩
        simp [List.isPrefixOf, Ne.symm slash]

theorem startsWith_append_of_startsWith
    {text start : String}
    (starts : startsWith text start = true)
    (rest : String) : startsWith (text ++ rest) start = true := by
  rw [startsWith_iff, String.toList_append] at *
  exact starts.trans (List.prefix_append text.toList rest.toList)

/-- The plain form of a path that names something: only empty parts stand
before its names, and it is absolute as the path is. -/
theorem exists_parts_plain
    {path : String}
    (named : names path ≠ []) :
    startsWith (plain path) "/" = startsWith path "/" ∧
      ∃ slashes, slashes.filter isName = [] ∧
        parts (plain path) = slashes ++ names path := by
  have areNames := areNames_names path
  have joined := parts_join areNames named
  have whole : plain path = rootOf path ++ join (names path) := by
    rw [plain]
    refine if_neg ?_
    intro empty
    have none : join (names path) = "" := (String.append_eq_empty_iff.mp empty).2
    rw [none] at joined
    have member : "" ∈ names path := joined ▸ List.mem_singleton_self ""
    exact absurd (areNames "" member).1 (by decide)
  rw [whole]
  rcases rootOf_cases path with ⟨none, relative⟩ | ⟨root, absolute, more⟩
  · rw [none, String.empty_append, relative]
    refine ⟨?_, [], rfl, joined⟩
    rw [← Bool.not_eq_true]
    intro starts
    have first := head?_parts_of_startsWith starts
    rw [joined] at first
    exact absurd (areNames "" (List.mem_of_mem_head? first)).1 (by decide)
  · obtain ⟨slashes, unnamed, parted⟩ := more (join (names path))
    rw [joined] at parted
    rw [absolute]
    exact ⟨startsWith_append_of_startsWith root _, slashes, unnamed, parted⟩

end Path

namespace FileStore

open ShaderLift.Path

variable {store saved : FileStore} {place target : FilePlace}

/-! ## Following names -/

theorem step_of_not_isName
    {part : String}
    (unnamed : isName part = false)
    (store : FileStore)
    (place : FilePlace) : store.step place part = place := by
  rw [isName, Bool.and_eq_false_iff, bne_eq_false_iff_eq,
    bne_eq_false_iff_eq] at unnamed
  exact if_pos (by simpa using unnamed)

theorem follow_cons_eq_ok_iff
    {part : String}
    {rest : List String} :
    store.follow place (part :: rest) = .ok target ↔
      store.get? place = some .directory ∧
        store.follow (store.step place part) rest = .ok target := by
  rw [follow]
  split <;> simp_all

/-- What is no name leads nowhere. -/
theorem follow_names
    {parts : List String}
    (found : store.follow place parts = .ok target) :
    store.follow place (parts.filter isName) = .ok target := by
  induction parts generalizing place with
  | nil => exact found
  | cons part rest inductionHypothesis =>
      obtain ⟨isDirectory, next⟩ := follow_cons_eq_ok_iff.mp found
      cases named : isName part with
      | true =>
          rw [List.filter_cons_of_pos named]
          exact follow_cons_eq_ok_iff.mpr
            ⟨isDirectory, inductionHypothesis next⟩
      | false =>
          rw [step_of_not_isName named] at next
          rw [List.filter_cons_of_neg (ne_true_of_eq_false named)]
          exact inductionHypothesis next

/-- A part that is no name must stand in a directory, and it does where a name
comes after it. -/
theorem follow_of_follow_names
    {parts : List String}
    (ends : ∀ last ∈ parts.getLast?, isName last = true)
    (found : store.follow place (parts.filter isName) = .ok target) :
    store.follow place parts = .ok target := by
  induction parts generalizing place with
  | nil => exact found
  | cons part rest inductionHypothesis =>
      have endsLater : ∀ last ∈ rest.getLast?, isName last = true := by
        intro last member
        refine ends last ?_
        rw [Option.mem_def, List.getLast?_cons, member]
        rfl
      rw [follow_cons_eq_ok_iff]
      cases named : isName part with
      | true =>
          rw [List.filter_cons_of_pos named, follow_cons_eq_ok_iff] at found
          exact ⟨found.1, inductionHypothesis endsLater found.2⟩
      | false =>
          rw [List.filter_cons_of_neg (ne_true_of_eq_false named)] at found
          rw [step_of_not_isName named]
          refine ⟨?_, inductionHypothesis endsLater found⟩
          cases later : rest.filter isName with
          | nil =>
              cases last : rest.getLast? with
              | none =>
                  rw [List.getLast?_eq_none_iff] at last
                  subst last
                  exact absurd (ends part rfl) (ne_true_of_eq_false named)
              | some name =>
                  have member := List.mem_filter.mpr
                    ⟨List.mem_of_getLast? last, endsLater name last⟩
                  rw [later] at member
                  exact absurd member List.not_mem_nil
          | cons name more =>
              rw [later] at found
              exact (follow_cons_eq_ok_iff.mp found).1

/-! ## Starting places -/

/-- The working directory is named by an absolute path that never goes up. -/
def IsRooted (store : FileStore) : Prop :=
  Text.startsWith store.root "/" = true ∧ ".." ∉ names store.root

instance (store : FileStore) : Decidable store.IsRooted :=
  inferInstanceAs (Decidable (_ ∧ _))

/-- Where the names of a path lead on from. -/
def origin (store : FileStore) (path : String) : FilePlace :=
  if Text.startsWith path "/" then store.canonical ["/"] else []

theorem get?_of_prefix
    (leads : place <+: store.home) : store.get? place = some .directory :=
  if_pos (List.isPrefixOf_iff_prefix.mpr leads)

theorem home_eq (store : FileStore) : store.home = "/" :: names store.root :=
  rfl

theorem step_of_isName
    {name : String}
    (named : isName name = true)
    (notUp : name ≠ "..")
    (store : FileStore)
    (place : FilePlace) :
    store.step place name = store.canonical (place ++ [name]) := by
  rw [isName, Bool.and_eq_true, bne_iff_ne, bne_iff_ne] at named
  rw [step, if_neg (by simpa using named), if_neg notUp]

/-- From the root of the file system, the names of the working directory lead
to the working directory. -/
theorem follow_home
    (rooted : store.IsRooted)
    (rest : List String) :
    store.follow (store.canonical ["/"]) (names store.root ++ rest) =
      store.follow [] rest := by
  -- The front names have been followed.  Where they lead is a directory, since
  -- it lies on the way to the working directory.
  suffices walk : ∀ front back, names store.root = front ++ back →
      store.follow (store.canonical ("/" :: front)) (back ++ rest) =
        store.follow [] rest from
    walk [] (names store.root) rfl
  intro front back known
  induction back generalizing front with
  | nil =>
      rw [List.append_nil] at known
      rw [canonical, home_eq, known, if_pos rfl, List.nil_append]
  | cons name back inductionHypothesis =>
      have onTheWay : "/" :: front <+: store.home :=
        ⟨name :: back, congrArg ("/" :: ·) known.symm⟩
      have before : store.canonical ("/" :: front) = "/" :: front := by
        rw [canonical, home_eq, known]
        exact if_neg (by simp)
      have member : name ∈ names store.root := by
        simp [known]
      have notUp : name ≠ ".." := fun up => rooted.2 (up ▸ member)
      have named : isName name = true := (areNames_names _ name member).1
      rw [before, List.cons_append, follow, get?_of_prefix onTheWay]
      change store.follow (store.step ("/" :: front) name) (back ++ rest) = _
      rw [step_of_isName named notUp, List.cons_append]
      refine inductionHypothesis (front ++ [name]) ?_
      rw [known, List.append_assoc, List.singleton_append]

/-- The names of a path lead where its start and the parts behind it lead, and
those parts are the last of the path. -/
theorem follow_origin
    (rooted : store.IsRooted)
    (path : String) :
    store.follow (store.origin path) (names path) =
        store.follow (store.start path).1 ((store.start path).2.filter isName) ∧
      (store.start path).2 <:+ parts path := by
  rw [start]
  split
  · next root =>
      subst root
      refine ⟨?_, List.nil_suffix⟩
      rw [origin, if_pos rooted.1, List.filter_nil, ← follow_home rooted,
        List.append_nil]
  · split
    · next starts =>
        obtain ⟨rest, text⟩ := (Text.startsWith_iff _ _).mp starts
        have whole : path = store.root ++ "/" ++ String.ofList rest := by
          rw [← String.toList_inj, ← text]
          simp
        have behind : path.toList.drop (store.root.length + 1) = rest := by
          rw [← text, String.toList_append]
          exact List.drop_left' (by simp [String.length])
        have absolute : Text.startsWith path "/" = true := by
          rw [whole, String.append_assoc]
          exact startsWith_append_of_startsWith rooted.1 _
        rw [behind, origin, if_pos absolute, whole, names_slash, parts_slash]
        exact ⟨follow_home rooted _, List.suffix_append _ _⟩
    · split
      · next absolute =>
          rw [origin, if_pos absolute]
          exact ⟨rfl, List.suffix_refl _⟩
      · next relative =>
          rw [origin, if_neg relative]
          exact ⟨rfl, List.suffix_refl _⟩

theorem locate_eq_follow
    {path : String}
    (nonempty : path ≠ "")
    (store : FileStore) :
    store.locate path =
      store.follow (store.start path).1 (store.start path).2 :=
  if_neg nonempty

theorem ne_empty_of_locate
    {path : String}
    (found : store.locate path = .ok target) : path ≠ "" := by
  rintro rfl
  exact nomatch found

/-- The names of a path lead where the path leads. -/
theorem follow_names_of_locate
    {path : String}
    (rooted : store.IsRooted)
    (found : store.locate path = .ok target) :
    store.follow (store.origin path) (names path) = .ok target := by
  rw [locate_eq_follow (ne_empty_of_locate found)] at found
  rw [(follow_origin rooted path).1]
  exact follow_names found

/-- A path whose last part is a name leads where its names lead. -/
theorem locate_of_follow_names
    {path : String}
    (rooted : store.IsRooted)
    (ends : ∀ last ∈ (parts path).getLast?, isName last = true)
    (found : store.follow (store.origin path) (names path) = .ok target) :
    store.locate path = .ok target := by
  have nonempty : path ≠ "" := by
    rintro rfl
    exact absurd (ends "" rfl) (by decide)
  obtain ⟨same, front, parted⟩ := follow_origin rooted path
  rw [same] at found
  rw [locate_eq_follow nonempty]
  refine follow_of_follow_names ?_ found
  intro last member
  refine ends last ?_
  rw [Option.mem_def, ← parted, List.getLast?_append, member]
  rfl

/-! ## Written files -/

/-- A place that is no directory lies on no way to itself. -/
theorem follow_set
    {parts : List String}
    (found : store.follow place parts = .ok target)
    (free : store.get? target ≠ some .directory)
    (entry : FileEntry) :
    (store.set target entry).follow place parts = .ok target := by
  induction parts generalizing place with
  | nil => exact found
  | cons part rest inductionHypothesis =>
      obtain ⟨isDirectory, next⟩ := follow_cons_eq_ok_iff.mp found
      have other : place ≠ target := fun same => free (same ▸ isDirectory)
      refine follow_cons_eq_ok_iff.mpr ⟨?_, inductionHypothesis next⟩
      rw [get?_set_of_ne other, isDirectory]

theorem locate_set
    {path : String}
    (found : store.locate path = .ok target)
    (free : store.get? target ≠ some .directory)
    (entry : FileEntry) :
    (store.set target entry).locate path = .ok target := by
  have nonempty := ne_empty_of_locate found
  rw [locate_eq_follow nonempty] at found ⊢
  exact follow_set found free entry

/-- A path that names a file leads there in its plain form too. -/
theorem locate_plain
    {path : String}
    (reachable : store.IsRooted ∨ plain path = path)
    (found : store.locate path = .ok target)
    (free : store.get? target ≠ some .directory) :
    store.locate (plain path) = .ok target := by
  rcases reachable with rooted | same
  · have led := follow_names_of_locate rooted found
    have named : names path ≠ [] := by
      intro none
      rw [none, follow, Except.ok.injEq] at led
      refine free (led ▸ get?_of_prefix ?_)
      rw [origin]
      split
      · rw [canonical]
        split
        · exact List.nil_prefix
        · exact ⟨names store.root, rfl⟩
      · exact List.nil_prefix
    obtain ⟨absolute, slashes, unnamed, parted⟩ := exists_parts_plain named
    refine locate_of_follow_names rooted ?_ ?_
    · intro last member
      rw [parted, List.getLast?_append_of_ne_nil _ named] at member
      exact (areNames_names path last (List.mem_of_getLast? member)).1
    · have sameNames : names (plain path) = names path := by
        rw [names, parted, List.filter_append, unnamed, List.nil_append,
          (areNames_names path).filter_eq_self]
      rw [origin, absolute, sameNames]
      exact led
  · rw [same]
    exact found

/-- The place that a path names for writing is where the path leads, and no
directory stands there. -/
theorem locate_of_locateFile
    {path : String}
    (found : store.locateFile path = .ok target) :
    store.locate path = .ok target ∧ store.get? target ≠ some .directory := by
  rw [locateFile] at found
  split at found
  · dsimp only at found
    split at found
    · exact nomatch found
    · split at found <;> exact nomatch found
  · split at found
    · exact nomatch found
    · next place located =>
        split at found
        · exact nomatch found
        · next free =>
            obtain rfl := Except.ok.inj found
            exact ⟨located, free⟩

theorem writeText_eq_ok_iff {path text : String} :
    store.writeText path text = .ok saved ↔
      ∃ target, store.locateFile path = .ok target ∧
        saved = store.set target (.file (Text.encode text.toList)) := by
  rw [writeText]
  cases store.locateFile path with
  | error cause => simp
  | ok target => simp [eq_comm]

theorem exists_locate_of_writeText
    {path text : String}
    (written : store.writeText path text = .ok saved) :
    ∃ target, store.locate path = .ok target ∧
      store.get? target ≠ some .directory ∧
      saved = store.set target (.file (Text.encode text.toList)) := by
  obtain ⟨target, found, same⟩ := writeText_eq_ok_iff.mp written
  obtain ⟨located, free⟩ := locate_of_locateFile found
  exact ⟨target, located, free, same⟩

/-- A file can be written under the path. -/
def IsWritable (store : FileStore) (path : String) : Prop :=
  ∃ target, store.locateFile path = .ok target

/-- The stores differ at one place at most, where the second one has a file
with the text. -/
structure OnlyWrites
    (before : FileStore)
    (target : FilePlace)
    (text : String)
    (after : FileStore) : Prop where
  written : after.get? target = some (.file (Text.encode text.toList))
  kept : ∀ other, other ≠ target → after.get? other = before.get? other

theorem isPrefixOf_home_of_ne_directory
    (free : store.get? target ≠ some .directory) :
    target.isPrefixOf store.home = false := by
  rw [← Bool.not_eq_true]
  exact fun leads => free (if_pos leads)

/-- Writing a text changes the file that the path names and nothing else. -/
theorem onlyWrites_of_writeText
    {path text : String}
    (found : store.locateFile path = .ok target)
    (written : store.writeText path text = .ok saved) :
    store.OnlyWrites target text saved := by
  obtain ⟨place, named, rfl⟩ := writeText_eq_ok_iff.mp written
  obtain rfl : target = place := Except.ok.inj (found.symm.trans named)
  have outside := isPrefixOf_home_of_ne_directory (locate_of_locateFile found).2
  exact ⟨get?_set_self outside _, fun other differ =>
    get?_set_of_ne differ store _⟩

theorem IsWritable.exists_writeText
    {path : String}
    (writable : store.IsWritable path)
    (text : String) : ∃ saved, store.writeText path text = .ok saved := by
  obtain ⟨target, found⟩ := writable
  exact ⟨_, writeText_eq_ok_iff.mpr ⟨target, found, rfl⟩⟩

/-- What was written to a file stands there, and the plain form of the path
leads to it. -/
theorem lookup_plain_of_writeText
    {path text : String}
    (reachable : store.IsRooted ∨ plain path = path)
    (written : store.writeText path text = .ok saved) :
    saved.lookup (plain path) = .ok (.file (Text.encode text.toList)) := by
  obtain ⟨target, found, free, rfl⟩ := exists_locate_of_writeText written
  have outside := isPrefixOf_home_of_ne_directory free
  rw [lookup, locate_set (locate_plain reachable found free) free]
  dsimp only
  rw [get?_set_self outside]

/-- A text is not written where there is no place for it.  A text without bytes
empties its file, and every other text is written. -/
theorem writeMarked_cases
    (store : FileStore)
    (path text : String)
    (surrogates : Text.Surrogates) :
    (∃ cause, store.locateFile path = .error cause ∧
      store.writeMarked path text surrogates =
        .error ⟨.file ⟨cause, path⟩, store⟩) ∨
    (∃ error left, Text.encodeError? surrogates 0 text.toList = some error ∧
      store.writeText path "" = .ok left ∧
      store.writeMarked path text surrogates = .error ⟨.text error, left⟩) ∨
    (Text.encodeError? surrogates 0 text.toList = none ∧
      ∃ saved, store.writeText path text = .ok saved ∧
        store.writeMarked path text surrogates = .ok saved) := by
  unfold writeMarked writeText Text.encodeMarked
  cases store.locateFile path with
  | error cause => exact .inl ⟨cause, rfl, rfl⟩
  | ok place =>
      right
      cases Text.encodeError? surrogates 0 text.toList with
      | some error => exact .inl ⟨error, _, rfl, rfl, rfl⟩
      | none => exact .inr ⟨rfl, _, rfl, rfl⟩

/-- Where no character stands for a half, a text is written as it is. -/
theorem writeMarked_nil
    {path text : String}
    (written : store.writeText path text = .ok saved) :
    store.writeMarked path text [] = .ok saved := by
  rcases store.writeMarked_cases path text [] with
    ⟨cause, fails, -⟩ | ⟨error, left, broken, -⟩ | ⟨-, other, writes, marked⟩
  · rw [writeText, fails] at written
    contradiction
  · exact nomatch (Text.encodeError?_nil ..).symm.trans broken
  · obtain rfl : other = saved := Except.ok.inj (writes.symm.trans written)
    exact marked

end FileStore
end ShaderLift
