import ShaderLift.Proofs.Delivery
import ShaderLift.Proofs.Watching
import Mathlib.Data.List.Induction

/-!
# What a watch keeps

While a shader is watched, others write and remove files.  The watcher looks at
the shader when it starts and at every event that names its file.  A look that
finds code writes it to the output, and nothing else is ever written.  So the
output holds the code of the last look that found some, until somebody else
touches it.

An observer may fail in each of its uses, and the wait for it ends in one of
several ways.  Once it is started, it is stopped and joined in all of them.
-/

namespace ShaderLift

namespace FileStore

/-! ## What others do to the files -/

theorem find?_filter_of_ne
    {place other : FilePlace}
    (differ : other ≠ place)
    (entries : List (FilePlace × FileEntry)) :
    (entries.filter fun entry => entry.1 != place).find?
        (fun known => known.1 == other) =
      entries.find? fun known => known.1 == other := by
  induction entries with
  | nil => rfl
  | cons known rest inductionHypothesis =>
      by_cases same : known.1 = place
      · simp [same, differ.symm, inductionHypothesis]
      · simp [same, List.find?_cons, inductionHypothesis]

/-- Removing a file keeps every other one. -/
theorem get?_erase_of_ne
    {place other : FilePlace}
    (differ : other ≠ place)
    (store : FileStore) :
    (store.erase place).get? other = store.get? other := by
  have entries := find?_filter_of_ne differ store.entries
  rw [get?, get?, erase, entries]
  rfl

/-- Directories are made only where nothing stands. -/
theorem get?_makeDirectories
    {store : FileStore}
    {place : FilePlace}
    {entry : FileEntry}
    (held : store.get? place = some entry)
    (above names : FilePlace) :
    (store.makeDirectories above names).get? place = some entry := by
  induction names generalizing store above with
  | nil => exact held
  | cons name rest inductionHypothesis =>
      rw [makeDirectories]
      apply inductionHypothesis
      by_cases taken : (store.get? (above ++ [name])).isSome
      · rw [if_pos taken]
        exact held
      · rw [if_neg taken]
        have differ : place ≠ above ++ [name] := by
          rintro rfl
          exact taken (by rw [held]; rfl)
        rw [get?_set_of_ne differ]
        exact held

/-- Adding a file keeps what stands elsewhere. -/
theorem get?_addFile_of_ne
    {store : FileStore}
    {place other : FilePlace}
    {entry : FileEntry}
    (held : store.get? other = some entry)
    (differ : other ≠ place)
    (bytes : List UInt8) :
    (store.addFile place bytes).get? other = some entry := by
  rw [addFile, get?_set_of_ne differ]
  exact get?_makeDirectories held [] place.dropLast

end FileStore

namespace CommandLine
namespace WatchEvent

/-- What an event makes of the files. -/
def applied (files : FileStore) : WatchEvent → FileStore
  | .written place bytes => files.addFile place bytes
  | .removed place => files.erase place
  | .modified _ => files

/-- The place whose file an event writes or removes. -/
def place? : WatchEvent → Option FilePlace
  | .written place _ => some place
  | .removed place => some place
  | .modified _ => none

theorem get?_applied
    {files : FileStore}
    {place : FilePlace}
    {entry : FileEntry}
    {event : WatchEvent}
    (held : files.get? place = some entry)
    (elsewhere : event.place? ≠ some place) :
    (event.applied files).get? place = some entry := by
  cases event with
  | written other bytes =>
      have differ : place ≠ other := fun same => elsewhere (by rw [same]; rfl)
      exact FileStore.get?_addFile_of_ne held differ bytes
  | removed other =>
      have differ : place ≠ other := fun same => elsewhere (by rw [same]; rfl)
      exact (FileStore.get?_erase_of_ne differ files).trans held
  | modified path => exact held

/-- A file stays as it is while nobody touches it. -/
theorem get?_foldl_applied
    {files : FileStore}
    {place : FilePlace}
    {entry : FileEntry}
    {events : List WatchEvent}
    (held : files.get? place = some entry)
    (elsewhere : ∀ event ∈ events, event.place? ≠ some place) :
    (events.foldl applied files).get? place = some entry := by
  induction events generalizing files with
  | nil => exact held
  | cons event rest inductionHypothesis =>
      rw [List.foldl_cons]
      apply inductionHypothesis
      · exact get?_applied held (elsewhere event List.mem_cons_self)
      · exact fun other member => elsewhere other (List.mem_cons_of_mem _ member)

end WatchEvent

namespace Watcher

/-! ## One reaction -/

/-- The code can go to the output: there is a place for it, and it has bytes. -/
structure CanWrite
    (watcher : Watcher)
    (files : FileStore)
    (code : String) : Prop where
  placed : files.IsWritable watcher.output
  whole : Text.encodeError? watcher.loaded.surrogates 0
    (code ++ "\n").toList = none

variable {watcher : Watcher} {files : FileStore}

theorem outcome_refresh_of_none
    (noCode : codeOf? files watcher.shader watcher.loaded.dialect = none) :
    (watcher.refresh files).outcome = .ok files := by
  rw [← value_convertFile_eq_codeOf?] at noCode
  rw [refresh, Attempt.outcome_bind, Attempt.outcome_ofLogged, noCode]
  rfl

theorem outcome_refresh_of_some
    {code : String}
    (found : codeOf? files watcher.shader watcher.loaded.dialect = some code) :
    (watcher.refresh files).outcome =
      files.writeMarked watcher.output (code ++ "\n")
        watcher.loaded.surrogates := by
  rw [← value_convertFile_eq_codeOf?] at found
  rw [refresh, Attempt.outcome_bind, Attempt.outcome_ofLogged, found]
  exact outcome_writeCode files code watcher.output watcher.loaded.surrogates

theorem outcome_react_of_named
    {path : String}
    (named : Path.absolute files.root path = watcher.shader) :
    (watcher.react (.modified path) files).outcome =
      (watcher.refresh files).outcome := by
  have isWatched : watcher.watches files.root path = true := by
    rw [watches, named]
    exact BEq.rfl
  rw [react, if_pos isWatched, Attempt.outcome_bind, Attempt.outcome_note]
  rfl

theorem outcome_react_of_other
    {event : WatchEvent}
    (other : ∀ path, event = .modified path →
      Path.absolute files.root path ≠ watcher.shader) :
    (watcher.react event files).outcome = .ok (event.applied files) := by
  cases event with
  | written place bytes => rfl
  | removed place => rfl
  | modified path =>
      have notWatched : ¬ watcher.watches files.root path = true := by
        rw [watches, beq_iff_eq]
        exact other path rfl
      rw [react, if_neg notWatched]
      rfl

/-- Code that can be written is. -/
theorem CanWrite.exists_writeText
    {code : String}
    (writable : watcher.CanWrite files code) :
    ∃ saved, files.writeText watcher.output (code ++ "\n") = .ok saved ∧
      files.writeMarked watcher.output (code ++ "\n")
        watcher.loaded.surrogates = .ok saved := by
  obtain ⟨place, placed⟩ := writable.placed
  rcases files.writeMarked_cases watcher.output (code ++ "\n")
      watcher.loaded.surrogates with
    ⟨cause, fails, -⟩ | ⟨error, left, broken, -⟩ | ⟨-, written⟩
  · exact nomatch placed.symm.trans fails
  · exact nomatch writable.whole.symm.trans broken
  · exact written

/-- Code that cannot be written is a failure. -/
theorem exists_writeMarked_eq_error
    {code : String}
    (unwritable : ¬ watcher.CanWrite files code) :
    ∃ failure, files.writeMarked watcher.output (code ++ "\n")
      watcher.loaded.surrogates = .error failure := by
  rcases files.writeMarked_cases watcher.output (code ++ "\n")
      watcher.loaded.surrogates with
    ⟨cause, -, fails⟩ | ⟨error, left, -, -, fails⟩ | ⟨whole, saved, writes, -⟩
  · exact ⟨_, fails⟩
  · exact ⟨_, fails⟩
  · obtain ⟨place, placed, -⟩ := FileStore.writeText_eq_ok_iff.mp writes
    exact absurd ⟨⟨place, placed⟩, whole⟩ unwritable

/-- Without code nothing is written; with code the output is, if it can be. -/
theorem refresh_cases
    (writable : ∀ code,
      codeOf? files watcher.shader watcher.loaded.dialect = some code →
      watcher.CanWrite files code) :
    (codeOf? files watcher.shader watcher.loaded.dialect = none ∧
      (watcher.refresh files).outcome = .ok files) ∨
    ∃ code saved,
      codeOf? files watcher.shader watcher.loaded.dialect = some code ∧
      files.writeText watcher.output (code ++ "\n") = .ok saved ∧
      (watcher.refresh files).outcome = .ok saved := by
  cases found : codeOf? files watcher.shader watcher.loaded.dialect with
  | none => exact Or.inl ⟨rfl, outcome_refresh_of_none found⟩
  | some code =>
      obtain ⟨saved, writes, marked⟩ := (writable code found).exists_writeText
      exact Or.inr ⟨code, saved, rfl, writes,
        (outcome_refresh_of_some found).trans marked⟩

/-- An event does to the files what others do, unless it is a look that finds
code. -/
theorem react_cases
    {event : WatchEvent}
    (writable : ∀ path code, event = .modified path →
      Path.absolute files.root path = watcher.shader →
      codeOf? files watcher.shader watcher.loaded.dialect = some code →
      watcher.CanWrite files code) :
    ((∀ path code, event = .modified path →
        Path.absolute files.root path = watcher.shader →
        codeOf? files watcher.shader watcher.loaded.dialect ≠ some code) ∧
      (watcher.react event files).outcome = .ok (event.applied files)) ∨
    ∃ path code saved, event = .modified path ∧
      Path.absolute files.root path = watcher.shader ∧
      codeOf? files watcher.shader watcher.loaded.dialect = some code ∧
      files.writeText watcher.output (code ++ "\n") = .ok saved ∧
      (watcher.react event files).outcome = .ok saved := by
  by_cases looks : ∃ path, event = .modified path ∧
      Path.absolute files.root path = watcher.shader
  · obtain ⟨path, rfl, named⟩ := looks
    have reacts := outcome_react_of_named named
    rcases refresh_cases fun code => writable path code rfl named with
      ⟨noCode, refreshed⟩ | ⟨code, saved, found, writes, refreshed⟩
    · refine Or.inl ⟨?_, reacts.trans refreshed⟩
      intro _ code _ _ found
      exact nomatch noCode.symm.trans found
    · exact Or.inr ⟨path, code, saved, rfl, named, found, writes,
        reacts.trans refreshed⟩
  · refine Or.inl ⟨?_, outcome_react_of_other ?_⟩
    · exact fun path _ modified named => absurd ⟨path, modified, named⟩ looks
    · exact fun path modified named => looks ⟨path, modified, named⟩

/-! ## All reactions -/

/-- The files after events to each of which the watcher could react. -/
inductive Follows
    (watcher : Watcher)
    (started : FileStore) : List WatchEvent → FileStore → Prop
  | begins : Follows watcher started [] started
  | reacts {seen : List WatchEvent} {next : FileStore} (event : WatchEvent)
      (saved : FileStore)
      (followed : Follows watcher started seen next)
      (reacts : (watcher.react event next).outcome = .ok saved) :
      Follows watcher started (seen ++ [event]) saved

/-- The wait goes through these events. -/
theorem Follows.ends_await
    {started next left : FileStore}
    {seen rest : List WatchEvent}
    {observer : Observer}
    {result : Except Disruption Unit}
    (followed : watcher.Follows started seen next)
    (ends : Watching.Ends (watcher.await observer rest) next result left []) :
    Watching.Ends (watcher.await observer (seen ++ rest)) started result left
      [] := by
  induction followed generalizing rest with
  | begins => exact ends
  | reacts event saved followed reacts inductionHypothesis =>
      rw [List.append_assoc]
      exact inductionHypothesis (ends_await_cons reacts ends)

/-! ## Looks -/

/-- The watcher looks at the shader when it has seen these events, in the files
as they are then: at the start, and at every event that names the shader. -/
inductive LooksAt
    (watcher : Watcher)
    (start : FileStore)
    (after : List WatchEvent → FileStore) : List WatchEvent → FileStore → Prop
  | begins : LooksAt watcher start after [] start
  | told (seen : List WatchEvent) (path : String)
      (named : Path.absolute (after seen).root path = watcher.shader) :
      LooksAt watcher start after (seen ++ [.modified path]) (after seen)

/-- A look at files in which the shader can be read and converted. -/
structure FindsCode
    (watcher : Watcher)
    (start : FileStore)
    (after : List WatchEvent → FileStore)
    (seen : List WatchEvent)
    (before : FileStore)
    (code : String) : Prop where
  looks : watcher.LooksAt start after seen before
  converts : codeOf? before watcher.shader watcher.loaded.dialect = some code

/-- The output is as the last look that found code left it, and nothing else was
ever written: since then the files went through nothing but the events. -/
inductive KeepsLastCode
    (watcher : Watcher)
    (start : FileStore)
    (after : List WatchEvent → FileStore)
    (seen : List WatchEvent) : Prop
  | unwritten
      (nothing : ∀ earlier before code, earlier <+: seen →
        ¬ watcher.FindsCode start after earlier before code)
      (others : after seen = seen.foldl WatchEvent.applied start)
  | written (earlier later : List WatchEvent) (before : FileStore)
      (code : String) (place : FilePlace)
      (split : seen = earlier ++ later)
      (found : watcher.FindsCode start after earlier before code)
      (isLast : ∀ more before code, more <+: later → more ≠ [] →
        ¬ watcher.FindsCode start after (earlier ++ more) before code)
      (placed : before.locateFile watcher.output = .ok place)
      (wrote : before.OnlyWrites place (code ++ "\n") (after earlier))
      (others : after seen = later.foldl WatchEvent.applied (after earlier))
      (kept : (∀ event ∈ later, event.place? ≠ some place) →
        (after seen).get? place =
          some (.file (Text.encode (code ++ "\n").toList)))

section Looks

variable {start : FileStore} {after : List WatchEvent → FileStore}
variable {seen : List WatchEvent}

theorem looksAt_nil
    {before : FileStore}
    (looks : watcher.LooksAt start after [] before) : before = start := by
  generalize ended : ([] : List WatchEvent) = all at looks
  cases looks with
  | begins => rfl
  | told seen path named => exact absurd ended (by simp)

theorem looksAt_concat
    {event : WatchEvent}
    {before : FileStore}
    (looks : watcher.LooksAt start after (seen ++ [event]) before) :
    before = after seen ∧ ∃ path, event = .modified path ∧
      Path.absolute (after seen).root path = watcher.shader := by
  generalize ended : seen ++ [event] = all at looks
  cases looks with
  | begins => exact absurd ended (by simp)
  | told earlier path named =>
      obtain ⟨rfl, same⟩ := List.append_inj' ended rfl
      exact ⟨rfl, path, List.head_eq_of_cons_eq same, named⟩

/-- A look that finds code and writes it is the last one. -/
theorem keepsLastCode_of_findsCode
    {before : FileStore}
    {code : String}
    (found : watcher.FindsCode start after seen before code)
    (writes : before.writeText watcher.output (code ++ "\n") = .ok (after seen)) :
    watcher.KeepsLastCode start after seen := by
  obtain ⟨place, placed, -⟩ := FileStore.writeText_eq_ok_iff.mp writes
  have wrote := FileStore.onlyWrites_of_writeText placed writes
  refine .written seen [] before code place (by simp) found ?_ placed wrote rfl ?_
  · intro more before code within nonempty
    exact absurd (List.prefix_nil.mp within) nonempty
  · exact fun _ => wrote.written

/-- An event that is no look with code changes nothing else. -/
theorem KeepsLastCode.concat
    {event : WatchEvent}
    (keeps : watcher.KeepsLastCode start after seen)
    (nothing : ∀ before code,
      ¬ watcher.FindsCode start after (seen ++ [event]) before code)
    (others : after (seen ++ [event]) = event.applied (after seen)) :
    watcher.KeepsLastCode start after (seen ++ [event]) := by
  cases keeps with
  | unwritten earlierNothing earlierOthers =>
      refine .unwritten ?_ ?_
      · intro earlier before code within
        rcases List.prefix_concat_iff.mp within with rfl | shorter
        · exact nothing before code
        · exact earlierNothing earlier before code shorter
      · rw [others, earlierOthers, List.foldl_append]
        rfl
  | written earlier later before code place split found isLast placed wrote
      earlierOthers kept =>
      have moved : after (seen ++ [event]) =
          (later ++ [event]).foldl WatchEvent.applied (after earlier) := by
        rw [others, earlierOthers, List.foldl_append]
        rfl
      refine .written earlier (later ++ [event]) before code place ?_ found ?_
        placed wrote moved ?_
      · rw [split, List.append_assoc]
      · intro more before code within nonempty
        rcases List.prefix_concat_iff.mp within with rfl | shorter
        · rw [← List.append_assoc, ← split]
          exact nothing before code
        · exact isLast more before code shorter nonempty
      · intro untouched
        rw [moved]
        exact WatchEvent.get?_foldl_applied wrote.written untouched

end Looks

/-- As long as every look that finds code can write it, the watch goes on and
the output is kept. -/
theorem follows_keepsLastCode
    {start started : FileStore}
    {after : List WatchEvent → FileStore}
    (begun : (watcher.refresh start).outcome = .ok started)
    (agrees : ∀ events left, watcher.Follows started events left →
      after events = left)
    {events : List WatchEvent}
    (writable : ∀ seen before code, seen <+: events →
      watcher.FindsCode start after seen before code →
      watcher.CanWrite before code) :
    watcher.Follows started events (after events) ∧
      watcher.KeepsLastCode start after events := by
  -- The induction takes the last event off, since a look depends on the files
  -- that all the events before it left.
  induction events using List.reverseRecOn with
  | nil =>
      have begins := agrees [] started .begins
      refine ⟨by rw [begins]; exact .begins, ?_⟩
      have canWrite : ∀ code,
          codeOf? start watcher.shader watcher.loaded.dialect = some code →
            watcher.CanWrite start code :=
        fun code found => writable [] start code List.prefix_rfl ⟨.begins, found⟩
      rcases refresh_cases canWrite with
        ⟨noCode, refreshed⟩ | ⟨code, saved, found, writes, refreshed⟩
      · obtain rfl : start = started := Except.ok.inj (refreshed.symm.trans begun)
        refine .unwritten ?_ begins
        intro earlier before code within finds
        obtain rfl := List.prefix_nil.mp within
        obtain rfl := looksAt_nil finds.looks
        exact nomatch noCode.symm.trans finds.converts
      · obtain rfl : saved = started := Except.ok.inj (refreshed.symm.trans begun)
        rw [← begins] at writes
        exact keepsLastCode_of_findsCode ⟨.begins, found⟩ writes
  | append_singleton seen event inductionHypothesis =>
      obtain ⟨followed, keeps⟩ := inductionHypothesis fun earlier before code within =>
        writable earlier before code (within.trans (List.prefix_append seen _))
      have canWrite : ∀ path code, event = .modified path →
          Path.absolute (after seen).root path = watcher.shader →
          codeOf? (after seen) watcher.shader watcher.loaded.dialect =
            some code →
          watcher.CanWrite (after seen) code := by
        rintro path code rfl named found
        exact writable _ _ code List.prefix_rfl ⟨.told seen path named, found⟩
      rcases react_cases canWrite with
        ⟨noCode, reacts⟩ | ⟨path, code, saved, rfl, named, found, writes, reacts⟩
      · have follows := followed.reacts event _ reacts
        have moved := agrees _ _ follows
        refine ⟨by rwa [moved], keeps.concat ?_ moved⟩
        intro before code finds
        obtain ⟨rfl, path, modified, named⟩ := looksAt_concat finds.looks
        exact noCode path code modified named finds.converts
      · have follows := followed.reacts _ saved reacts
        have moved := agrees _ _ follows
        rw [← moved] at follows writes
        exact ⟨follows,
          keepsLastCode_of_findsCode ⟨.told seen path named, found⟩ writes⟩

end Watcher

/-! ## The command -/

theorem outcome_beginWatch
    {files : FileStore}
    {dialectFile : Option String}
    {reader : Yaml.Reader}
    {loaded : Dialect.Loaded}
    (loads : dialectFrom files reader dialectFile = .ok loaded)
    (shader output : String) :
    (beginWatch shader output dialectFile reader files).outcome =
      .ok ⟨Path.absolute files.root shader, output, loaded⟩ := by
  rw [beginWatch, Attempt.outcome_bind, outcome_dialectIn_of_ok loads]
  rfl

/-- How a watch ends that nothing but its observer ends. -/
def Observer.conclusion (observer : Observer) : Except Stop Unit :=
  (observer.verdict Observer.closing).bind fun _ =>
    match observer.departure with
    | .dead => .ok ()
    | .interrupted => .ok ()
    | .failed detail => .error (.failed (.observer detail))

theorem Observer.conclusion_eq (observer : Observer) :
    observer.conclusion = (observer.verdict Observer.closing).bind fun _ =>
      Watcher.settled observer.departure.result := by
  unfold conclusion
  cases observer.departure <;> rfl

section Begun

variable {files started left : FileStore} {shader output : String}
variable {dialectFile : Option String} {reader : Yaml.Reader}
variable {watcher : Watcher} {observer : Observer}
variable (begun : (beginWatch shader output dialectFile reader files).outcome =
  .ok watcher)

include begun

/-- A watch whose first look fails uses no observer. -/
theorem value_watch_of_error
    {failure : FileStore.WriteFailure}
    (fails : (watcher.refresh files).outcome = .error failure)
    (observer : Observer) :
    (watch files shader output dialectFile observer reader).value =
      Report.failed (.ofWriteError failure.error) failure.files := by
  have watched : Watching.Ends
      (watchOver shader output dialectFile observer reader) files
      (.error (.failed (.ofWriteError failure.error))) failure.files [] :=
    (Watching.ends_attempt begun).bind
      ((Watching.ends_change_of_error fails).bind_error _)
  rw [watch, watched.value, watched.deeds]
  rfl

variable (refreshed : (watcher.refresh files).outcome = .ok started)

include refreshed

/-- A watch whose first look goes well ends with its observer. -/
theorem value_watch_of_ok
    {result : Except Stop Unit}
    {actions : List ObserverAction}
    (ends : Watching.Ends (watcher.supervise shader observer) started result left
      actions) :
    (watch files shader output dialectFile observer reader).value =
      { ending := .ofResult result, files := left, observer := actions } := by
  have watched : Watching.Ends
      (watchOver shader output dialectFile observer reader) files result left
      actions :=
    (Watching.ends_attempt begun).bind
      ((Watching.ends_change_of_ok refreshed).bind ends)
  rw [watch, watched.value, watched.deeds]

/-- An observer that cannot be started ends the watch. -/
theorem value_watch_of_some
    {detail : String}
    (fails : (Observer.opening (Path.directory watcher.shader)).findSome?
      observer.faults = some detail) :
    (watch files shader output dialectFile observer reader).value =
      { ending := .stopped (.failed (.observer detail))
        files := started
        observer :=
          observer.done (Observer.opening (Path.directory watcher.shader)) } :=
  value_watch_of_ok begun refreshed
    (Watcher.ends_supervise_of_some fails shader started)

/-- However a watch ends, its observer is used in one way, up to a use that
fails. -/
theorem observer_watch (observer : Observer) :
    (watch files shader output dialectFile observer reader).value.observer =
      observer.done (Observer.opening (Path.directory watcher.shader) ++
        Observer.closing) := by
  cases opens : (Observer.opening (Path.directory watcher.shader)).findSome?
      observer.faults with
  | some detail =>
      rw [value_watch_of_some begun refreshed opens,
        Observer.done_append_of_some opens]
  | none =>
      obtain ⟨waited, left, waits⟩ :=
        watcher.exists_ends_await observer observer.events started
      rw [value_watch_of_ok begun refreshed
          (Watcher.ends_supervise_of_none opens waits shader),
        Observer.done_append_of_none opens]

/-- A watch that could react to all events ends as its observer does. -/
theorem value_watch_of_follows
    (observer : Observer)
    (works : (Observer.opening (Path.directory watcher.shader)).findSome?
      observer.faults = none)
    (followed : watcher.Follows started observer.events left) :
    (watch files shader output dialectFile observer reader).value =
      { ending := .ofResult observer.conclusion
        files := left
        observer := Observer.opening (Path.directory watcher.shader) ++
          observer.done Observer.closing } := by
  have departs : Watching.Ends (watcher.await observer []) left
      observer.departure.result left [] := Watcher.ends_depart observer left
  have waits := followed.ends_await departs
  rw [List.append_nil] at waits
  rw [observer.conclusion_eq]
  exact value_watch_of_ok begun refreshed
    (Watcher.ends_supervise_of_none works waits shader)

end Begun

/-- The same surroundings with another observer. -/
def Surroundings.under
    (surroundings : Surroundings)
    (observer : Observer) : Surroundings :=
  { surroundings with observer := observer }

/-- A working directory whose only shader has no entry point. -/
def brokenShader : Surroundings where
  files :=
    { root := "/work", entries := [(["a.glsl"], .file [118, 111, 105, 100])] }
  now := ⟨⟨2024, 1, 2⟩, 3, 4, 5, 0, some 0⟩
  channel := fun _ => .crashed "unreachable"

/-- The shader is missing for a while, then it is mended, and at last it is
removed for good.  The user interrupts the wait, and the observer cannot be
joined. -/
def mendedAndRemoved : Observer :=
  let mended := "void mainImage(out vec4 fragColor, in vec2 fragCoord) {}"
  { faults := fun action => if action = .join then some "cannot join" else none
    events :=
      [.removed ["a.glsl"], .modified "/work/a.glsl",
        .written ["a.glsl"] (Text.encode mended.toList), .modified "a.glsl",
        .removed ["a.glsl"]]
    departure := .interrupted }

end CommandLine
end ShaderLift
