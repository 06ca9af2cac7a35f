import Mathlib.Data.List.Forall2
import Mathlib.Data.List.Perm.Subperm
import ShaderLift.Chat.Transcript
import ShaderLift.Proofs.DialectFields
import ShaderLift.Proofs.SavedTranscript
import ShaderLift.Proofs.Yaml.OpenAnchors

/-!
# Documents of transcripts

A document is a transcript if it holds nothing or a list of complete turns, each
a mapping with a text under all five names.  Every other document is refused: if
it is a list, for its first item that is no complete turn, and this item for the
first of three checks that it fails.
-/

namespace ShaderLift

namespace Document

/-- The value is a list, if only one around itself. -/
def Value.IsList (value : Value) : Prop :=
  (∃ items, value = .list items) ∨ value = .enclosing false

/-- The value is a mapping, if only one around itself. -/
def Value.IsMapping (value : Value) : Prop :=
  (∃ entries, value = .mapping entries) ∨ value = .enclosing true

end Document

namespace Chat

open Document

namespace Turn

/-- The value is a mapping with a text under each name of a turn. -/
def IsComplete (item : Value) : Prop :=
  ∃ entries, item = .mapping entries ∧
    ∀ name ∈ keys, ∃ text, Entries.find? entries name = some (.text text)

/-- The turn has the texts of a mapping under its own names, and its messages
are those of the user and of the assistant. -/
structure IsReadFrom (turn : Turn) (entries : Entries) : Prop where
  agrees : ∀ entry ∈ turn.entries,
    Entries.find? entries entry.1 = some (.text entry.2)
  messages : ∃ request reply,
    Entries.find? entries "user_message" = some (.text request) ∧
    Entries.find? entries "assistant_message" = some (.text reply) ∧
    turn.messages = [⟨.user, request⟩, ⟨.assistant, reply⟩]

/-- The value describes a turn. -/
def Describes (item : Value) (turn : Turn) : Prop :=
  ∃ entries, item = .mapping entries ∧ turn.IsReadFrom entries

/-- Why an item is no turn: it is no mapping, or a mapping that lacks some of
the names, which are listed in their order, or one that has all the names and a
value that is no text. -/
inductive Refused (index : Int) (item : Value) : TurnError → Prop
  | notMapping
      (other : ¬ item.IsMapping) :
      Refused index item (.notMapping index)
  | missingKeys {entries : Entries} {names : List String}
      (isMapping : item = .mapping entries)
      (lacking : names ≠ [])
      (ordered : names.Sublist keys)
      (listed : ∀ name ∈ keys,
        name ∈ names ↔ Entries.find? entries name = none) :
      Refused index item (.missingKeys index names)
  | notText {entries : Entries} {name : String} {value : Value}
      (isMapping : item = .mapping entries)
      (complete : ∀ name ∈ keys, Entries.find? entries name ≠ none)
      (isKey : name ∈ keys)
      (found : Entries.find? entries name = some value)
      (other : ¬ value.IsText) :
      Refused index item (.notText index)

/-! ## Items -/

theorem text?_eq_some_iff
    (entries : Entries)
    (name text : String) :
    text? entries name = some text ↔
      Entries.find? entries name = some (.text text) := by
  rw [text?]
  split
  next found => simp [found]
  next other =>
    refine iff_of_false (by simp) fun found => ?_
    exact other text found

theorem ofTexts?_eq_some_iff
    (entries : Entries)
    (turn : Turn) : ofTexts? entries = some turn ↔ turn.IsReadFrom entries := by
  simp only [ofTexts?, Option.bind_eq_bind, Option.bind_eq_some_iff,
    Option.pure_def, Option.some.injEq, text?_eq_some_iff]
  constructor
  · rintro ⟨createdAt, created, userInput, input, request, asked, reply, replied,
      shader, revised, rfl⟩
    refine ⟨?_, request, reply, asked, replied, rfl⟩
    simp [Turn.entries, created, input, asked, replied, revised]
  · rintro ⟨agrees, request, reply, asked, replied, spoken⟩
    obtain ⟨createdAt, userInput, userMessage, assistantMessage, shader⟩ := turn
    obtain ⟨rfl, rfl⟩ : userMessage = ⟨.user, request⟩ ∧
        assistantMessage = ⟨.assistant, reply⟩ := by
      simpa [Turn.messages] using spoken
    exact ⟨createdAt, agrees ("created_at", _) (by simp [Turn.entries]),
      userInput, agrees ("user_input", _) (by simp [Turn.entries]),
      request, asked, reply, replied,
      shader, agrees ("shader_source", _) (by simp [Turn.entries]), rfl⟩

theorem exists_isReadFrom_iff (entries : Entries) :
    (∃ turn : Turn, turn.IsReadFrom entries) ↔
      ∀ name ∈ keys, ∃ text, Entries.find? entries name = some (.text text) := by
  constructor
  · rintro ⟨turn, isRead⟩ name isKey
    rw [← map_fst_entries turn] at isKey
    obtain ⟨entry, member, rfl⟩ := List.mem_map.mp isKey
    exact ⟨entry.2, isRead.agrees entry member⟩
  · intro complete
    obtain ⟨createdAt, created⟩ := complete "created_at" (by simp [keys])
    obtain ⟨userInput, input⟩ := complete "user_input" (by simp [keys])
    obtain ⟨request, asked⟩ := complete "user_message" (by simp [keys])
    obtain ⟨reply, replied⟩ := complete "assistant_message" (by simp [keys])
    obtain ⟨shaderSource, shader⟩ := complete "shader_source" (by simp [keys])
    refine ⟨⟨createdAt, userInput, ⟨.user, request⟩, ⟨.assistant, reply⟩,
      shaderSource⟩, ?_, request, reply, asked, replied, rfl⟩
    simp [Turn.entries, created, input, asked, replied, shader]

theorem isComplete_iff (item : Value) :
    IsComplete item ↔ ∃ turn, Describes item turn := by
  constructor
  · rintro ⟨entries, rfl, complete⟩
    obtain ⟨turn, isRead⟩ := (exists_isReadFrom_iff entries).mpr complete
    exact ⟨turn, entries, rfl, isRead⟩
  · rintro ⟨turn, entries, rfl, isRead⟩
    exact ⟨entries, rfl, (exists_isReadFrom_iff entries).mp ⟨turn, isRead⟩⟩

/-- The names that a mapping lacks. -/
def missing (entries : Entries) : List String :=
  keys.filter fun name => (Entries.find? entries name).isNone

theorem mem_missing_iff
    (entries : Entries)
    (name : String) :
    name ∈ missing entries ↔
      name ∈ keys ∧ Entries.find? entries name = none := by
  rw [missing, List.mem_filter, Option.isNone_iff_eq_none]

/-- Names that are listed in their order are listed in one way. -/
theorem eq_missing
    {entries : Entries}
    {names : List String}
    (ordered : names.Sublist keys)
    (listed : ∀ name ∈ keys,
      name ∈ names ↔ Entries.find? entries name = none) :
    names = missing entries := by
  have kept : names.filter (fun name => (Entries.find? entries name).isNone) =
      names := by
    rw [List.filter_eq_self]
    intro name member
    rw [Option.isNone_iff_eq_none]
    exact (listed name (ordered.subset member)).mp member
  have isSublist : names.Sublist (missing entries) :=
    kept ▸ ordered.filter _
  have distinct : (missing entries).Nodup :=
    List.filter_sublist.nodup (by decide)
  refine isSublist.eq_of_length_le (List.subperm_of_subset distinct ?_).length_le
  intro name member
  obtain ⟨isKey, absent⟩ := (mem_missing_iff entries name).mp member
  exact (listed name isKey).mpr absent

/-- A mapping is first looked through for its names, and then for texts. -/
theorem ofValue_mapping
    (index : Int)
    (entries : Entries) :
    ofValue index (.mapping entries) =
      if missing entries = [] then
        (ofTexts? entries).elim (.error (.notText index)) .ok
      else .error (.missingKeys index (missing entries)) := by
  rw [ofValue, ← missing]
  split
  next complete =>
    rw [if_pos complete]
    cases ofTexts? entries <;> rfl
  next lacking => rw [if_neg lacking]

theorem ofValue_of_not_isMapping
    {item : Value}
    (other : ∀ entries, item ≠ .mapping entries)
    (index : Int) : ofValue index item = .error (.notMapping index) := by
  rw [ofValue]
  exact other

/-- A turn is read from the items that describe it. -/
theorem ofValue_eq_ok_iff
    (index : Int)
    (item : Value)
    (turn : Turn) : ofValue index item = .ok turn ↔ Describes item turn := by
  by_cases isMapping : ∃ entries, item = .mapping entries
  · obtain ⟨entries, rfl⟩ := isMapping
    have describes : Describes (.mapping entries) turn ↔
        ofTexts? entries = some turn := by
      rw [ofTexts?_eq_some_iff]
      simp [Describes]
    rw [describes, ofValue_mapping]
    split
    next => cases ofTexts? entries <;> simp
    next lacking =>
      refine iff_of_false (by simp) fun made => lacking ?_
      rw [ofTexts?_eq_some_iff] at made
      refine List.eq_nil_iff_forall_not_mem.mpr fun name member => ?_
      obtain ⟨isKey, absent⟩ := (mem_missing_iff entries name).mp member
      obtain ⟨text, found⟩ :=
        (exists_isReadFrom_iff entries).mp ⟨turn, made⟩ name isKey
      rw [absent] at found
      contradiction
  · rw [not_exists] at isMapping
    rw [ofValue_of_not_isMapping isMapping]
    refine iff_of_false (by simp) ?_
    rintro ⟨entries, same, -⟩
    exact isMapping entries same

theorem eq_nil_missing_iff (entries : Entries) :
    missing entries = [] ↔
      ∀ name ∈ keys, Entries.find? entries name ≠ none := by
  simp only [List.eq_nil_iff_forall_not_mem, mem_missing_iff, not_and]

theorem ofTexts?_eq_none_iff (entries : Entries) :
    ofTexts? entries = none ↔
      ∃ name ∈ keys, ∀ text,
        Entries.find? entries name ≠ some (.text text) := by
  have unread := not_congr (exists_isReadFrom_iff entries)
  simp only [← ofTexts?_eq_some_iff] at unread
  rw [Option.eq_none_iff_forall_ne_some, ← not_exists, unread]
  push Not
  rfl

theorem refused_of_mapping
    {index : Int}
    {entries : Entries}
    {error : TurnError}
    (failed : ofValue index (.mapping entries) = .error error) :
    Refused index (.mapping entries) error := by
  rw [ofValue_mapping] at failed
  split at failed
  next complete =>
    rw [eq_nil_missing_iff] at complete
    cases unread : ofTexts? entries with
    | some turn =>
        rw [unread] at failed
        cases failed
    | none =>
        rw [unread] at failed
        cases failed
        obtain ⟨name, isKey, other⟩ := (ofTexts?_eq_none_iff entries).mp unread
        obtain ⟨value, found⟩ :=
          Option.ne_none_iff_exists'.mp (complete name isKey)
        refine .notText rfl complete isKey found ?_
        rintro ⟨text, rfl⟩
        exact other text found
  next lacking =>
    cases failed
    refine .missingKeys rfl lacking List.filter_sublist fun name isKey => ?_
    simp [mem_missing_iff, isKey]

theorem Refused.ofValue_eq
    {index : Int}
    {item : Value}
    {error : TurnError}
    (refused : Refused index item error) : ofValue index item = .error error := by
  cases refused with
  | notMapping other =>
      exact ofValue_of_not_isMapping
        (fun entries same => other (.inl ⟨entries, same⟩)) index
  | missingKeys isMapping lacking ordered listed =>
      rw [isMapping, ofValue_mapping]
      rw [eq_missing ordered listed] at lacking ⊢
      rw [if_neg lacking]
  | @notText entries name value isMapping complete isKey found other =>
      have unread : ofTexts? entries = none := by
        refine (ofTexts?_eq_none_iff entries).mpr ⟨name, isKey, ?_⟩
        rintro text isText
        rw [found, Option.some.injEq] at isText
        exact other ⟨text, isText⟩
      rw [isMapping, ofValue_mapping,
        if_pos ((eq_nil_missing_iff entries).mpr complete), unread,
        Option.elim_none]

/-- An item is refused for the first check that it fails. -/
theorem ofValue_eq_error_iff
    {item : Value}
    (whole : item ≠ .enclosing true)
    (index : Int)
    (error : TurnError) :
    ofValue index item = .error error ↔ Refused index item error := by
  refine ⟨fun failed => ?_, Refused.ofValue_eq⟩
  by_cases isMapping : ∃ entries, item = .mapping entries
  · obtain ⟨entries, rfl⟩ := isMapping
    exact refused_of_mapping failed
  · rw [ofValue_of_not_isMapping (not_exists.mp isMapping)] at failed
    cases failed
    exact .notMapping fun nested => nested.elim isMapping whole

theorem exists_refused
    {item : Value}
    (whole : item ≠ .enclosing true)
    (incomplete : ¬ IsComplete item)
    (index : Int) : ∃ error, Refused index item error := by
  cases made : ofValue index item with
  | error error => exact ⟨error, (ofValue_eq_error_iff whole index error).mp made⟩
  | ok turn =>
      rw [ofValue_eq_ok_iff] at made
      exact absurd ((isComplete_iff item).mpr ⟨turn, made⟩) incomplete

/-- The wording of an error starts with the place of the turn. -/
theorem Refused.message
    {index : Int}
    {item : Value}
    {error : TurnError}
    (refused : Refused index item error) :
    ∃ reason, error.message = s!"Turn {index} " ++ reason := by
  cases refused with
  | notMapping other =>
      refine ⟨"must be a mapping", ?_⟩
      simp only [TurnError.message, String.append_assoc]
      rfl
  | @missingKeys entries names isMapping lacking ordered listed =>
      refine ⟨"is missing keys: " ++ String.intercalate ", " names, ?_⟩
      have spaced : " is missing keys: " = " " ++ "is missing keys: " := rfl
      simp only [TurnError.message, String.append_assoc, spaced]
      rfl
  | notText isMapping complete isKey found other =>
      refine ⟨"values must be strings", ?_⟩
      simp only [TurnError.message, String.append_assoc]
      rfl

end Turn

/-! ## Lists of items -/

namespace Transcript

/-- The document is empty, or a list of complete turns. -/
def IsComplete (value : Value) : Prop :=
  value = .null ∨
    ∃ items, value = .list items ∧ ∀ item ∈ items, Turn.IsComplete item

/-- The transcript has one turn for each item of the document, in order. -/
def IsReadFrom (turns : Transcript) (value : Value) : Prop :=
  value = .null ∧ turns = [] ∨
    ∃ items, value = .list items ∧ List.Forall₂ Turn.Describes items turns

/-- Why a document is no transcript: it is no list, or the first item that is no
complete turn is refused, by its place in the list. -/
inductive Refused (path : String) (value : Value) : TranscriptError → Prop
  | notList
      (filled : value ≠ .null)
      (other : ¬ value.IsList) :
      Refused path value (.notList path)
  | turn {front back : List Value} {item : Value} {error : TurnError}
      (isList : value = .list (front ++ item :: back))
      (complete : ∀ earlier ∈ front, Turn.IsComplete earlier)
      (refused : Turn.Refused front.length item error) :
      Refused path value (.turn error)

theorem exists_forall₂_describes_iff (items : List Value) :
    (∃ turns, List.Forall₂ Turn.Describes items turns) ↔
      ∀ item ∈ items, Turn.IsComplete item := by
  simp only [Turn.isComplete_iff]
  induction items with
  | nil => simp
  | cons item items inductionHypothesis =>
      rw [List.forall_mem_cons, ← inductionHypothesis]
      constructor
      · rintro ⟨turns, described⟩
        cases described with
        | cons first others => exact ⟨⟨_, first⟩, _, others⟩
      · rintro ⟨⟨turn, first⟩, turns, others⟩
        exact ⟨turn :: turns, .cons first others⟩

theorem exists_isReadFrom_iff (value : Value) :
    (∃ turns, IsReadFrom turns value) ↔ IsComplete value := by
  constructor
  · rintro ⟨turns, ⟨isNull, -⟩ | ⟨items, isList, described⟩⟩
    · exact .inl isNull
    · exact .inr ⟨items, isList,
        (exists_forall₂_describes_iff items).mp ⟨turns, described⟩⟩
  · rintro (isNull | ⟨items, isList, complete⟩)
    · exact ⟨[], .inl ⟨isNull, rfl⟩⟩
    · obtain ⟨turns, described⟩ :=
        (exists_forall₂_describes_iff items).mpr complete
      exact ⟨turns, .inr ⟨items, isList, described⟩⟩

theorem ofItems_eq_ok_iff
    (index : Int)
    (items : List Value)
    (turns : Transcript) :
    ofItems index items = .ok turns ↔
      List.Forall₂ Turn.Describes items turns := by
  induction items generalizing index turns with
  | nil => simp [ofItems, eq_comm]
  | cons item items inductionHypothesis =>
      rw [ofItems, List.forall₂_cons_left_iff]
      simp only [← Turn.ofValue_eq_ok_iff index, ← inductionHypothesis (index + 1)]
      cases Turn.ofValue index item with
      | error error => simp
      | ok turn =>
          cases ofItems (index + 1) items with
          | error error => simp
          | ok others => simp [eq_comm]

/-- The first item that is no complete turn is the first one of the list, or
the first behind a complete turn. -/
theorem exists_refused_cons_iff
    (index : Int)
    (item : Value)
    (items : List Value)
    (error : TurnError) :
    (∃ front other back, item :: items = front ++ other :: back ∧
        (∀ earlier ∈ front, Turn.IsComplete earlier) ∧
        Turn.Refused (index + front.length) other error) ↔
      Turn.Refused index item error ∨
        Turn.IsComplete item ∧
          ∃ front other back, items = front ++ other :: back ∧
            (∀ earlier ∈ front, Turn.IsComplete earlier) ∧
            Turn.Refused (index + 1 + front.length) other error := by
  have place (front : List Value) :
      index + ((item :: front).length : Int) = index + 1 + front.length := by
    rw [List.length_cons]
    omega
  constructor
  · rintro ⟨front, other, back, divided, complete, refused⟩
    cases front with
    | nil =>
        obtain ⟨rfl, -⟩ := List.cons.inj divided
        exact .inl (by simpa using refused)
    | cons first front =>
        obtain ⟨rfl, behind⟩ := List.cons.inj divided
        rw [List.forall_mem_cons] at complete
        exact .inr ⟨complete.1, front, other, back, behind, complete.2,
          place front ▸ refused⟩
  · rintro (refused | ⟨complete, front, other, back, rfl, others, refused⟩)
    · exact ⟨[], item, items, rfl, by simp, by simpa using refused⟩
    · exact ⟨item :: front, other, back, rfl,
        List.forall_mem_cons.mpr ⟨complete, others⟩, place front ▸ refused⟩

/-- The items are read in order, so the error is that of the first item that is
no complete turn. -/
theorem ofItems_eq_error_iff
    {items : List Value}
    (whole : .enclosing true ∉ items)
    (index : Int)
    (error : TurnError) :
    ofItems index items = .error error ↔
      ∃ front item back, items = front ++ item :: back ∧
        (∀ earlier ∈ front, Turn.IsComplete earlier) ∧
        Turn.Refused (index + front.length) item error := by
  induction items generalizing index with
  | nil => simp [ofItems]
  | cons item items inductionHypothesis =>
      rw [List.mem_cons, not_or] at whole
      rw [ofItems, exists_refused_cons_iff,
        ← inductionHypothesis whole.2 (index + 1), Turn.isComplete_iff,
        ← Turn.ofValue_eq_error_iff (Ne.symm whole.1)]
      simp only [← Turn.ofValue_eq_ok_iff index]
      cases Turn.ofValue index item with
      | error cause => simp
      | ok turn => cases ofItems (index + 1) items <;> simp

theorem ofValue_of_not_isList
    {value : Value}
    (filled : value ≠ .null)
    (other : ∀ items, value ≠ .list items)
    (path : String) : ofValue path value = .error (.notList path) := by
  rw [ofValue]
  · exact filled
  · exact other

theorem ofValue_eq_ok_iff
    (path : String)
    (value : Value)
    (turns : Transcript) :
    ofValue path value = .ok turns ↔ IsReadFrom turns value := by
  by_cases isNull : value = .null
  · simp [isNull, ofValue, IsReadFrom, eq_comm]
  by_cases isList : ∃ items, value = .list items
  · obtain ⟨items, rfl⟩ := isList
    have items_ok := ofItems_eq_ok_iff 0 items turns
    simp only [IsReadFrom, Value.list.injEq, exists_eq_left', ← items_ok, ofValue]
    cases ofItems 0 items <;> simp
  · rw [not_exists] at isList
    simp [ofValue_of_not_isList isNull isList, IsReadFrom, isNull, isList]

theorem ofValue_list_eq_error_iff
    (path : String)
    (items : List Value)
    (error : TranscriptError) :
    ofValue path (.list items) = .error error ↔
      ∃ cause, error = .turn cause ∧ ofItems 0 items = .error cause := by
  simp only [ofValue]
  cases ofItems 0 items <;> simp [eq_comm]

/-- A document that is parsed is refused for its first flaw. -/
theorem ofValue_eq_error_iff
    {bytes : List UInt8}
    {value : Value}
    {surrogates : Text.Surrogates}
    (parsed : Yaml.parse bytes = .ok ⟨value, surrogates⟩)
    (path : String)
    (error : TranscriptError) :
    ofValue path value = .error error ↔ Refused path value error := by
  obtain ⟨outermost, unnested⟩ := Yaml.outermost_of_parse parsed
  constructor
  · intro failed
    by_cases isList : ∃ items, value = .list items
    · obtain ⟨items, rfl⟩ := isList
      obtain ⟨cause, rfl, stopped⟩ :=
        (ofValue_list_eq_error_iff path items error).mp failed
      obtain ⟨front, item, back, rfl, complete, refused⟩ :=
        (ofItems_eq_error_iff (unnested items rfl) 0 cause).mp stopped
      exact .turn rfl complete (by simpa using refused)
    · have filled : value ≠ .null := by
        rintro rfl
        cases failed
      rw [ofValue_of_not_isList filled (not_exists.mp isList)] at failed
      cases failed
      exact .notList filled fun other => other.elim isList (outermost false)
  · intro refused
    cases refused with
    | notList filled other =>
        exact ofValue_of_not_isList filled
          (fun items same => other (.inl ⟨items, same⟩)) path
    | @turn front back item cause isList complete refused =>
        subst isList
        refine (ofValue_list_eq_error_iff path _ _).mpr ⟨cause, rfl, ?_⟩
        exact (ofItems_eq_error_iff (unnested _ rfl) 0 cause).mpr
          ⟨front, item, back, rfl, complete, by simpa using refused⟩

/-! ## Files -/

/-- The file is there, and the value was parsed from its bytes. -/
structure Holds (store : FileStore) (path : String) (value : Value) : Prop where
  present : store.contains (Path.plain path) = true
  parsed : ∃ bytes surrogates, store.readBytes (Path.plain path) = .ok bytes ∧
    Yaml.parse bytes = .ok ⟨value, surrogates⟩

theorem Holds.load_eq
    {store : FileStore}
    {path : String}
    {value : Value}
    (holds : Holds store path value) :
    load store path = ofValue (Path.plain path) value := by
  obtain ⟨bytes, surrogates, stored, parsed⟩ := holds.parsed
  simp only [load, holds.present, stored, ofBytes, parsed, Bool.not_true,
    Bool.false_eq_true, if_false, bind, Except.bind, Except.mapError]

/-- What was written as records is held as a list of mappings. -/
theorem holds_of_writeText
    {store saved : FileStore}
    {path : String}
    {records : Yaml.Records}
    (reachable : store.IsRooted ∨ Path.plain path = path)
    (readable : Yaml.Scanner.AreReadable records)
    (done : store.writeText path (String.ofList (Yaml.writeRecords records)) =
      .ok saved) :
    Holds saved path (.list (records.map Yaml.recordValue)) := by
  have found := FileStore.lookup_plain_of_writeText reachable done
  rw [String.toList_ofList] at found
  have unended : '\r' ∉ Yaml.writeRecords records := by
    cases records with
    | nil => decide
    | cons record records =>
        have kept := List.all_eq_true.mp (Yaml.all_isKept_records readable)
        exact fun member => absurd (kept '\r' member) (by decide)
  obtain ⟨⟨_, surrogates⟩, parsed, rfl⟩ :=
    Yaml.exists_parse_encode unended (Yaml.read_writeRecords readable)
  refine ⟨?_, Text.encode (Yaml.writeRecords records), surrogates, ?_, parsed⟩
  · rw [FileStore.contains, found]
  · rw [FileStore.readBytes, found]

/-- A file loads exactly if its value is empty or a list of complete turns, and
then one turn for each item, in order.  Every other value is refused, for one
reason; in a list it is the first item that is no complete turn that is refused,
and the wording starts with its place. -/
theorem load_ok_iff_isComplete
    {store : FileStore}
    {path : String}
    {value : Value}
    (holds : Holds store path value) :
    ((∃ turns, load store path = .ok turns) ↔ IsComplete value) ∧
    (∀ turns, load store path = .ok turns ↔ IsReadFrom turns value) ∧
    (∀ error, load store path = .error error ↔
      Refused (Path.plain path) value error) ∧
    ∀ front item back, value = .list (front ++ item :: back) →
      (∀ earlier ∈ front, Turn.IsComplete earlier) → ¬ Turn.IsComplete item →
      ∃ error reason, load store path = .error (.turn error) ∧
        Turn.Refused front.length item error ∧
        error.message = s!"Turn {front.length} " ++ reason := by
  obtain ⟨bytes, surrogates, -, parsed⟩ := holds.parsed
  have accepted := ofValue_eq_ok_iff (Path.plain path) value
  have rejected := ofValue_eq_error_iff parsed (Path.plain path)
  rw [holds.load_eq]
  refine ⟨?_, accepted, rejected, ?_⟩
  · simp only [accepted, exists_isReadFrom_iff]
  · intro front item back isList complete incomplete
    have whole : item ≠ .enclosing true := by
      rintro rfl
      exact (Yaml.outermost_of_parse parsed).2 _ isList (by simp)
    obtain ⟨error, refused⟩ := Turn.exists_refused whole incomplete front.length
    obtain ⟨reason, worded⟩ := refused.message
    exact ⟨error, reason, (rejected _).mpr (.turn isList complete refused),
      refused, worded⟩

/-- A complete turn with one more name. -/
def annotated : List (String × String) :=
  [("note", "kept"), ("created_at", "now"), ("user_input", "dim it"),
    ("user_message", "request"), ("assistant_message", "reply"),
    ("shader_source", "void main();")]

/-- A complete turn, and one that was left unfinished. -/
def unfinished : Yaml.Records :=
  [annotated, [("user_input", "more"), ("created_at", "later")]]

/-- The second item of a file is refused for the names that it lacks. -/
theorem load_unfinished :
    ∃ saved,
      FileStore.writeText ⟨"/work", []⟩ "h.yaml"
        (String.ofList (Yaml.writeRecords unfinished)) = .ok saved ∧
      Holds saved "h.yaml" (.list (unfinished.map Yaml.recordValue)) ∧
      load saved "h.yaml" = .error (.turn (.missingKeys 1
        ["user_message", "assistant_message", "shader_source"])) := by
  have readable : Yaml.Scanner.AreReadable unfinished := by
    have checked : ∀ record ∈ unfinished, record ≠ [] ∧ ∀ entry ∈ record,
        entry.1.toList ≠ [] ∧
        entry.1.toList.all Yaml.Scanner.isNameChar = true ∧
        entry.1.toList.length ≤ 1024 ∧
        Yaml.resolvePlain entry.1.toList = .text := by
      decide +kernel
    intro record member
    refine ⟨(checked record member).1, fun entry known => ?_⟩
    obtain ⟨nonempty, chars, short, isText⟩ := (checked record member).2 entry known
    exact ⟨nonempty, List.all_eq_true.mp chars, short, isText⟩
  obtain ⟨saved, done⟩ :
      ∃ saved, FileStore.writeText ⟨"/work", []⟩ "h.yaml"
        (String.ofList (Yaml.writeRecords unfinished)) = .ok saved :=
    ⟨_, rfl⟩
  have holds := holds_of_writeText (.inr rfl) readable done
  refine ⟨saved, done, holds, ?_⟩
  refine ((load_ok_iff_isComplete holds).2.2.1 _).mpr
    (@Refused.turn _ _ [Yaml.recordValue annotated] [] _ _ rfl ?_ ?_)
  · rw [List.forall_mem_singleton, Turn.isComplete_iff]
    exact ⟨_, (Turn.ofValue_eq_ok_iff 0 _ _).mp rfl⟩
  · exact (Turn.ofValue_eq_error_iff (by simp [Yaml.recordValue]) 1 _).mp rfl

end Transcript
end Chat
end ShaderLift
