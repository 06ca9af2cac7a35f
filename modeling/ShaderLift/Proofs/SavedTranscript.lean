import ShaderLift.Chat.Transcript
import ShaderLift.Proofs.Bytes
import ShaderLift.Proofs.FilePaths
import ShaderLift.Proofs.Yaml.RecordNodes

/-!
# Saved transcripts

A transcript that was saved is loaded back turn by turn, in order.  A text of a
turn comes back as it was unless it stands between single quotes in the file and
holds a next-line character: single quotes have no escapes, and a reader folds
that character like a line end.  A file does not tell who spoke, so that every
turn comes back as a dialogue.
-/

namespace ShaderLift
namespace Yaml

/-- Single quotes are where a next-line character is lost. -/
theorem reading_eq_self_iff (text : List Char) :
    reading text = text ↔ ('\x85' ∈ text → allowsSingle text = false) := by
  unfold reading styleOf
  cases plain : allowsPlain text with
  | true =>
      have noBreak : '\x85' ∉ text := by
        intro member
        have broken : text.any isBreak = true :=
          List.any_eq_true.mpr ⟨'\x85', member, rfl⟩
        simp [allowsPlain, broken] at plain
      simp [noBreak]
  | false =>
      cases single : allowsSingle text with
      | true => simp [foldNextLines_eq_self_iff]
      | false => simp

/-- A text that has a value is read from its bytes. -/
theorem exists_parse_encode
    {text : List Char}
    {value : Document.Value}
    (unended : '\r' ∉ text)
    (reads : read text = .ok value) :
    ∃ reading, parse (Text.encode text) = .ok reading ∧ reading.value = value := by
  unfold parse
  rw [Text.decodePieces_encode]
  dsimp only
  rw [Text.unifyLineEnds_of_not_mem unended, reads]
  exact ⟨_, rfl, rfl⟩

end Yaml

namespace Chat

open Document

/-! ## Turns -/

namespace Turn

/-- A text after it was written and read. -/
def rereadText (text : String) : String :=
  String.ofList (Yaml.reading text.toList)

/-- A turn after it was written and read. -/
def reread (turn : Turn) : Turn where
  createdAt := rereadText turn.createdAt
  userInput := rereadText turn.userInput
  userMessage := ⟨.user, rereadText turn.userMessage.content⟩
  assistantMessage := ⟨.assistant, rereadText turn.assistantMessage.content⟩
  shaderSource := rereadText turn.shaderSource

theorem isKey_of_mem_keys
    {name : String}
    (member : name ∈ keys) : Yaml.Scanner.IsKey name.toList := by
  have checked : ∀ name ∈ keys, name.toList ≠ [] ∧
      name.toList.all Yaml.Scanner.isNameChar = true ∧
      name.toList.length ≤ 1024 ∧ Yaml.resolvePlain name.toList = .text := by
    decide +kernel
  obtain ⟨nonempty, chars, short, isText⟩ := checked name member
  exact ⟨nonempty, List.all_eq_true.mp chars, short, isText⟩

theorem areReadable_entries (turns : List Turn) :
    Yaml.Scanner.AreReadable (turns.map entries) := by
  intro record member
  obtain ⟨turn, -, rfl⟩ := List.mem_map.mp member
  refine ⟨List.cons_ne_nil _ _, ?_⟩
  intro entry known
  apply isKey_of_mem_keys
  rw [← map_fst_entries turn]
  exact List.mem_map_of_mem known

theorem ofValue_recordValue
    (index : Int)
    (turn : Turn) : ofValue index (Yaml.recordValue turn.entries) = .ok turn.reread :=
  rfl

/-- No text of the turn holds a next-line character between single quotes. -/
def IsStable (turn : Turn) : Prop :=
  ∀ entry ∈ turn.entries, '\x85' ∈ entry.2.toList →
    Yaml.allowsSingle entry.2.toList = false

instance (turn : Turn) : Decidable turn.IsStable :=
  inferInstanceAs (Decidable (∀ entry ∈ turn.entries, _ → _))

theorem rereadText_eq_self_iff (text : String) :
    rereadText text = text ↔
      ('\x85' ∈ text.toList → Yaml.allowsSingle text.toList = false) := by
  rw [← Yaml.reading_eq_self_iff, rereadText, ← String.toList_inj,
    String.toList_ofList]

theorem reread_eq_self_iff (turn : Turn) :
    turn.reread = turn ↔ turn.IsDialogue ∧ turn.IsStable := by
  obtain ⟨createdAt, userInput, ⟨asker, request⟩, ⟨replier, reply⟩, shader⟩ := turn
  simp only [reread, IsDialogue, IsStable, entries, mk.injEq, Message.mk.injEq,
    rereadText_eq_self_iff, List.forall_mem_cons]
  constructor
  · rintro ⟨created, input, ⟨rfl, asked⟩, ⟨rfl, replied⟩, revised⟩
    exact ⟨⟨rfl, rfl⟩, created, input, asked, replied, revised, nofun⟩
  · rintro ⟨⟨rfl, rfl⟩, created, input, asked, replied, revised, -⟩
    exact ⟨created, input, ⟨rfl, asked⟩, ⟨rfl, replied⟩, revised⟩

end Turn

/-! ## Transcripts -/

namespace Transcript

theorem ofItems_recordValue
    (index : Int)
    (turns : Transcript) :
    ofItems index (turns.map fun turn => Yaml.recordValue turn.entries) =
      .ok (turns.map Turn.reread) := by
  induction turns generalizing index with
  | nil => rfl
  | cons turn turns inductionHypothesis =>
      rw [List.map_cons, ofItems, Turn.ofValue_recordValue]
      simp only [inductionHypothesis, List.map_cons]

/-- The text of a transcript's file has the transcript as its value. -/
theorem read_text (turns : Transcript) :
    Yaml.read (text turns) =
      .ok (.list (turns.map fun turn => Yaml.recordValue turn.entries)) := by
  rw [text, Yaml.read_writeRecords (Turn.areReadable_entries turns), List.map_map]
  rfl

theorem not_mem_text (turns : Transcript) : '\r' ∉ text turns := by
  cases turns with
  | nil => decide
  | cons turn turns =>
      have kept := List.all_eq_true.mp
        (Yaml.all_isKept_records (Turn.areReadable_entries (turn :: turns)))
      intro member
      exact absurd (kept '\r' member) (by decide)

theorem load_of_save
    {store saved : FileStore}
    {path : String}
    {turns : Transcript}
    (reachable : store.IsRooted ∨ Path.plain path = path)
    (done : save store path turns = .ok saved) :
    load saved path = .ok (turns.map Turn.reread) := by
  have found := FileStore.lookup_plain_of_writeText reachable done
  rw [String.toList_ofList] at found
  have present : saved.contains (Path.plain path) = true := by
    rw [FileStore.contains, found]
  have stored : saved.readBytes (Path.plain path) =
      .ok (Text.encode (text turns)) := by
    rw [FileStore.readBytes, found]
  obtain ⟨reading, parsed, valued⟩ :=
    Yaml.exists_parse_encode (not_mem_text turns) (read_text turns)
  have items := ofItems_recordValue 0 turns
  simp only [load, present, stored, ofBytes, parsed, valued, ofValue, items,
    Bool.not_true, Bool.false_eq_true, if_false, bind, Except.bind,
    Except.mapError]

/-- A transcript that was saved loads back with every turn in its place, each
text as its style reads it.  It loads back unchanged exactly if every turn is a
dialogue and no text with a next-line character is written between single
quotes.  Where the working directory is given by an absolute path, the path of
the file need not be plain. -/
theorem load_save_eq_ok_iff
    {store saved : FileStore}
    {path : String}
    {turns : Transcript}
    (reachable : store.IsRooted ∨ Path.plain path = path)
    (done : save store path turns = .ok saved) :
    load saved path = .ok (turns.map Turn.reread) ∧
      (load saved path = .ok turns ↔
        ∀ turn ∈ turns, turn.IsDialogue ∧ turn.IsStable) := by
  have loaded := load_of_save reachable done
  refine ⟨loaded, ?_⟩
  calc
    load saved path = .ok turns ↔ turns.map Turn.reread = turns.map id := by
      rw [loaded, Except.ok.injEq, List.map_id]
    _ ↔ ∀ turn ∈ turns, turn.reread = turn := List.map_inj_left
    _ ↔ ∀ turn ∈ turns, turn.IsDialogue ∧ turn.IsStable := by
      simp only [Turn.reread_eq_self_iff]

/-- A path that is not plain, and texts in all three styles, one of them with an
escaped next-line character. -/
theorem load_save_notes :
    ∃ saved,
      FileStore.IsRooted ⟨"/work", []⟩ ∧
      save ⟨"/work", []⟩ "./h.yaml"
          [⟨"2024-01-01", "it's\nlate", ⟨.user, "plain words"⟩, ⟨.assistant, ""⟩,
            "a \x85b"⟩] =
        .ok saved ∧
      load saved "./h.yaml" =
        .ok [⟨"2024-01-01", "it's\nlate", ⟨.user, "plain words"⟩,
          ⟨.assistant, ""⟩, "a \x85b"⟩] := by
  have rooted : FileStore.IsRooted ⟨"/work", []⟩ := by
    decide
  obtain ⟨saved, done⟩ :
      ∃ saved, save ⟨"/work", []⟩ "./h.yaml"
        [⟨"2024-01-01", "it's\nlate", ⟨.user, "plain words"⟩, ⟨.assistant, ""⟩,
          "a \x85b"⟩] = .ok saved :=
    ⟨_, rfl⟩
  refine ⟨saved, rooted, done, ?_⟩
  refine (load_save_eq_ok_iff (.inl rooted) done).2.mpr ?_
  decide

/-- A next-line character inside a word is written between single quotes and
comes back as a space. -/
theorem load_save_nextLine :
    ∃ saved,
      save ⟨"/work", []⟩ "h.yaml"
          [⟨"2024-01-01T00:00:00+00:00", "a\x85b", ⟨.user, "request"⟩,
            ⟨.assistant, "reply"⟩, "void main() \x7b\x7d"⟩] = .ok saved ∧
      load saved "h.yaml" =
        .ok [⟨"2024-01-01T00:00:00+00:00", "a b", ⟨.user, "request"⟩,
          ⟨.assistant, "reply"⟩, "void main() \x7b\x7d"⟩] := by
  obtain ⟨saved, done⟩ :
      ∃ saved, save ⟨"/work", []⟩ "h.yaml"
        [⟨"2024-01-01T00:00:00+00:00", "a\x85b", ⟨.user, "request"⟩,
          ⟨.assistant, "reply"⟩, "void main() \x7b\x7d"⟩] = .ok saved :=
    ⟨_, rfl⟩
  refine ⟨saved, done, ?_⟩
  rw [load_of_save (.inr rfl) done]
  decide +kernel

end Transcript
end Chat
end ShaderLift
