import ShaderLift.Proofs.Yaml.RecordTokens
import ShaderLift.Yaml.Read

/-!
# Nodes and values of records

The tokens of a list of records are read as a list of mappings whose keys and
values are texts.  Nothing is merged and no scalar has a fault, so the value of
the document is the list of its records, each text as its style reads it.
-/

namespace ShaderLift
namespace Yaml

open Document

/-- What a written text is read as. -/
def reading (text : List Char) : List Char :=
  match styleOf text with
  | .plain => text
  | .single => foldNextLines false text
  | .double => text

/-- The nodes of an entry. -/
def entryNode (entry : String × String) : Node × Node :=
  (.scalar .text entry.1.toList, .scalar .text (reading entry.2.toList))

/-- The node of a record. -/
def recordNode (record : List (String × String)) : Node :=
  .mapping .mapping (record.map entryNode)

/-! ## Nodes -/

/-- A parser without anchors, before some tokens. -/
def parsing (ahead : List Token) : Parser :=
  { ahead, fault := none, handles := standardHandles }

@[simp] theorem peek_parsing
    (token : Token)
    (rest : List Token) : (parsing (token :: rest)).peek = .ok (some token) :=
  rfl

@[simp] theorem drop_parsing
    (token : Token)
    (rest : List Token) : (parsing (token :: rest)).drop = parsing rest :=
  rfl

theorem takeNode_scalar
    (block bare plain : Bool)
    (fuel : Nat)
    (text : List Char)
    (rest : List Token) :
    takeNode block bare (fuel + 1) (parsing (.scalar plain text :: rest)) =
      .ok (.scalar (scalarTag none plain text) text, parsing rest) := by
  rw [takeNode]
  rfl

theorem takeBlockPart_scalar
    (plain : Bool)
    (fuel : Nat)
    (text : List Char)
    (rest : List Token) :
    takeBlockPart (fuel + 2) (parsing (.scalar plain text :: rest)) =
      .ok (.scalar (scalarTag none plain text) text, parsing rest) := by
  rw [takeBlockPart]
  exact takeNode_scalar true true plain fuel text rest

/-- A written text is a scalar that holds a text. -/
theorem exists_scalarToken (text : List Char) :
    ∃ plain, Scanner.scalarToken text = .scalar plain (reading text) ∧
      scalarTag none plain (reading text) = .text := by
  unfold Scanner.scalarToken reading styleOf
  cases plain : allowsPlain text with
  | true => exact ⟨true, rfl, (isPlain_of_allowsPlain plain).isText⟩
  | false =>
      cases allowsSingle text with
      | true => exact ⟨false, rfl, rfl⟩
      | false => exact ⟨false, rfl, rfl⟩

theorem takeBlockEntries_cons
    (plain : Bool)
    (fuel : Nat)
    (key content : List Char)
    (rest : List Token) :
    takeBlockEntries (fuel + 3)
        (parsing (.key :: .scalar true key :: .value :: .scalar plain content :: rest)) =
      (takeBlockEntries (fuel + 2) (parsing rest)).map fun found =>
        ((.scalar (scalarTag none true key) key,
          .scalar (scalarTag none plain content) content) :: found.1, found.2) := by
  rw [takeBlockEntries]
  simp only [peek_parsing, drop_parsing, takeBlockPart_scalar, bind, Except.bind, pure,
    Except.pure]
  cases takeBlockEntries (fuel + 2) (parsing rest) <;> rfl

theorem takeBlockEntries_entries
    {entries : List (String × String)}
    {fuel : Nat}
    (keys : ∀ entry ∈ entries, Scanner.IsKey entry.1.toList)
    (enough : entries.length + 2 < fuel)
    (rest : List Token) :
    takeBlockEntries fuel
        (parsing (entries.flatMap Scanner.entryTokens ++ .blockEnd :: rest)) =
      .ok (entries.map entryNode, parsing rest) := by
  induction entries generalizing fuel with
  | nil =>
      obtain ⟨fuel, rfl⟩ : ∃ less, fuel = less + 1 := ⟨fuel - 1, by omega⟩
      rw [takeBlockEntries]
      rfl
  | cons entry entries inductionHypothesis =>
      obtain ⟨isKey, keys⟩ := List.forall_mem_cons.mp keys
      rw [List.length_cons] at enough
      obtain ⟨fuel, rfl⟩ : ∃ less, fuel = less + 3 := ⟨fuel - 3, by omega⟩
      obtain ⟨plain, token, isText⟩ := exists_scalarToken entry.2.toList
      have keyIsText : scalarTag none true entry.1.toList = .text := isKey.isText
      rw [List.flatMap_cons, Scanner.entryTokens, token]
      simp only [List.cons_append, List.nil_append]
      rw [takeBlockEntries_cons, inductionHypothesis keys (by omega), keyIsText, isText]
      rfl

theorem takeNode_record
    {record : List (String × String)}
    {fuel : Nat}
    (keys : ∀ entry ∈ record, Scanner.IsKey entry.1.toList)
    (enough : record.length + 3 < fuel)
    (rest : List Token) :
    takeNode true false fuel (parsing (.blockMappingStart ::
        (record.flatMap Scanner.entryTokens ++ .blockEnd :: rest))) =
      .ok (recordNode record, parsing rest) := by
  obtain ⟨fuel, rfl⟩ : ∃ less, fuel = less + 1 := ⟨fuel - 1, by omega⟩
  have taken := takeBlockEntries_entries keys (show record.length + 2 < fuel by omega) rest
  rw [takeNode]
  change (takeBlockEntries fuel (parsing (record.flatMap Scanner.entryTokens ++
    .blockEnd :: rest))).bind _ = _
  rw [taken]
  rfl

theorem recordTokens_append
    (record : List (String × String))
    (rest : List Token) :
    Scanner.recordTokens record ++ rest = .blockEntry :: .blockMappingStart ::
      (record.flatMap Scanner.entryTokens ++ .blockEnd :: rest) := by
  simp [Scanner.recordTokens]

theorem length_le_entryTokens (record : List (String × String)) :
    record.length ≤ (record.flatMap Scanner.entryTokens).length := by
  induction record with
  | nil => exact Nat.zero_le _
  | cons entry record inductionHypothesis =>
      rw [List.flatMap_cons, List.length_append, List.length_cons]
      have four : (Scanner.entryTokens entry).length = 4 := rfl
      omega

theorem takeBlockItems_records
    {records : Records}
    {fuel : Nat}
    (readable : Scanner.AreReadable records)
    (enough : (records.flatMap Scanner.recordTokens).length + 4 ≤ fuel)
    (rest : List Token) :
    takeBlockItems fuel
        (parsing (records.flatMap Scanner.recordTokens ++ .blockEnd :: rest)) =
      .ok (records.map recordNode, parsing rest) := by
  obtain ⟨fuel, rfl⟩ : ∃ less, fuel = less + 1 := ⟨fuel - 1, by omega⟩
  induction records generalizing fuel with
  | nil =>
      rw [takeBlockItems]
      rfl
  | cons record records inductionHypothesis =>
      obtain ⟨⟨_, keys⟩, others⟩ := List.forall_mem_cons.mp readable
      have counted := length_le_entryTokens record
      have tokens := congrArg List.length
        (recordTokens_append record (records.flatMap Scanner.recordTokens))
      rw [List.flatMap_cons, tokens] at enough
      simp only [List.length_append, List.length_cons] at enough
      obtain ⟨fuel, rfl⟩ : ∃ less, fuel = less + 1 := ⟨fuel - 1, by omega⟩
      have item := takeNode_record keys (show record.length + 3 < fuel + 1 by omega)
        (records.flatMap Scanner.recordTokens ++ .blockEnd :: rest)
      have items := inductionHypothesis others fuel (by omega)
      rw [List.flatMap_cons, List.append_assoc, recordTokens_append, takeBlockItems]
      simp only [peek_parsing, drop_parsing, item, items, bind, Except.bind, pure,
        Except.pure]
      rfl

/-- The only document of a list of records. -/
theorem parseDocument_recordsTokens
    {records : Records}
    (readable : Scanner.AreReadable records) :
    parseDocument ⟨recordsTokens records, none⟩ =
      .ok (some (.sequence .list (records.map recordNode))) := by
  have items := takeBlockItems_records readable
    (show (records.flatMap Scanner.recordTokens).length + 4 ≤
      4 * (recordsTokens records).length + 3 by
      rw [recordsTokens, List.length_cons, List.length_append]
      omega) []
  have taken : takeNode true false (4 * (recordsTokens records).length + 4)
      (parsing (recordsTokens records)) =
      .ok (.sequence .list (records.map recordNode), parsing []) := by
    rw [takeNode]
    change (takeBlockItems (4 * (recordsTokens records).length + 3)
      (parsing (records.flatMap Scanner.recordTokens ++ [.blockEnd]))).bind _ = _
    rw [items]
    rfl
  change (takeNode true false (4 * (recordsTokens records).length + 4)
    (parsing (recordsTokens records))).bind _ = _
  rw [taken]
  rfl

/-! ## Values -/

theorem splitMerges_entries (entries : List (String × String)) :
    Node.splitMerges (entries.map entryNode) = .ok ([], entries.map entryNode) := by
  induction entries with
  | nil => rfl
  | cons entry entries inductionHypothesis =>
      rw [List.map_cons, Node.splitMerges, inductionHypothesis]
      rfl

theorem flatEntries_recordNode (record : List (String × String)) :
    Node.flatEntries (recordNode record) = .ok (record.map entryNode) := by
  rw [recordNode, Node.flatEntries, splitMerges_entries]
  rfl

theorem inspect_recordNode (record : List (String × String)) :
    Node.inspect (recordNode record) = (none, []) := by
  have flat := flatEntries_recordNode record
  rw [recordNode] at flat ⊢
  have noFault : (record.map entryNode).findSome? Node.entryFault? = none := by
    rw [List.findSome?_eq_none_iff, List.forall_mem_map]
    exact fun entry _ => rfl
  have noCollection : ((record.map entryNode).map Prod.snd).filter Node.isCollection =
      [] := by
    rw [List.map_map, List.filter_eq_nil_iff, List.forall_mem_map]
    exact fun entry _ => Bool.false_ne_true
  rw [Node.inspect, if_pos (.inl rfl)]
  simp only [flat, noFault, noCollection]

theorem faultAt_recordNode
    (depth : Nat)
    (record : List (String × String)) :
    Node.faultAt depth (recordNode record) = none := by
  cases depth with
  | zero => rw [Node.faultAt, inspect_recordNode]
  | succ depth =>
      rw [Node.faultAt, inspect_recordNode]
      rfl

/-- A list of records has no fault. -/
theorem fault?_records (records : Records) :
    (Node.sequence .list (records.map recordNode)).fault? = none := by
  have collections : (records.map recordNode).filter Node.isCollection =
      records.map recordNode := by
    simp [List.filter_eq_self, recordNode, Node.isCollection]
  have inspected : Node.inspect (.sequence .list (records.map recordNode)) =
      (none, records.map recordNode) := by
    have noFault : (records.map recordNode).findSome? Node.scalarFault? = none := by
      simp [List.findSome?_eq_none_iff, recordNode, Node.scalarFault?]
    rw [Node.inspect, if_pos rfl, noFault, collections]
  have sound : ∀ depth, Node.faultAt depth (.sequence .list (records.map recordNode)) =
      none := by
    intro depth
    cases depth with
    | zero => rw [Node.faultAt, inspected]
    | succ depth =>
        rw [Node.faultAt, inspected]
        simp [List.findSome?_eq_none_iff, faultAt_recordNode]
  simp [Node.fault?, Node.scalarFault?, List.findSome?_eq_none_iff, sound]

/-- The value of a record. -/
def recordValue (record : List (String × String)) : Value :=
  .mapping (Entries.ofPairs (record.map fun entry =>
    (.text entry.1, .text (String.ofList (reading entry.2.toList)))))

theorem value_text
    (fuel : Nat)
    (text : List Char) :
    (Node.scalar .text text).value fuel = .text (String.ofList text) := by
  cases fuel <;> rfl

theorem value_recordNode
    (fuel : Nat)
    (record : List (String × String)) :
    (recordNode record).value (fuel + 1) = recordValue record := by
  have flat := flatEntries_recordNode record
  rw [recordNode] at flat ⊢
  rw [Node.value]
  simp only [flat, recordValue, List.map_map]
  rw [if_neg (by decide)]
  congr 2
  apply List.map_congr_left
  intro entry _
  simp only [Function.comp_apply, entryNode, value_text, String.ofList_toList]

theorem value_records (records : Records) :
    (Node.sequence .list (records.map recordNode)).value
        ((Node.sequence .list (records.map recordNode)).depth + 1) =
      .list (records.map recordValue) := by
  rw [Node.depth, Node.value, if_neg (by decide), List.map_map]
  congr 1
  apply List.map_congr_left
  intro record _
  exact value_recordNode _ record

/-- Written records are read again, each text as its style reads it. -/
theorem read_writeRecords
    {records : Records}
    (readable : Scanner.AreReadable records) :
    read (writeRecords records) = .ok (.list (records.map recordValue)) := by
  cases records with
  | nil => rfl
  | cons record records =>
      rw [read, tokens_writeRecords (by simp) readable,
        parseDocument_recordsTokens readable]
      simp only [bind, Except.bind, fault?_records, value_records]
      rfl

end Yaml
end ShaderLift
