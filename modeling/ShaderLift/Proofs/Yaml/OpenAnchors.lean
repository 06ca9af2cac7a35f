import ShaderLift.Proofs.Attempt
import ShaderLift.Yaml.Read

/-!
# Anchors of open collections

Inside a collection its anchor stands for the collection that is still open, and
behind it for the finished node.  So an alias marks an enclosing collection only
where that collection is open around it: the items of the outermost list are
never mappings around themselves.
-/

namespace ShaderLift
namespace Yaml

open Document

/-! ## What readers yield -/

/-- Whatever a reader yields satisfies a predicate. -/
def Yields (result : Except Fault α) (good : α → Prop) : Prop :=
  ∀ value, result = .ok value → good value

namespace Yields

variable {good : α → Prop}

theorem pure
    {value : α}
    (holds : good value) : Yields (Pure.pure value) good := by
  rintro _ ⟨⟩
  exact holds

theorem error (fault : Fault) : Yields (.error fault) good := by
  rintro _ ⟨⟩

theorem throw (fault : Fault) :
    Yields (MonadExcept.throw fault : Except Fault α) good :=
  error fault

theorem bind
    {first : Except Fault β}
    {next : β → Except Fault α}
    {middle : β → Prop}
    (yields : Yields first middle)
    (continues : ∀ value, middle value → Yields (next value) good) :
    Yields (first >>= next) good := by
  intro value ended
  obtain ⟨reached, started, goesOn⟩ := bind_eq_ok_iff.mp ended
  exact continues reached (yields reached started) value goesOn

/-- Nothing needs to be known of a look ahead. -/
theorem bind_any
    {first : Except Fault β}
    {next : β → Except Fault α}
    (continues : ∀ value, Yields (next value) good) :
    Yields (first >>= next) good :=
  bind (fun _ _ => trivial) fun value (_ : True) => continues value

theorem mono
    {result : Except Fault α}
    {better : α → Prop}
    (yields : Yields result better)
    (implies : ∀ value, better value → good value) : Yields result good :=
  fun value ended => implies value (yields value ended)

end Yields

/-! ## Open anchors -/

/-- An anchor stands for a collection that is still open. -/
def IsOpen (anchors : Anchors) (name : List Char) (isMapping : Bool) : Prop :=
  ∃ anchor, anchors.find? (fun anchor => anchor.1 == name) = some anchor ∧
    anchor.2 = .enclosing isMapping

/-- Nodes are read between two states of the anchors: every anchor that is open
behind them was open before them, and so were those that the nodes stand for. -/
structure Tracks
    (before : Anchors)
    (nodes : List Node)
    (behind : Anchors) : Prop where
  keeps : ∀ name isMapping, IsOpen behind name isMapping →
    IsOpen before name isMapping
  named : ∀ isMapping, .enclosing isMapping ∈ nodes →
    ∃ name, IsOpen before name isMapping

theorem isOpen_cons
    (given : List Char)
    (node : Node)
    (anchors : Anchors)
    (name : List Char)
    (isMapping : Bool) :
    IsOpen ((given, node) :: anchors) name isMapping ↔
      given = name ∧ node = .enclosing isMapping ∨
        given ≠ name ∧ IsOpen anchors name isMapping := by
  rw [IsOpen, IsOpen]
  by_cases same : given = name
  · rw [List.find?_cons_of_pos (by simpa using same)]
    simp [same]
  · rw [List.find?_cons_of_neg (by simpa using same)]
    simp [same]

namespace Tracks

variable {before middle behind : Anchors} {nodes more : List Node}

theorem refl (anchors : Anchors) : Tracks anchors [] anchors :=
  ⟨fun _ _ isOpen => isOpen, by simp⟩

theorem append
    (first : Tracks before nodes middle)
    (second : Tracks middle more behind) :
    Tracks before (nodes ++ more) behind := by
  refine ⟨fun name isMapping isOpen =>
    first.keeps name isMapping (second.keeps name isMapping isOpen), ?_⟩
  intro isMapping member
  rcases List.mem_append.mp member with early | late
  · exact first.named isMapping early
  · obtain ⟨name, isOpen⟩ := second.named isMapping late
    exact ⟨name, first.keeps name isMapping isOpen⟩

theorem of_subset
    (tracks : Tracks before nodes behind)
    (subset : more ⊆ nodes) : Tracks before more behind :=
  ⟨tracks.keeps, fun isMapping member => tracks.named isMapping (subset member)⟩

/-- A node that is read whole stands for nothing that is open. -/
theorem whole
    (tracks : Tracks before nodes behind)
    {node : Node}
    (whole : ∀ isMapping, node ≠ .enclosing isMapping) :
    Tracks before [node] behind := by
  refine ⟨tracks.keeps, fun isMapping member => ?_⟩
  exact absurd (List.mem_singleton.mp member).symm (whole isMapping)

end Tracks

/-! ## Names for nodes -/

section Names

variable {parser left : Parser} {anchor : Option (List Char)} {node : Node}
  {nodes : List Node}

/-- A name for a whole node is not open. -/
theorem isOpen_of_name
    (whole : ∀ isMapping, node ≠ .enclosing isMapping)
    {name : List Char}
    {isMapping : Bool}
    (isOpen : IsOpen (parser.name anchor node).anchors name isMapping) :
    anchor ≠ some name ∧ IsOpen parser.anchors name isMapping := by
  cases anchor with
  | none => exact ⟨by simp, isOpen⟩
  | some given =>
      rcases (isOpen_cons ..).mp isOpen with ⟨-, same⟩ | ⟨other, isOpen⟩
      · exact absurd same (whole isMapping)
      · exact ⟨by simpa using other, isOpen⟩

theorem tracks_name (whole : ∀ isMapping, node ≠ .enclosing isMapping) :
    Tracks parser.anchors [node] (parser.name anchor node).anchors :=
  Tracks.whole ⟨fun _ _ isOpen => (isOpen_of_name whole isOpen).2,
    fun _ (member : _ ∈ []) => absurd member List.not_mem_nil⟩ whole

/-- Behind a collection its name is not open any more. -/
theorem Tracks.close
    {isMapping : Bool}
    (tracks : Tracks (parser.name anchor (.enclosing isMapping)).anchors nodes
      left.anchors)
    (whole : ∀ isMapping, node ≠ .enclosing isMapping) :
    Tracks parser.anchors [node] (left.name anchor node).anchors := by
  refine ⟨fun name isMapping' isOpen => ?_, fun isMapping' member =>
    absurd (List.mem_singleton.mp member).symm (whole isMapping')⟩
  obtain ⟨other, isOpen⟩ := isOpen_of_name whole isOpen
  have before := tracks.keeps name isMapping' isOpen
  cases anchor with
  | none => exact before
  | some given =>
      rcases (isOpen_cons ..).mp before with ⟨same, -⟩ | ⟨-, isOpen⟩
      · exact absurd (congrArg some same) other
      · exact isOpen

/-- In an outermost list only the list itself is open. -/
theorem Tracks.not_mem
    (tracks : Tracks (parser.name anchor (.enclosing false)).anchors nodes
      left.anchors)
    (outermost : parser.anchors = []) : .enclosing true ∉ nodes := by
  intro member
  obtain ⟨name, isOpen⟩ := tracks.named true member
  have none : ¬ IsOpen [] name true := by simp [IsOpen]
  cases anchor with
  | none => exact none (outermost ▸ isOpen)
  | some given =>
      rcases (isOpen_cons ..).mp isOpen with ⟨-, same⟩ | ⟨-, isOpen⟩
      · cases same
      · exact none (outermost ▸ isOpen)

end Names

/-! ## Readers -/

/-- A node is read with the anchors tracked, and an outermost list has no item
that stands for a mapping around it. -/
structure ReadsNode (before : Anchors) (result : Node × Parser) : Prop where
  tracks : Tracks before [result.1] result.2.anchors
  outermost : before = [] → ∀ tag items, result.1 = .sequence tag items →
    .enclosing true ∉ items

/-- All readers track the anchors. -/
structure ReadersTrack (fuel : Nat) : Prop where
  node : ∀ block bare parser,
    Yields (takeNode block bare fuel parser) (ReadsNode parser.anchors)
  blockItems : ∀ parser, Yields (takeBlockItems fuel parser) fun result =>
    Tracks parser.anchors result.1 result.2.anchors
  bareItems : ∀ parser, Yields (takeBareItems fuel parser) fun result =>
    Tracks parser.anchors result.1 result.2.anchors
  blockEntries : ∀ parser, Yields (takeBlockEntries fuel parser) fun result =>
    Tracks parser.anchors [] result.2.anchors
  blockPart : ∀ parser, Yields (takeBlockPart fuel parser) fun result =>
    Tracks parser.anchors [result.1] result.2.anchors
  flowItems : ∀ first parser,
    Yields (takeFlowItems first fuel parser) fun result =>
      Tracks parser.anchors result.1 result.2.anchors
  flowEntries : ∀ first parser,
    Yields (takeFlowEntries first fuel parser) fun result =>
      Tracks parser.anchors [] result.2.anchors
  flowPart : ∀ close isKey parser,
    Yields (takeFlowPart close isKey fuel parser) fun result =>
      Tracks parser.anchors [result.1] result.2.anchors

theorem anchors_of_takeProperties (parser : Parser) :
    Yields (takeProperties parser) fun result =>
      result.2.anchors = parser.anchors := by
  unfold takeProperties
  split
  all_goals
    first
      | refine .bind_any fun _ => .bind_any fun _ => ?_
      | refine .bind_any fun _ => ?_
    dsimp only
    split
    · exact .bind_any fun _ => .pure rfl
    · exact .pure rfl

/-- An alias stands for a node that an anchor names. -/
theorem tracks_of_resolveAlias
    (parser : Parser)
    (name : List Char) :
    Yields (parser.resolveAlias name) fun node =>
      ReadsNode parser.anchors (node, parser.drop) := by
  intro node resolved
  rw [Parser.resolveAlias] at resolved
  cases found : parser.anchors.find? (fun anchor => anchor.1 == name) with
  | none => simp [found] at resolved
  | some anchor =>
      rw [found] at resolved
      obtain rfl := Except.ok.inj resolved
      refine ⟨⟨fun _ _ isOpen => isOpen, fun isMapping member => ?_⟩,
        fun outermost => ?_⟩
      · exact ⟨name, anchor, found, (List.mem_singleton.mp member).symm⟩
      · simp [outermost] at found

/-- A list is read with its own anchor open. -/
theorem readsNode_sequence
    {parser left : Parser}
    {anchor : Option (List Char)}
    {items : List Node}
    (tracks : Tracks (parser.name anchor (.enclosing false)).anchors items
      left.anchors)
    (tag : Tag) :
    ReadsNode parser.anchors
      (.sequence tag items, left.name anchor (.sequence tag items)) := by
  refine ⟨tracks.close (by simp), fun outermost tag' items' same => ?_⟩
  obtain ⟨-, rfl⟩ := Node.sequence.inj same
  exact tracks.not_mem outermost

theorem readsNode_mapping
    {parser left : Parser}
    {anchor : Option (List Char)}
    {nodes : List Node}
    (tracks : Tracks (parser.name anchor (.enclosing true)).anchors nodes
      left.anchors)
    (tag : Tag)
    (entries : List (Node × Node)) :
    ReadsNode parser.anchors
      (.mapping tag entries, left.name anchor (.mapping tag entries)) :=
  ⟨tracks.close (by simp), by simp⟩

theorem readsNode_scalar
    (parser : Parser)
    (anchor : Option (List Char))
    (tag : Tag)
    (text : List Char) :
    ReadsNode parser.anchors
      (.scalar tag text, parser.name anchor (.scalar tag text)) :=
  ⟨tracks_name (by simp), by simp⟩

theorem yields_takeNode
    {fuel : Nat}
    (readers : ReadersTrack fuel)
    (block bare : Bool)
    (parser : Parser) :
    Yields (takeNode block bare (fuel + 1) parser)
      (ReadsNode parser.anchors) := by
  rw [takeNode]
  refine .bind_any fun token => ?_
  split
  next name =>
    exact .bind (tracks_of_resolveAlias parser name) fun node reads => .pure reads
  next =>
    refine .bind (anchors_of_takeProperties parser) fun result same => ?_
    obtain ⟨properties, behind⟩ := result
    obtain same : behind.anchors = parser.anchors := same
    rw [← same]
    refine .bind_any fun token => ?_
    dsimp only
    split
    next plain text => exact .pure (readsNode_scalar behind.drop _ _ _)
    next =>
      exact .bind (readers.flowItems true _) fun result tracks =>
        .pure (readsNode_sequence tracks _)
    next =>
      exact .bind (readers.flowEntries true _) fun result tracks =>
        .pure (readsNode_mapping tracks _ _)
    next =>
      split
      · exact .bind (readers.bareItems _) fun result tracks =>
          .pure (readsNode_sequence tracks _)
      · split
        · exact .bind (readers.blockItems _) fun result tracks =>
            .pure (readsNode_sequence tracks _)
        · split
          · exact .bind (readers.blockEntries _) fun result tracks =>
              .pure (readsNode_mapping tracks _ _)
          · split
            · exact .pure (readsNode_scalar behind _ _ _)
            · exact .throw _

theorem tracks_nothing (parser : Parser) :
    Tracks parser.anchors [.nothing] parser.anchors :=
  (Tracks.refl _).whole (by simp [Node.nothing])

/-- Behind an item more items are read. -/
theorem Tracks.yields_items
    {before : Anchors}
    {item : Node}
    {left : Parser}
    {reader : Except Fault (List Node × Parser)}
    (tracks : Tracks before [item] left.anchors)
    (more : Yields reader fun result =>
      Tracks left.anchors result.1 result.2.anchors) :
    Yields (reader >>= fun result => Pure.pure (item :: result.1, result.2))
      fun result => Tracks before result.1 result.2.anchors :=
  .bind more fun _ later => .pure (tracks.append later)

/-- Behind an entry more entries are read. -/
theorem Tracks.yields_entries
    {before : Anchors}
    {nodes : List Node}
    {left : Parser}
    {reader : Except Fault (List (Node × Node) × Parser)}
    (tracks : Tracks before nodes left.anchors)
    (entry : Node × Node)
    (more : Yields reader fun result =>
      Tracks left.anchors [] result.2.anchors) :
    Yields (reader >>= fun result => Pure.pure (entry :: result.1, result.2))
      fun result => Tracks before [] result.2.anchors :=
  .bind more fun _ later => .pure ((tracks.append later).of_subset (by simp))

theorem anchors_behind_comma
    (first : Bool)
    (parser : Parser) :
    (if first = true then parser else parser.drop).anchors =
      parser.anchors := by
  split <;> rfl

section Steps

variable {fuel : Nat} (readers : ReadersTrack fuel) (parser : Parser)
include readers

theorem yields_takeBlockItems :
    Yields (takeBlockItems (fuel + 1) parser) fun result =>
      Tracks parser.anchors result.1 result.2.anchors := by
  rw [takeBlockItems]
  refine .bind_any fun token => ?_
  split
  next =>
    refine .bind_any fun token => ?_
    dsimp only
    split
    · exact (tracks_nothing parser).yields_items (readers.blockItems _)
    · exact (tracks_nothing parser).yields_items (readers.blockItems _)
    · exact .bind (readers.node true false parser.drop) fun result reads =>
        reads.tracks.yields_items (readers.blockItems _)
  next => exact .pure (Tracks.refl _)
  next => exact .throw _

theorem yields_takeBareItems :
    Yields (takeBareItems (fuel + 1) parser) fun result =>
      Tracks parser.anchors result.1 result.2.anchors := by
  rw [takeBareItems]
  refine .bind_any fun token => ?_
  split
  next =>
    refine .bind_any fun token => ?_
    dsimp only
    split
    case h_5 =>
      exact .bind (readers.node true false parser.drop) fun result reads =>
        reads.tracks.yields_items (readers.bareItems _)
    all_goals
      exact (tracks_nothing parser).yields_items (readers.bareItems _)
  next => exact .pure (Tracks.refl _)

theorem yields_takeBlockEntries :
    Yields (takeBlockEntries (fuel + 1) parser) fun result =>
      Tracks parser.anchors [] result.2.anchors := by
  rw [takeBlockEntries]
  refine .bind_any fun token => ?_
  split
  next =>
    refine .bind (readers.blockPart parser.drop) fun key tracks => ?_
    refine .bind_any fun token => ?_
    dsimp only
    split
    · refine .bind (readers.blockPart _) fun value more => ?_
      exact (tracks.append more).yields_entries _ (readers.blockEntries _)
    · exact tracks.yields_entries _ (readers.blockEntries _)
  next => exact .pure (Tracks.refl _)
  next => exact .throw _

theorem yields_takeBlockPart :
    Yields (takeBlockPart (fuel + 1) parser) fun result =>
      Tracks parser.anchors [result.1] result.2.anchors := by
  rw [takeBlockPart]
  refine .bind_any fun token => ?_
  split
  case h_4 =>
    exact (readers.node true true parser).mono fun result reads => reads.tracks
  all_goals exact .pure (tracks_nothing parser)

theorem yields_takeFlowPart
    (close : Token)
    (isKey : Bool) :
    Yields (takeFlowPart close isKey (fuel + 1) parser) fun result =>
      Tracks parser.anchors [result.1] result.2.anchors := by
  rw [takeFlowPart]
  refine .bind_any fun token => ?_
  split
  · exact .pure (tracks_nothing parser)
  · exact (readers.node false false parser).mono fun result reads => reads.tracks

theorem yields_takeFlowItems (first : Bool) :
    Yields (takeFlowItems first (fuel + 1) parser) fun result =>
      Tracks parser.anchors result.1 result.2.anchors := by
  rw [takeFlowItems]
  refine .bind_any fun token => ?_
  split
  next => exact .pure (Tracks.refl _)
  next =>
    dsimp only
    rw [← anchors_behind_comma first parser]
    generalize (if first = true then parser else parser.drop) = behind
    split
    · exact .bind (.throw _) fun _ (impossible : False) => impossible.elim
    · refine .bind_any fun token => ?_
      split
      next => exact .pure (Tracks.refl _)
      next =>
        refine .bind (readers.flowPart _ true behind.drop) fun key tracks => ?_
        refine .bind_any fun token => ?_
        split
        · refine .bind (readers.flowPart _ false _) fun value more => ?_
          exact ((tracks.append more).whole (by simp)).yields_items
            (readers.flowItems false _)
        · exact (tracks.whole (by simp)).yields_items (readers.flowItems false _)
      next =>
        exact .bind (readers.node false false behind) fun result reads =>
          reads.tracks.yields_items (readers.flowItems false _)

theorem yields_takeFlowEntries (first : Bool) :
    Yields (takeFlowEntries first (fuel + 1) parser) fun result =>
      Tracks parser.anchors [] result.2.anchors := by
  rw [takeFlowEntries]
  refine .bind_any fun token => ?_
  split
  next => exact .pure (Tracks.refl _)
  next =>
    dsimp only
    rw [← anchors_behind_comma first parser]
    generalize (if first = true then parser else parser.drop) = behind
    split
    · exact .bind (.throw _) fun _ (impossible : False) => impossible.elim
    · refine .bind_any fun token => ?_
      split
      next => exact .pure (Tracks.refl _)
      next =>
        refine .bind (readers.flowPart _ true behind.drop) fun key tracks => ?_
        refine .bind_any fun token => ?_
        split
        · refine .bind (readers.flowPart _ false _) fun value more => ?_
          exact (tracks.append more).yields_entries _
            (readers.flowEntries false _)
        · exact tracks.yields_entries _ (readers.flowEntries false _)
      next =>
        exact .bind (readers.node false false behind) fun result reads =>
          reads.tracks.yields_entries _ (readers.flowEntries false _)

end Steps

/-- All readers track the anchors, whatever fuel they have. -/
theorem readersTrack (fuel : Nat) : ReadersTrack fuel := by
  induction fuel with
  | zero =>
      constructor
      all_goals
        intros
        exact .error _
  | succ fuel inductionHypothesis =>
      exact {
        node := yields_takeNode inductionHypothesis
        blockItems := yields_takeBlockItems inductionHypothesis
        bareItems := yields_takeBareItems inductionHypothesis
        blockEntries := yields_takeBlockEntries inductionHypothesis
        blockPart := yields_takeBlockPart inductionHypothesis
        flowItems := fun first parser =>
          yields_takeFlowItems inductionHypothesis parser first
        flowEntries := fun first parser =>
          yields_takeFlowEntries inductionHypothesis parser first
        flowPart := fun close isKey parser =>
          yields_takeFlowPart inductionHypothesis parser close isKey }

/-! ## Documents -/

/-- A node of a whole document: it stands for no enclosing collection, and as a
list it has no item that stands for a mapping around it. -/
structure IsOutermost (node : Node) : Prop where
  whole : ∀ isMapping, node ≠ .enclosing isMapping
  items : ∀ tag items, node = .sequence tag items → .enclosing true ∉ items

theorem ReadsNode.isOutermost
    {result : Node × Parser}
    (reads : ReadsNode [] result) : IsOutermost result.1 := by
  refine ⟨fun isMapping same => ?_, reads.outermost rfl⟩
  obtain ⟨name, isOpen⟩ := reads.tracks.named isMapping (by simp [same])
  simp [IsOpen] at isOpen

theorem isOutermost_nothing : IsOutermost .nothing :=
  ⟨by simp [Node.nothing], by simp [Node.nothing]⟩

theorem isOutermost_of_takeContent
    (fuel : Nat)
    {parser : Parser}
    (unnamed : parser.anchors = []) :
    Yields (takeContent fuel parser) fun result => IsOutermost result.1 := by
  rw [takeContent]
  refine .bind_any fun token => ?_
  split
  · exact .pure isOutermost_nothing
  · exact .pure isOutermost_nothing
  · split
    · exact .pure isOutermost_nothing
    · refine ((readersTrack fuel).node true false parser).mono fun result reads => ?_
      rw [unnamed] at reads
      exact reads.isOutermost

theorem isOutermost_of_parseDocument (stream : TokenStream) :
    Yields (parseDocument stream) fun result =>
      ∀ node ∈ result, IsOutermost node := by
  rw [parseDocument]
  refine .bind_any fun token => ?_
  split
  · exact .pure (by simp)
  · split
    · refine .bind_any fun given => .bind_any fun token => ?_
      split
      · refine .bind (isOutermost_of_takeContent _ rfl) fun result outermost => ?_
        exact .bind_any fun _ => .pure (by simpa using outermost)
      · exact .throw _
    · refine .bind ((readersTrack _).node true false _) fun result reads => ?_
      exact .bind_any fun _ => .pure (by simpa using reads.isOutermost)

theorem isCollection_of_readScalar
    (tag : Tag)
    (text : List Char) :
    Yields (readScalar tag text) fun value => value.isCollection = false := by
  have ofMoment : Yields (readMoment text) fun value =>
      value.isCollection = false := by
    rw [readMoment]
    repeat' split
    all_goals first | exact .error _ | exact .pure rfl
  cases tag with
  | text => exact .pure rfl
  | null => exact .pure rfl
  | bool => exact .bind_any fun _ => .pure rfl
  | integer => exact .bind_any fun _ => .pure rfl
  | double => exact .bind_any fun _ => .pure rfl
  | moment => exact ofMoment
  | binary => exact .bind_any fun _ => .pure rfl
  | _ => exact .throw _

theorem isCollection_value_scalar
    (fuel : Nat)
    (tag : Tag)
    (text : List Char) :
    ((Node.scalar tag text).value fuel).isCollection = false := by
  rw [Node.value]
  split
  next value read => exact isCollection_of_readScalar tag text value read
  next => rfl

/-- A mapping has nothing, a set or a mapping as its value. -/
theorem value_mapping_cases
    (fuel : Nat)
    (tag : Tag)
    (entries : List (Node × Node)) :
    (Node.mapping tag entries).value (fuel + 1) = .null ∨
      ∃ read : Entries,
        (Node.mapping tag entries).value (fuel + 1) = .set (read.map Prod.fst) ∨
        (Node.mapping tag entries).value (fuel + 1) = .mapping read := by
  rw [Node.value]
  split
  · exact .inl rfl
  · right
    dsimp only
    split
    · exact ⟨_, .inl rfl⟩
    · exact ⟨_, .inr rfl⟩

/-- Only an alias has the value of an enclosing collection. -/
theorem eq_enclosing_of_value
    {fuel : Nat}
    {node : Node}
    {isMapping : Bool}
    (same : node.value fuel = .enclosing isMapping) :
    node = .enclosing isMapping := by
  cases node with
  | scalar tag text =>
      have noCollection := isCollection_value_scalar fuel tag text
      rw [same] at noCollection
      contradiction
  | enclosing inside =>
      rw [Node.value] at same
      exact congrArg Node.enclosing (Value.enclosing.inj same)
  | sequence tag items =>
      cases fuel with
      | zero => simp [Node.value] at same
      | succ fuel =>
          rw [Node.value] at same
          split at same <;> simp at same
  | mapping tag entries =>
      cases fuel with
      | zero => simp [Node.value] at same
      | succ fuel =>
          obtain isNull | ⟨entries, isSet | isMapping⟩ :=
            value_mapping_cases fuel tag entries <;> simp_all

/-- Only a sequence has a list as its value, of pairs or of the values of its
items. -/
theorem exists_sequence_of_value
    {fuel : Nat}
    {node : Node}
    {items : List Value}
    (same : node.value fuel = .list items) :
    ∃ tag nodes depth, node = .sequence tag nodes ∧
      (items = nodes.map (Node.value depth) ∨
        ∀ item ∈ items, ∃ key value, item = .pair key value) := by
  cases node with
  | scalar tag text =>
      have noCollection := isCollection_value_scalar fuel tag text
      rw [same] at noCollection
      contradiction
  | enclosing inside => simp [Node.value] at same
  | sequence tag nodes =>
      cases fuel with
      | zero => simp [Node.value] at same
      | succ fuel =>
          refine ⟨tag, nodes, fuel, rfl, ?_⟩
          rw [Node.value] at same
          split at same
          · obtain rfl := Value.list.inj same
            right
            intro item member
            obtain ⟨node, -, paired⟩ := List.mem_filterMap.mp member
            obtain ⟨entry, -, rfl⟩ := Option.map_eq_some_iff.mp paired
            exact ⟨_, _, rfl⟩
          · exact .inl (Value.list.inj same).symm
  | mapping tag entries =>
      cases fuel with
      | zero => simp [Node.value] at same
      | succ fuel =>
          obtain isNull | ⟨entries, isSet | isMapping⟩ :=
            value_mapping_cases fuel tag entries <;> simp_all

/-- The value of a text is no enclosing collection, and as a list it has no item
that is a mapping around itself. -/
theorem outermost_of_read
    {text : List Char}
    {value : Value}
    (reads : read text = .ok value) :
    (∀ isMapping, value ≠ .enclosing isMapping) ∧
      ∀ items, value = .list items → .enclosing true ∉ items := by
  revert value
  change Yields (read text) _
  rw [read]
  refine .bind (isOutermost_of_parseDocument _) fun result outermost => ?_
  split
  · exact .pure (by simp)
  next node =>
    split
    · exact .throw _
    · refine .pure ⟨fun isMapping same => ?_, fun items same member => ?_⟩
      · exact (outermost node rfl).whole isMapping (eq_enclosing_of_value same)
      · obtain ⟨tag, nodes, depth, rfl, rfl | paired⟩ :=
          exists_sequence_of_value same
        · obtain ⟨item, inside, isEnclosing⟩ := List.mem_map.mp member
          rw [eq_enclosing_of_value isEnclosing] at inside
          exact (outermost _ rfl).items tag nodes rfl inside
        · obtain ⟨key, value, isPair⟩ := paired _ member
          contradiction

/-- The same holds of the value of a file. -/
theorem outermost_of_parse
    {bytes : List UInt8}
    {value : Value}
    {surrogates : Text.Surrogates}
    (parsed : parse bytes = .ok ⟨value, surrogates⟩) :
    (∀ isMapping, value ≠ .enclosing isMapping) ∧
      ∀ items, value = .list items → .enclosing true ∉ items := by
  unfold parse at parsed
  split at parsed
  · contradiction
  next text decoded =>
    split at parsed
    · contradiction
    next read reads =>
      obtain rfl : read = value :=
        congrArg Reading.value (Except.ok.inj parsed)
      exact outermost_of_read reads

end Yaml
end ShaderLift
