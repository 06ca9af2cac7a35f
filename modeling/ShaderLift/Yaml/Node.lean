import ShaderLift.Yaml.Resolve
import ShaderLift.Yaml.Token

/-!
# Nodes of a document

Tokens are read as a tree of nodes.  An anchor names a node from its start on,
and an alias stands for the node that its anchor names; inside that node itself
an alias marks the collection that encloses it.
-/

namespace ShaderLift
namespace Yaml

/-- A node of a document. -/
inductive Node
  | scalar (tag : Tag) (text : List Char)
  | sequence (tag : Tag) (items : List Node)
  | mapping (tag : Tag) (entries : List (Node × Node))
  /-- The collection around this place that an alias names. -/
  | enclosing (isMapping : Bool)
deriving Repr, Inhabited

/-- The scalar that stands where nothing is written. -/
def Node.nothing : Node :=
  .scalar .null []

/-- The anchors seen so far with their nodes. -/
abbrev Anchors :=
  List (List Char × Node)

/-- Beginnings of tags by their handles. -/
abbrev Handles :=
  List (List Char × List Char)

/-- The handles that every document has. -/
def standardHandles : Handles :=
  [(['!'], ['!']), (['!', '!'], "tag:yaml.org,2002:".toList)]

/-- What a parser carries along: the tokens ahead, what ended them, and the
anchors seen so far. -/
structure Parser where
  ahead : List Token
  fault : Option Fault
  handles : Handles
  anchors : Anchors := []
deriving Repr

namespace Parser

/-- The tokens ahead do not fit.  If the text ended in a fault and no token is
ahead, that fault is the reason. -/
def fail (parser : Parser) : Fault :=
  if parser.ahead.isEmpty then parser.fault.getD .malformed else .malformed

/-- Pass over one token. -/
def drop (parser : Parser) : Parser :=
  { parser with ahead := parser.ahead.drop 1 }

/-- The next token, or the fault that ended the text. -/
def peek (parser : Parser) : Except Fault (Option Token) :=
  match parser.ahead, parser.fault with
  | [], some fault => .error fault
  | [], none => .ok none
  | token :: _, _ => .ok (some token)

/-- Name a node that has been read. -/
def name (parser : Parser) (anchor : Option (List Char)) (node : Node) : Parser :=
  match anchor with
  | none => parser
  | some name => { parser with anchors := (name, node) :: parser.anchors }

/-- The node that an alias stands for. -/
def resolveAlias (parser : Parser) (name : List Char) : Except Fault Node :=
  match parser.anchors.find? (fun anchor => anchor.1 == name) with
  | none => .error .malformed
  | some (_, node) => .ok node

/-- The full text of a tag. -/
def tagText
    (parser : Parser)
    (handle : Option (List Char))
    (suffix : List Char) : Except Fault (List Char) :=
  match handle with
  | none => .ok suffix
  | some handle =>
      match parser.handles.find? (fun known => known.1 == handle) with
      | none => .error .malformed
      | some (_, beginning) => .ok (beginning ++ suffix)

end Parser

/-- The anchor and the tag before a node. -/
structure Properties where
  anchor : Option (List Char) := none
  tag : Option (List Char) := none
deriving Repr, DecidableEq

/-- Read an anchor and a tag in either order.  An anchor may be used once. -/
def takeProperties (parser : Parser) : Except Fault (Properties × Parser) := do
  let (properties, rest) ←
    match parser.ahead with
    | .anchor name :: .tag handle suffix :: rest => do
        let tag ← parser.tagText handle suffix
        pure (({ anchor := some name, tag := some tag } : Properties), rest)
    | .tag handle suffix :: .anchor name :: rest => do
        let tag ← parser.tagText handle suffix
        pure (({ anchor := some name, tag := some tag } : Properties), rest)
    | .anchor name :: rest => pure ({ anchor := some name }, rest)
    | .tag handle suffix :: rest => do
        let tag ← parser.tagText handle suffix
        pure ({ tag := some tag }, rest)
    | rest => pure ({}, rest)
  let isReused := properties.anchor.any fun name =>
    parser.anchors.any fun anchor => anchor.1 == name
  if isReused then throw .malformed
  pure (properties, { parser with ahead := rest })

/-- The tag of a scalar: its own, or what its text looks like if it is plain. -/
def scalarTag (tag : Option (List Char)) (plain : Bool) (text : List Char) : Tag :=
  match tag with
  | none => if plain then resolvePlain text else .text
  | some ['!'] => resolvePlain text
  | some name => Tag.ofName name

/-- The tag of a collection: its own, or the usual one. -/
def collectionTag (tag : Option (List Char)) (usual : Tag) : Tag :=
  match tag with
  | none => usual
  | some ['!'] => usual
  | some name => Tag.ofName name

mutual

/-- Read a node.  `block` allows block collections, `bare` a list whose dashes
are not indented. -/
def takeNode (block bare : Bool) : Nat → Parser → Except Fault (Node × Parser)
  | 0, _ => .error .malformed
  | fuel + 1, parser => do
      match ← parser.peek with
      | some (.reference name) =>
          let node ← parser.resolveAlias name
          pure (node, parser.drop)
      | _ =>
          let (properties, behind) ← takeProperties parser
          let opened (isMapping : Bool) : Parser :=
            behind.name properties.anchor (.enclosing isMapping)
          match ← behind.peek with
          | some (.scalar plain text) =>
              let node := Node.scalar (scalarTag properties.tag plain text) text
              pure (node, behind.drop.name properties.anchor node)
          | some .flowSequenceStart =>
              let (items, left) ← takeFlowItems true fuel (opened false).drop
              let node := Node.sequence (collectionTag properties.tag .list) items
              pure (node, left.name properties.anchor node)
          | some .flowMappingStart =>
              let (entries, left) ← takeFlowEntries true fuel (opened true).drop
              let node :=
                Node.mapping (collectionTag properties.tag .mapping) entries
              pure (node, left.name properties.anchor node)
          | token =>
              if bare && token == some .blockEntry then
                let (items, left) ← takeBareItems fuel (opened false)
                let node :=
                  Node.sequence (collectionTag properties.tag .list) items
                pure (node, left.name properties.anchor node)
              else if block && token == some .blockSequenceStart then
                let (items, left) ← takeBlockItems fuel (opened false).drop
                let node :=
                  Node.sequence (collectionTag properties.tag .list) items
                pure (node, left.name properties.anchor node)
              else if block && token == some .blockMappingStart then
                let (entries, left) ← takeBlockEntries fuel (opened true).drop
                let node :=
                  Node.mapping (collectionTag properties.tag .mapping) entries
                pure (node, left.name properties.anchor node)
              else if properties.anchor.isSome || properties.tag.isSome then
                let node := Node.scalar (scalarTag properties.tag true []) []
                pure (node, behind.name properties.anchor node)
              else throw .malformed

/-- Read the items of a list whose dashes are indented. -/
def takeBlockItems : Nat → Parser → Except Fault (List Node × Parser)
  | 0, _ => .error .malformed
  | fuel + 1, parser => do
      match ← parser.peek with
      | some .blockEntry =>
          let behind := parser.drop
          let (item, left) ←
            match ← behind.peek with
            | some .blockEntry => pure (Node.nothing, behind)
            | some .blockEnd => pure (Node.nothing, behind)
            | _ => takeNode true false fuel behind
          let (items, left) ← takeBlockItems fuel left
          pure (item :: items, left)
      | some .blockEnd => pure ([], parser.drop)
      | _ => throw .malformed

/-- Read the items of a list whose dashes are not indented. -/
def takeBareItems : Nat → Parser → Except Fault (List Node × Parser)
  | 0, _ => .error .malformed
  | fuel + 1, parser => do
      match ← parser.peek with
      | some .blockEntry =>
          let behind := parser.drop
          let (item, left) ←
            match ← behind.peek with
            | some .blockEntry => pure (Node.nothing, behind)
            | some .key => pure (Node.nothing, behind)
            | some .value => pure (Node.nothing, behind)
            | some .blockEnd => pure (Node.nothing, behind)
            | _ => takeNode true false fuel behind
          let (items, left) ← takeBareItems fuel left
          pure (item :: items, left)
      | _ => pure ([], parser)

/-- Read the entries of a block mapping. -/
def takeBlockEntries : Nat → Parser → Except Fault (List (Node × Node) × Parser)
  | 0, _ => .error .malformed
  | fuel + 1, parser => do
      match ← parser.peek with
      | some .key =>
          let (key, left) ← takeBlockPart fuel parser.drop
          let (value, left) ←
            match ← left.peek with
            | some .value => takeBlockPart fuel left.drop
            | _ => pure (Node.nothing, left)
          let (entries, left) ← takeBlockEntries fuel left
          pure ((key, value) :: entries, left)
      | some .blockEnd => pure ([], parser.drop)
      | _ => throw .malformed

/-- Read a key or a value of a block mapping, which may be missing. -/
def takeBlockPart : Nat → Parser → Except Fault (Node × Parser)
  | 0, _ => .error .malformed
  | fuel + 1, parser => do
      match ← parser.peek with
      | some .key => pure (Node.nothing, parser)
      | some .value => pure (Node.nothing, parser)
      | some .blockEnd => pure (Node.nothing, parser)
      | _ => takeNode true true fuel parser

/-- Read the items of a flow list.  `first` says that no comma is due. -/
def takeFlowItems (first : Bool) :
    Nat → Parser → Except Fault (List Node × Parser)
  | 0, _ => .error .malformed
  | fuel + 1, parser => do
      match ← parser.peek with
      | some .flowSequenceEnd => pure ([], parser.drop)
      | token =>
          if !first && token != some .flowEntry then throw .malformed
          let behind := if first then parser else parser.drop
          match ← behind.peek with
          | some .flowSequenceEnd => pure ([], behind.drop)
          | some .key =>
              let (key, left) ← takeFlowPart .flowSequenceEnd true fuel behind.drop
              let (value, left) ←
                match ← left.peek with
                | some .value =>
                    takeFlowPart .flowSequenceEnd false fuel left.drop
                | _ => pure (Node.nothing, left)
              let (items, left) ← takeFlowItems false fuel left
              pure (.mapping .mapping [(key, value)] :: items, left)
          | _ =>
              let (item, left) ← takeNode false false fuel behind
              let (items, left) ← takeFlowItems false fuel left
              pure (item :: items, left)

/-- Read the entries of a flow mapping.  `first` says that no comma is due. -/
def takeFlowEntries (first : Bool) :
    Nat → Parser → Except Fault (List (Node × Node) × Parser)
  | 0, _ => .error .malformed
  | fuel + 1, parser => do
      match ← parser.peek with
      | some .flowMappingEnd => pure ([], parser.drop)
      | token =>
          if !first && token != some .flowEntry then throw .malformed
          let behind := if first then parser else parser.drop
          match ← behind.peek with
          | some .flowMappingEnd => pure ([], behind.drop)
          | some .key =>
              let (key, left) ← takeFlowPart .flowMappingEnd true fuel behind.drop
              let (value, left) ←
                match ← left.peek with
                | some .value =>
                    takeFlowPart .flowMappingEnd false fuel left.drop
                | _ => pure (Node.nothing, left)
              let (entries, left) ← takeFlowEntries false fuel left
              pure ((key, value) :: entries, left)
          | _ =>
              let (key, left) ← takeNode false false fuel behind
              let (entries, left) ← takeFlowEntries false fuel left
              pure ((key, Node.nothing) :: entries, left)

/-- Read a key or a value inside a flow collection, which may be missing. -/
def takeFlowPart
    (close : Token)
    (isKey : Bool) : Nat → Parser → Except Fault (Node × Parser)
  | 0, _ => .error .malformed
  | fuel + 1, parser => do
      let token ← parser.peek
      if token == some .flowEntry || token == some close ||
          (isKey && token == some .value) then
        pure (Node.nothing, parser)
      else takeNode false false fuel parser

end

/-! ## Documents -/

/-- Read the directives before a document: the handles they declare. -/
def takeDirectives : Bool → Handles → List Token → Except Fault (Handles × List Token)
  | versioned, handles, .versionDirective major :: rest =>
      if versioned || major != 1 then .error .malformed
      else takeDirectives true handles rest
  | versioned, handles, .tagDirective handle uri :: rest =>
      if handles.any (fun known => known.1 == handle) then .error .malformed
      else takeDirectives versioned ((handle, uri) :: handles) rest
  | versioned, handles, .otherDirective :: rest =>
      takeDirectives versioned handles rest
  | _, handles, rest => .ok (handles, rest)

/-- A document starts explicitly before this token. -/
def opensDocument : Token → Bool
  | .versionDirective _ => true
  | .tagDirective _ _ => true
  | .otherDirective => true
  | .documentStart => true
  | _ => false

/-- Read the content of a document, which may be missing. -/
def takeContent
    (fuel : Nat)
    (parser : Parser) : Except Fault (Node × Parser) := do
  match ← parser.peek with
  | none => pure (Node.nothing, parser)
  | some .documentEnd => pure (Node.nothing, parser)
  | some token =>
      if opensDocument token then pure (Node.nothing, parser)
      else takeNode true false fuel parser

/-- Nothing but ends of documents may follow the only document. -/
def checkEnd (parser : Parser) : Except Fault Unit := do
  let behind : Parser :=
    { parser with ahead := parser.ahead.dropWhile (· == .documentEnd) }
  match ← behind.peek with
  | none => pure ()
  | some _ => throw .malformed

/-- The only document of a text, or nothing if the text holds none. -/
def parseDocument (stream : TokenStream) : Except Fault (Option Node) := do
  let fuel := 4 * stream.tokens.length + 4
  let parser : Parser :=
    { ahead := stream.tokens, fault := stream.fault, handles := standardHandles }
  match ← parser.peek with
  | none => pure none
  | some token =>
      if opensDocument token then
        let (handles, rest) ← takeDirectives false [] stream.tokens
        let behind := { parser with ahead := rest, handles := handles ++ standardHandles }
        match ← behind.peek with
        | some .documentStart =>
            let (node, left) ← takeContent fuel behind.drop
            checkEnd left
            pure (some node)
        | _ => throw .malformed
      else
        let (node, left) ← takeNode true false fuel parser
        checkEnd left
        pure (some node)

end Yaml
end ShaderLift
