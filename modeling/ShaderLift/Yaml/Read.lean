import ShaderLift.Text.Lines
import ShaderLift.Yaml.Node
import ShaderLift.Yaml.Reader

/-!
# The value of a document

Merge keys are resolved first: merged entries come before the entries of the
mapping itself, and of a list of mappings the last comes first, so that later
values replace earlier ones.  A mapping that merges a mapping around it is
malformed here.  Then scalars get their values.  Of several faults the one in
the outermost collection counts, and of those the first.

A file is decoded as a whole before its text is read, so that bytes that are no
text count before every fault.
-/

namespace ShaderLift
namespace Yaml

open Document

namespace Node

/-- The node is a list or a mapping. -/
def isCollection : Node → Bool
  | .scalar _ _ => false
  | _ => true

/-- The node is a key that merges mappings. -/
def isMerge : Node → Bool
  | .scalar .merge _ => true
  | _ => false

/-- A key as it is used: the default key is text. -/
def asKey : Node → Node
  | .scalar .default text => .scalar .text text
  | node => node

mutual

/-- The entries of a mapping with its merges resolved. -/
def flatEntries : Node → Except Fault (List (Node × Node))
  | .mapping _ entries => do
      let (merged, own) ← splitMerges entries
      pure (merged ++ own)
  | _ => .error .malformed

/-- The merged entries and the own entries among some entries. -/
def splitMerges :
    List (Node × Node) → Except Fault (List (Node × Node) × List (Node × Node))
  | [] => .ok ([], [])
  | entry :: rest => do
      let (merged, own) ← splitMerge entry
      let (moreMerged, moreOwn) ← splitMerges rest
      pure (merged ++ moreMerged, own ++ moreOwn)

/-- The entries that one entry merges, or the entry itself. -/
def splitMerge :
    Node × Node → Except Fault (List (Node × Node) × List (Node × Node))
  | (key, value) =>
      if key.isMerge then do
        let merged ← mergedEntries value
        pure (merged, [])
      else .ok ([], [(key.asKey, value)])

/-- The entries that a merged node holds. -/
def mergedEntries : Node → Except Fault (List (Node × Node))
  | .mapping _ entries => do
      let (merged, own) ← splitMerges entries
      pure (merged ++ own)
  | .sequence _ items => mergedItems items
  | _ => .error .malformed

/-- The entries of merged mappings, those of the last mapping first. -/
def mergedItems : List Node → Except Fault (List (Node × Node))
  | [] => .ok []
  | item :: rest => do
      let entries ← flatEntries item
      let more ← mergedItems rest
      pure (more ++ entries)

end

/-! ## Faults -/

/-- The fault of a node that is read at once: a scalar without a value. -/
def scalarFault? : Node → Option Fault
  | .scalar tag text =>
      match readScalar tag text with
      | .ok _ => none
      | .error fault => some fault
  | _ => none

/-- The fault of an entry that is read with its mapping. -/
def entryFault? (entry : Node × Node) : Option Fault :=
  if entry.1.isCollection then some .malformed
  else (scalarFault? entry.1).or (scalarFault? entry.2)

/-- The one entry of a mapping that is an item of a list of pairs. -/
def pair? : Node → Option (Node × Node)
  | .mapping _ [entry] => some entry
  | _ => none

/-- The fault of an item of a list of pairs. -/
def pairFault? (item : Node) : Option Fault :=
  match item.pair? with
  | none => some .malformed
  | some entry => (scalarFault? entry.1).or (scalarFault? entry.2)

/-- The fault of a collection itself, and the collections in it. -/
def inspect : Node → Option Fault × List Node
  | .scalar _ _ => (none, [])
  | .enclosing _ => (none, [])
  | .sequence tag items =>
      if tag = .list then
        (items.findSome? scalarFault?, items.filter isCollection)
      else if tag = .pairs then
        (items.findSome? pairFault?,
          (items.flatMap fun item =>
            item.pair?.toList.flatMap fun entry => [entry.1, entry.2]).filter
              isCollection)
      else (some .malformed, [])
  | .mapping tag entries =>
      if tag = .mapping ∨ tag = .set then
        match flatEntries (.mapping tag entries) with
        | .error fault => (some fault, [])
        | .ok flat =>
            (flat.findSome? entryFault?,
              (flat.map Prod.snd).filter isCollection)
      else (some .malformed, [])

/-- The first fault at a depth. -/
def faultAt : Nat → Node → Option Fault
  | 0, node => (inspect node).1
  | depth + 1, node => (inspect node).2.findSome? (faultAt depth)

mutual

/-- How deep collections are nested. -/
def depth : Node → Nat
  | .scalar _ _ => 0
  | .enclosing _ => 0
  | .sequence _ items => listDepth items + 1
  | .mapping _ entries => entriesDepth entries + 1

/-- The greatest depth of some nodes. -/
def listDepth : List Node → Nat
  | [] => 0
  | item :: rest => max item.depth (listDepth rest)

/-- The greatest depth of the nodes of some entries. -/
def entriesDepth : List (Node × Node) → Nat
  | [] => 0
  | entry :: rest => max (entryDepth entry) (entriesDepth rest)

/-- The greater depth of a key and its value. -/
def entryDepth : Node × Node → Nat
  | (key, value) => max key.depth value.depth

end

/-- The fault that counts. -/
def fault? (node : Node) : Option Fault :=
  (scalarFault? node).or
    ((List.range (node.depth + 1)).findSome? fun depth => faultAt depth node)

/-! ## Values -/

/-- The value of a node without faults.  The fuel bounds its depth. -/
def value : Nat → Node → Value
  | _, .scalar tag text =>
      match readScalar tag text with
      | .ok value => value
      | .error _ => .null
  | _, .enclosing isMapping => .enclosing isMapping
  | 0, _ => .null
  | fuel + 1, .sequence tag items =>
      if tag = .pairs then
        .list (items.filterMap fun item =>
          item.pair?.map fun entry =>
            .pair (value fuel entry.1) (value fuel entry.2))
      else .list (items.map (value fuel))
  | fuel + 1, .mapping tag entries =>
      match flatEntries (.mapping tag entries) with
      | .error _ => .null
      | .ok flat =>
          let read := Entries.ofPairs
            (flat.map fun entry => (value fuel entry.1, value fuel entry.2))
          if tag = .set then .set (read.map Prod.fst) else .mapping read

end Node

/-- The value of a text, whose line ends are unified.  A text without a
document is nothing. -/
def read (text : List Char) : Except Fault Value := do
  match ← parseDocument (tokens text) with
  | none => pure .null
  | some node =>
      match node.fault? with
      | some fault => throw fault
      | none => pure (node.value (node.depth + 1))

/-! ## Bytes -/

/-- The halves of surrogate pairs that escapes in a text give. -/
def escapedHalves : List Char → List Nat
  | [] => []
  | c :: rest =>
      let here : List Nat :=
        match c, rest with
        | '\\', mark :: digits =>
            match (escapeLength? mark).bind (takeHex · 0 digits) with
            | some (code, _) => if isHalf code then [code] else []
            | none => []
        | _, _ => []
      here ++ escapedHalves rest

/-- Read a document. -/
def parse : Reader := fun bytes =>
  match Text.decodePieces bytes with
  | .error error => .error (.text error)
  | .ok text =>
      match read (Text.unifyLineEnds text) with
      | .error cause => .error (.fault cause)
      | .ok value =>
          .ok ⟨value, (escapedHalves text).map fun half => (standIn half, half)⟩

end Yaml
end ShaderLift
